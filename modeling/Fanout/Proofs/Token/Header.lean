import Mathlib.Data.List.Forall2
import Fanout.Proofs.Json.Field
import Fanout.Token.Header

/-!
What makes a header name an algorithm: as an object, the members with a meaning stand at most once
and have their shapes, and the algorithm is one of them; as an array, all of them follow each other.
-/

namespace Fanout.Token.Header

open Json (Term Sole AtMostOnce)

variable {l : List (String × Term)} {shape : Term → Bool} {key : String}

theorem allows_iff :
    allows l shape key ↔ AtMostOnce l key ∧ ∀ t, (key, t) ∈ l → shape t := by
  rcases Json.field_cases l key with ⟨found, lacks⟩ | ⟨u, found, one⟩ | ⟨found, repeated⟩ <;>
    rw [allows, found]
  · have free : ∀ t, (key, t) ∉ l := fun t ht => lacks (key, t) ht rfl
    simp [lacks.atMostOnce, free]
  · constructor
    · intro here
      refine ⟨one.atMostOnce, fun t ht => ?_⟩
      obtain ⟨-, rfl⟩ := Prod.mk.inj (one.eq ht rfl)
      exact here
    · intro shaped
      exact shaped.2 u one.mem
  · simp [repeated]

/-- A header that names an algorithm. -/
inductive Names (a : String) : Term → Prop where
  | members {t u : Term} {l : List (String × Term)} (named : t.members? = some l)
      (once : ∀ e ∈ shapes, AtMostOnce l e.1) (shaped : ∀ e ∈ shapes, ∀ u, (e.1, u) ∈ l → e.2 u)
      (one : Sole l "alg" u) (alg : algorithm? u = some a) : Names a t
  | items {ts : List Term} {u : Term} (shaped : List.Forall₂ (fun t e => e.2 t) ts shapes)
      (one : ts[1]? = some u) (alg : algorithm? u = some a) : Names a (.array ts)

theorem algorithmOf?_object {ms : List (List Json.Mark × Term)} {a : String} :
    algorithmOf? (.object ms) = some a ↔
      ∃ l, (Term.object ms).members? = some l ∧ (∀ e ∈ shapes, allows l e.2 e.1) ∧
        ∃ u, Sole l "alg" u ∧ algorithm? u = some a := by
  simp only [algorithmOf?, Option.bind_eq_bind, Option.bind_eq_some_iff]
  refine exists_congr fun l => and_congr_right fun _ => ?_
  simp only [← Json.required?_eq_some_iff, ← Option.bind_eq_some_iff, ← List.all_eq_true]
  split_ifs with shaped <;> simp [shaped]

theorem algorithmOf?_eq_some_iff {t : Term} {a : String} :
    algorithmOf? t = some a ↔ Names a t := by
  constructor
  · intro read
    cases t with
    | object ms =>
      obtain ⟨l, named, all, u, one, alg⟩ := algorithmOf?_object.mp read
      exact .members named (fun e he => (allows_iff.mp (all e he)).1)
        (fun e he => (allows_iff.mp (all e he)).2) one alg
    | array ts =>
      rw [algorithmOf?] at read
      split_ifs at read with shaped
      obtain ⟨u, one, alg⟩ := Option.bind_eq_some_iff.mp read
      refine .items (List.forall₂_iff_zip.mpr ⟨shaped.1, fun h => ?_⟩) one alg
      exact List.all_eq_true.mp shaped.2 _ h
    | _ => cases read
  · rintro (⟨named, once, shaped, one, alg⟩ | ⟨shaped, one, alg⟩)
    · cases t with
      | object ms =>
        exact algorithmOf?_object.mpr
          ⟨_, named, fun e he => allows_iff.mpr ⟨once e he, shaped e he⟩, _, one, alg⟩
      | _ => cases named
    · obtain ⟨long, shaped⟩ := List.forall₂_iff_zip.mp shaped
      rw [algorithmOf?, if_pos ⟨long, List.all_eq_true.mpr fun e he => shaped he⟩, one]
      exact alg

end Fanout.Token.Header
