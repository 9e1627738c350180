import Mathlib.Data.List.Basic
import Fanout.Json.Term

/-!
Members looked up under a key: there is none, there is a sole one, or the key is repeated.
-/

namespace Fanout.Json

/-- There is one member under a key, which holds this. -/
def Sole {α : Type} (l : List (String × α)) (key : String) (a : α) : Prop :=
  l.filter (·.1 == key) = [(key, a)]

def Lacks {α : Type} (l : List (String × α)) (key : String) : Prop := ∀ m ∈ l, m.1 ≠ key

def AtMostOnce {α : Type} (l : List (String × α)) (key : String) : Prop :=
  (l.filter (·.1 == key)).length ≤ 1

variable {α : Type} {l : List (String × α)} {key : String} {a : α}

instance : Decidable (AtMostOnce l key) := inferInstanceAs (Decidable (_ ≤ _))

theorem Sole.mem (h : Sole l key a) : (key, a) ∈ l := by
  have found : (key, a) ∈ l.filter (·.1 == key) := by
    rw [h]
    exact List.mem_cons_self
  exact (List.mem_filter.mp found).1

theorem Sole.eq (h : Sole l key a) {m : String × α} (hm : m ∈ l) (same : m.1 = key) :
    m = (key, a) := by
  have found : m ∈ l.filter (·.1 == key) := List.mem_filter.mpr ⟨hm, by simp [same]⟩
  rw [h] at found
  exact List.mem_singleton.mp found

theorem Sole.atMostOnce (h : Sole l key a) : AtMostOnce l key := by
  rw [AtMostOnce, h]
  exact Nat.le_refl 1

theorem Lacks.filter_eq_nil (h : Lacks l key) : l.filter (·.1 == key) = [] :=
  List.filter_eq_nil_iff.mpr fun m hm => by simp [h m hm]

theorem Lacks.atMostOnce (h : Lacks l key) : AtMostOnce l key := by
  rw [AtMostOnce, h.filter_eq_nil]
  exact Nat.zero_le 1

/-! ### What is found -/

theorem Lacks.field_eq (h : Lacks l key) : field l key = .absent := by
  rw [field, h.filter_eq_nil]

theorem Sole.field_eq (h : Sole l key a) : field l key = .present a := by
  rw [field, h]

/-- What is found tells whether there is no member, one or several. -/
theorem field_cases (l : List (String × α)) (key : String) :
    field l key = .absent ∧ Lacks l key ∨ (∃ a, field l key = .present a ∧ Sole l key a) ∨
      field l key = .repeated ∧ ¬AtMostOnce l key := by
  match found : l.filter (·.1 == key) with
  | [] =>
    have none : Lacks l key := fun m hm => by simpa using List.filter_eq_nil_iff.mp found m hm
    exact .inl ⟨none.field_eq, none⟩
  | [(k, a)] =>
    have here : (k, a) ∈ l.filter (·.1 == key) := by rw [found]; exact List.mem_cons_self
    obtain rfl : k = key := by simpa using (List.mem_filter.mp here).2
    exact .inr (.inl ⟨a, Sole.field_eq found, found⟩)
  | _ :: _ :: _ => exact .inr (.inr ⟨by rw [field, found], by simp [AtMostOnce, found]⟩)

theorem required?_eq_some_iff : required? l key = some a ↔ Sole l key a := by
  constructor
  · intro h
    rcases field_cases l key with ⟨found, -⟩ | ⟨b, found, one⟩ | ⟨found, -⟩ <;>
      rw [required?, found] at h
    · cases h
    · obtain rfl := Option.some_inj.mp h
      exact one
    · cases h
  · intro one
    rw [required?, one.field_eq]

theorem mem_of_required? (h : required? l key = some a) : (key, a) ∈ l :=
  (required?_eq_some_iff.mp h).mem

theorem eq_of_required? (h : required? l key = some a) {m : String × α} (hm : m ∈ l)
    (same : m.1 = key) : m = (key, a) :=
  (required?_eq_some_iff.mp h).eq hm same

theorem lookup_reverse_of_required? (h : required? l key = some a) :
    l.reverse.lookup key = some a := by
  have one := required?_eq_some_iff.mp h
  cases found : l.reverse.lookup key with
  | none =>
    rw [List.lookup_eq_none_iff] at found
    exact absurd (found _ (List.mem_reverse.mpr one.mem)) (by simp)
  | some b =>
    obtain ⟨before, after, split, -⟩ := List.lookup_eq_some_iff.mp found
    have there : (key, b) ∈ l := by
      rw [← List.mem_reverse, split]
      simp
    obtain ⟨-, rfl⟩ := Prod.mk.inj (one.eq there rfl)
    rfl

end Fanout.Json
