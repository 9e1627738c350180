import Mathlib.Algebra.Group.Int.Defs
import Mathlib.Algebra.Group.Nat.Defs
import Mathlib.Tactic.SplitIfs
import Fanout.Proofs.Json.Field
import Fanout.Proofs.Token.Header
import Fanout.Token.Claims
import Fanout.Token.Registered

/-!
What the members of an object must be to state claims, and what the registered ones among them must
be for the second look at them.
-/

namespace Fanout.Token

open Json (Term Sole Lacks AtMostOnce)

namespace Claims

/-- A number of 64 bits with a sign, written without fraction and exponent. Minus zero is none. -/
inductive Integral : Term → Int → Prop where
  | positive {ds : List Nat} (small : Decimal.ofDigits ds < 2 ^ 63) :
      Integral (.number ⟨false, ds, none, none⟩) (Decimal.ofDigits ds)
  | negative {ds : List Nat} (nonzero : Decimal.ofDigits ds ≠ 0)
      (small : Decimal.ofDigits ds ≤ 2 ^ 63) :
      Integral (.number ⟨true, ds, none, none⟩) (-Decimal.ofDigits ds)

/-- A text under a key, which is empty if the key is lacking. -/
inductive Optional (l : List (String × Term)) (key : String) : String → Prop where
  | lacking (none : Lacks l key) : Optional l key ""
  | given {t : Term} {s : String} (one : Sole l key t) (text : t.text? = some s) :
      Optional l key s

/-- Claims that members state. -/
structure Stated (l : List (String × Term)) (c : Claims) : Prop where
  user : ∃ t, Sole l "user_id" t ∧ t.text? = some c.user
  tenant : Optional l "tenant_id" c.tenant.id
  email : Optional l "email" c.email
  role : ∃ t, Sole l "role" t ∧ Role.ofTerm? t = some c.role
  issued : ∃ t, Sole l "iat" t ∧ Integral t c.issued
  expires : ∃ t, Sole l "exp" t ∧ Integral t c.expires

theorem integer?_eq_some_iff {t : Term} {i : Int} : integer? t = some i ↔ Integral t i := by
  constructor
  · intro read
    match t, read with
    | .number ⟨negative, ds, none, none⟩, read =>
      obtain ⟨whole, small⟩ := Option.filter_eq_some_iff.mp read
      rw [decide_eq_true_eq] at small
      cases negative with
      | true =>
        simp only [Json.Numeral.integer?, if_true] at whole
        split_ifs at whole with out
        obtain rfl := Option.some_inj.mp whole
        rw [not_or, Nat.not_lt] at out
        exact .negative out.1 out.2
      | false =>
        simp only [Json.Numeral.integer?, Bool.false_eq_true, if_false] at whole
        split_ifs at whole
        obtain rfl := Option.some_inj.mp whole
        exact .positive (by omega)
  · rintro (small | ⟨nonzero, small⟩)
    · refine Option.filter_eq_some_iff.mpr ⟨?_, decide_eq_true (by omega)⟩
      have fits : Decimal.ofDigits _ ≤ Json.Numeral.greatestInteger :=
        Nat.le_trans (Nat.le_of_lt small) (by decide)
      simp [Json.Numeral.integer?, fits]
    · refine Option.filter_eq_some_iff.mpr ⟨?_, decide_eq_true (by omega)⟩
      have fits : ¬(Decimal.ofDigits _ = 0 ∨ 0x8000000000000000 < Decimal.ofDigits _) :=
        not_or.mpr ⟨nonzero, Nat.not_lt.mpr small⟩
      simp only [Json.Numeral.integer?, if_true, if_neg fits]

theorem textOrEmpty?_eq_some_iff {l : List (String × Term)} {key s : String} :
    textOrEmpty? l key = some s ↔ Optional l key s := by
  constructor
  · intro read
    rcases Json.field_cases l key with ⟨found, none⟩ | ⟨t, found, one⟩ | ⟨found, -⟩ <;>
      rw [textOrEmpty?, found] at read
    · obtain rfl := Option.some_inj.mp read
      exact .lacking none
    · exact .given one read
    · cases read
  · rintro (none | ⟨one, text⟩)
    · rw [textOrEmpty?, none.field_eq]
    · rw [textOrEmpty?, one.field_eq]
      exact text

theorem ofMembers?_eq_some_iff {l : List (String × Term)} {c : Claims} :
    ofMembers? l = some c ↔ Stated l c := by
  obtain ⟨user, ⟨tenant⟩, email, role, issued, expires⟩ := c
  simp only [ofMembers?, Option.bind_eq_bind, Option.bind_eq_some_iff, Option.pure_def,
    Option.some.injEq, mk.injEq, Tenant.mk.injEq, Json.required?_eq_some_iff,
    textOrEmpty?_eq_some_iff, integer?_eq_some_iff]
  constructor
  · rintro ⟨t, one, _, text, _, tenant, _, email, u, two, _, role, v, three, _, issued, w, four, _,
      expires, rfl, rfl, rfl, rfl, rfl, rfl⟩
    exact ⟨⟨t, one, text⟩, tenant, email, ⟨u, two, role⟩, ⟨v, three, issued⟩, ⟨w, four, expires⟩⟩
  · rintro ⟨⟨t, one, text⟩, tenant, email, ⟨u, two, role⟩, ⟨v, three, issued⟩, ⟨w, four, expires⟩⟩
    exact ⟨t, one, _, text, _, tenant, _, email, u, two, _, role, v, three, _, issued, w, four, _,
      expires, rfl, rfl, rfl, rfl, rfl, rfl⟩

end Claims

namespace Registered

/-- The second look comes to the end of each registered claim. -/
def Passable (l : List (String × Term)) : Prop := ∀ e ∈ shapes, ∀ t, (e.1, t) ∈ l → e.2 t

variable {l : List (String × Term)}

theorem readable_iff : readable l ↔ (∀ e ∈ shapes, AtMostOnce l e.1) ∧ Passable l := by
  have each : readable l = shapes.all fun e => Header.allows l e.2 e.1 := rfl
  rw [each, List.all_eq_true]
  simp only [Header.allows_iff, Passable, ← forall₂_and]

theorem hasAudience_eq_false_iff (once : AtMostOnce l "aud") :
    hasAudience l = false ↔ ∀ t, ("aud", t) ∈ l → isAudience t = false := by
  rcases Json.field_cases l "aud" with ⟨found, none⟩ | ⟨t, found, one⟩ | ⟨-, repeated⟩
  · have free : ∀ t, ("aud", t) ∉ l := fun t ht => none _ ht rfl
    simp [hasAudience, Json.required?, found, free]
  · have sole : ∀ u, ("aud", u) ∈ l → u = t := fun u hu => (Prod.mk.inj (one.eq hu rfl)).2
    rw [hasAudience, Json.required?_eq_some_iff.mpr one]
    constructor
    · intro no u hu
      rwa [sole u hu]
    · intro no
      exact no t one.mem
  · exact absurd once repeated

/-- An expiry is passable. -/
theorem numericSpent_of_integral {t : Term} {i : Int} (h : Claims.Integral t i) :
    numericSpent t := by
  cases h <;> simp [numericSpent, scalarSpent, numberSpent]

end Registered

end Fanout.Token
