import Mathlib.Data.List.Induction
import Mathlib.Data.Nat.Digits.Defs
import Fanout.Decimal.Integer
import Fanout.Proofs.Text.Alphabet

/-!
What a text denotes in decimal. A number is read from a text exactly when the text denotes it, however
long the text is and however many zeros lead it.
-/

namespace Fanout.Decimal

/-- One or more digits, and the number they denote: each counts ten times as much as the next. -/
inductive Denotes : List Char → Nat → Prop
  | digits {ds : List Nat} (filled : ds ≠ []) (small : ∀ d ∈ ds, d < 10) :
      Denotes (ds.map digitChar) (Nat.ofDigits 10 ds.reverse)

/-- Digits that a plus sign may lead. -/
inductive DenotesUnsigned : List Char → Nat → Prop
  | bare {l : List Char} {n : Nat} (h : Denotes l n) : DenotesUnsigned l n
  | plus {l : List Char} {n : Nat} (h : Denotes l n) : DenotesUnsigned ('+' :: l) n

/-- Digits that either sign may lead. -/
inductive DenotesSigned : List Char → Int → Prop
  | unsigned {l : List Char} {n : Nat} (h : DenotesUnsigned l n) : DenotesSigned l n
  | minus {l : List Char} {n : Nat} (h : Denotes l n) : DenotesSigned ('-' :: l) (-n)

variable {l : List Char} {ds : List Nat} {c : Char} {d n : Nat}

theorem ofDigits_eq (ds : List Nat) : ofDigits ds = Nat.ofDigits 10 ds.reverse := by
  induction ds using List.reverseRecOn with
  | nil => rfl
  | append_singleton ds d ih =>
    rw [ofDigits_append_singleton, ih, List.reverse_append, List.reverse_singleton,
      List.singleton_append, Nat.ofDigits_cons, Nat.add_comm]

theorem digit?_eq_some_iff : digit? c = some d ↔ d < 10 ∧ c = digitChar d := by
  constructor
  · intro read
    rw [digit?] at read
    split at read
    · next within =>
      obtain rfl := Option.some.inj read
      have code : 0x30 + (c.toNat - 0x30) = c.toNat := by omega
      refine ⟨by omega, ?_⟩
      rw [digitChar, code, Char.ofNat_toNat]
    · cases read
  · rintro ⟨small, rfl⟩
    have table : ∀ d < 10, digit? (digitChar d) = some d := by decide
    exact table d small

theorem mapM_digit?_eq_some_iff :
    l.mapM digit? = some ds ↔ (∀ d ∈ ds, d < 10) ∧ l = ds.map digitChar :=
  Text.mapM_eq_some_iff_spelled digit?_eq_some_iff

theorem natural?_eq_some_iff : natural? l = some n ↔ Denotes l n := by
  rw [natural?]
  constructor
  · intro read
    split at read
    · cases read
    · next filled =>
      obtain ⟨ds, digits, rfl⟩ := Option.map_eq_some_iff.mp read
      obtain ⟨small, rfl⟩ := mapM_digit?_eq_some_iff.mp digits
      rw [ofDigits_eq]
      refine .digits ?_ small
      rintro rfl
      exact filled rfl
  · rintro ⟨filled, small⟩
    rw [if_neg (by simpa using filled), mapM_digit?_eq_some_iff.mpr ⟨small, rfl⟩, Option.map_some,
      ofDigits_eq]

/-- A sign is no digit. -/
theorem not_denotes_cons (h : digit? c = none) : ¬ Denotes (c :: l) n := by
  rw [← natural?_eq_some_iff]
  simp [natural?, h]

theorem unsigned?_eq_some_iff : unsigned? l = some n ↔ DenotesUnsigned l n := by
  constructor
  · intro read
    rw [unsigned?.eq_def] at read
    split at read
    · exact .plus (natural?_eq_some_iff.mp read)
    · exact .bare (natural?_eq_some_iff.mp read)
  · rintro (h | h)
    · have bare : unsigned? l = natural? l := by
        refine unsigned?.eq_2 l ?_
        rintro rest rfl
        exact not_denotes_cons (by decide) h
      rw [bare, natural?_eq_some_iff.mpr h]
    · rw [unsigned?, natural?_eq_some_iff.mpr h]

theorem signed?_eq_some_iff {n : Int} : signed? l = some n ↔ DenotesSigned l n := by
  constructor
  · intro read
    rw [signed?.eq_def] at read
    split at read
    · obtain ⟨_, found, rfl⟩ := Option.map_eq_some_iff.mp read
      obtain ⟨m, digits, same⟩ := Option.bind_eq_some_iff.mp found
      obtain rfl := Option.some.inj same
      exact .minus (natural?_eq_some_iff.mp digits)
    · obtain ⟨m, digits, rfl⟩ := Option.map_eq_some_iff.mp read
      exact .unsigned (unsigned?_eq_some_iff.mp digits)
  · rintro (h | h)
    · have plain : signed? l = (unsigned? l).map Int.ofNat := by
        refine signed?.eq_2 l ?_
        rintro rest rfl
        cases h with
        | bare h => exact not_denotes_cons (by decide) h
      rw [plain, unsigned?_eq_some_iff.mpr h]
      rfl
    · rw [signed?, natural?_eq_some_iff.mpr h]
      rfl

example : DenotesSigned "-007".toList (-7) := signed?_eq_some_iff.mp (by decide)

end Fanout.Decimal
