import Fanout.Proofs.Decimal.Numeral
import Fanout.Proofs.Settings.Environment

/-!
Numbers among the settings. Each is the number that the text of its variable denotes in decimal if that
is fit, and otherwise the default. One without a sign is never zero.
-/

namespace Fanout.Settings

/-- The number that the text of a variable denotes, however great. -/
def number? (text : Option String) : Option Nat := text.bind fun s => Decimal.unsigned? s.toList

variable {default n : Nat} {text : Option String}

theorem positiveOr_cases (default : Nat) (text : Option String) :
    positiveOr default text = default ∨
      ∃ m, number? text = some m ∧ 0 < m ∧ m < 2 ^ 64 ∧ positiveOr default text = m := by
  rw [positiveOr]
  cases denoted : text.bind fun s => Decimal.unsigned? s.toList with
  | none => exact .inl rfl
  | some m =>
    by_cases fits : 0 < m ∧ m ≤ greatestUnsigned
    · have below : m < 2 ^ 64 := by
        have upper := fits.2
        rw [greatestUnsigned] at upper
        omega
      exact .inr ⟨m, denoted, fits.1, below, if_pos fits⟩
    · exact .inl (if_neg fits)

theorem positiveOr_eq_of_number? (denoted : number? text = some n) (pos : 0 < n)
    (below : n < 2 ^ 64) : positiveOr default text = n := by
  have fits : 0 < n ∧ n ≤ greatestUnsigned := ⟨pos, by rw [greatestUnsigned]; omega⟩
  rw [positiveOr, show (text.bind fun s => Decimal.unsigned? s.toList) = some n from denoted]
  exact if_pos fits

theorem positiveOr_pos (h : 0 < default) (text : Option String) : 0 < positiveOr default text := by
  obtain same | ⟨m, -, pos, -, same⟩ := positiveOr_cases default text
  · rwa [same]
  · rwa [same]

/-- A number beyond the default is one that the text denotes. -/
theorem lt_positiveOr_iff (h : default ≤ n) :
    n < positiveOr default text ↔ ∃ m, number? text = some m ∧ n < m ∧ m < 2 ^ 64 := by
  constructor
  · intro beyond
    obtain same | ⟨m, denoted, -, below, same⟩ := positiveOr_cases default text
    · omega
    · exact ⟨m, denoted, same ▸ beyond, below⟩
  · rintro ⟨m, denoted, beyond, below⟩
    rwa [positiveOr_eq_of_number? denoted (by omega) below]

theorem outboundBuffer_of_ofEnvironment {env : Environment} {s : Settings}
    (h : ofEnvironment env = .ok s) :
    s.outboundBuffer = positiveOr 256 (env.text? "WS_OUTBOUND_BUFFER") :=
  (ofEnvironment_eq_ok_iff.mp h).outboundBuffer

/-! ### Exact or the default -/

section Exact

variable {α : Type} {read? : List Char → Option α} {denotes : List Char → α → Prop}
  {fits : α → Prop}

/-- The number of a variable: the one that its text denotes, if that is fit; the default if it is not, if
the text denotes none, or if there is no text. -/
inductive ExactOr (denotes : List Char → α → Prop) (fits : α → Prop) (default : α) (env : Environment)
    (name : String) : α → Prop
  | exact {text : String} {n : α} (set : env name = some (Octets.ofText text))
      (denoted : denotes text.toList n) (fit : fits n) : ExactOr denotes fits default env name n
  | fallback (h : ∀ text n, env name = some (Octets.ofText text) → denotes text.toList n → ¬ fits n) :
      ExactOr denotes fits default env name default

theorem exactOr_of_reads {env : Environment} {name : String} {default value : α}
    (reads : ∀ l n, read? l = some n ↔ denotes l n)
    (taken : ∀ n, ((env.text? name).bind fun s => read? s.toList) = some n → fits n → value = n)
    (left : (∀ n, ((env.text? name).bind fun s => read? s.toList) = some n → ¬ fits n) →
      value = default) :
    ExactOr denotes fits default env name value := by
  have found : ∀ n, ((env.text? name).bind fun s => read? s.toList) = some n ↔
      ∃ text, env name = some (Octets.ofText text) ∧ denotes text.toList n := by
    intro n
    simp only [Option.bind_eq_some_iff, Environment.text?_eq_some_iff, reads]
  by_cases h : ∃ n, ((env.text? name).bind fun s => read? s.toList) = some n ∧ fits n
  · obtain ⟨n, read, fit⟩ := h
    obtain ⟨text, set, denoted⟩ := (found n).mp read
    rw [taken n read fit]
    exact .exact set denoted fit
  · rw [left fun n read fit => h ⟨n, read, fit⟩]
    exact .fallback fun text n set denoted fit => h ⟨n, (found n).mpr ⟨text, set, denoted⟩, fit⟩

/-- A positive number of at most 64 bits. -/
def FitsUnsigned (n : Nat) : Prop := 1 ≤ n ∧ n ≤ 2 ^ 64 - 1

/-- A number of 64 bits, one of them for the sign. -/
def FitsSigned (n : Int) : Prop := -2 ^ 63 ≤ n ∧ n ≤ 2 ^ 63 - 1

theorem positiveOr_exact (default : Nat) (env : Environment) (name : String) :
    ExactOr Decimal.DenotesUnsigned FitsUnsigned default env name
      (positiveOr default (env.text? name)) := by
  refine exactOr_of_reads (fun _ _ => Decimal.unsigned?_eq_some_iff) ?_ ?_
  · intro n read fit
    rw [positiveOr, read]
    exact if_pos fit
  · intro unfit
    rw [positiveOr]
    split
    · next n read => exact if_neg (unfit n read)
    · rfl

theorem signedOr_exact (default : Int) (env : Environment) (name : String) :
    ExactOr Decimal.DenotesSigned FitsSigned default env name (signedOr default (env.text? name)) := by
  refine exactOr_of_reads (fun _ _ => Decimal.signed?_eq_some_iff) ?_ ?_
  · intro n read fit
    rw [signedOr, read]
    exact if_pos ⟨fit.1, Int.lt_of_le_sub_one fit.2⟩
  · intro unfit
    rw [signedOr]
    split
    · next n read => exact if_neg fun fit => unfit n read ⟨fit.1, Int.le_sub_one_of_lt fit.2⟩
    · rfl

end Exact

end Fanout.Settings
