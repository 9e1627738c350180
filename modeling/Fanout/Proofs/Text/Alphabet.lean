import Mathlib.Data.List.Basic

/-!
Numbers by letters. Where each number below a bound has a letter, and a letter is read as a number only if
it is the letter of that number, the same holds of lists: one is read as numbers only if it spells them.
-/

namespace Fanout.Text

variable {read? : Char → Option Nat} {letter : Nat → Char} {bound : Nat} {l : List Char}
  {ns : List Nat}

theorem mapM_eq_some_iff_spelled (reads : ∀ {c n}, read? c = some n ↔ n < bound ∧ c = letter n) :
    l.mapM read? = some ns ↔ (∀ n ∈ ns, n < bound) ∧ l = ns.map letter := by
  induction l generalizing ns with
  | nil =>
    cases ns with
    | nil => simp
    | cons n ns => simp
  | cons c l ih =>
    cases ns with
    | nil => simp [Option.bind_eq_some_iff]
    | cons n ns =>
      have steps : (c :: l).mapM read? = some (n :: ns) ↔
          read? c = some n ∧ l.mapM read? = some ns := by
        simp [Option.bind_eq_some_iff]
      rw [steps, reads, ih, List.forall_mem_cons, List.map_cons, List.cons.injEq]
      exact and_and_and_comm

end Fanout.Text
