/-!
Whole numbers in decimal: their digits, most significant first, and the texts read as numbers.
-/

namespace Fanout.Decimal

/-- The number that a sequence of digits denotes. -/
def ofDigits (l : List Nat) : Nat := l.foldl (fun n d => 10 * n + d) 0

/-- The digits of a number, most significant first; zero has one digit. -/
def digits (n : Nat) : List Nat :=
  if n < 10 then [n] else digits (n / 10) ++ [n % 10]

theorem ofDigits_append_singleton (l : List Nat) (d : Nat) :
    ofDigits (l ++ [d]) = 10 * ofDigits l + d := by
  simp [ofDigits]

@[simp] theorem ofDigits_digits (n : Nat) : ofDigits (digits n) = n := by
  fun_induction digits n with
  | case1 n h => simp [ofDigits]
  | case2 n h ih => rw [ofDigits_append_singleton, ih]; omega

theorem lt_ten_of_mem_digits {n d : Nat} (h : d ∈ digits n) : d < 10 := by
  fun_induction digits n with
  | case1 n hn => simp_all
  | case2 n hn ih =>
    rcases List.mem_append.1 h with h | h
    · exact ih h
    · simp at h; omega

def digitChar (d : Nat) : Char := Char.ofNat (0x30 + d)

def digit? (c : Char) : Option Nat :=
  if 0x30 ≤ c.toNat ∧ c.toNat ≤ 0x39 then some (c.toNat - 0x30) else none

/-- The number that one or more digits denote, leading zeros allowed. -/
def natural? (l : List Char) : Option Nat :=
  if l.isEmpty then none else (l.mapM digit?).map ofDigits

/-- A number after an optional plus sign. -/
def unsigned? : List Char → Option Nat
  | '+' :: l => natural? l
  | l => natural? l

/-- A number after an optional sign. -/
def signed? : List Char → Option Int
  | '-' :: l => (natural? l).map fun n => -(n : Int)
  | l => (unsigned? l).map Int.ofNat

def naturalText (n : Nat) : List Char := (digits n).map digitChar

/-- The decimal text of an integer, with a sign if it is negative. -/
def integerText (n : Int) : List Char :=
  if n < 0 then '-' :: naturalText n.natAbs else naturalText n.natAbs

end Fanout.Decimal
