import Mathlib.Algebra.Group.Int.Defs
import Mathlib.Algebra.Group.Nat.Defs
import Mathlib.Data.List.Basic
import Mathlib.Tactic.SplitIfs
import Fanout.Json.Writer
import Fanout.Proofs.Json.Grammar

/-!
Strings and integers as they are written. What the writer puts between quotes names every byte of
the text, and the digits of an integer denote it, so both are read back as they were. All that is
written is text itself.
-/

namespace Fanout.Json

/-! ### Strings -/

namespace Mark

/-- How a byte is written between quotes: a control character without a short escape by its
number. -/
def ofByte (b : UInt8) : Mark :=
  if 0x20 ≤ b ∨ b ∈ [0x08, 0x09, 0x0A, 0x0C, 0x0D] then .byte b else .unit b.toNat

/-- The marks that a text is written with. -/
def ofText (s : String) : List Mark := (Octets.ofText s).map ofByte

end Mark

theorem unit?_hexOctet : ∀ n < 0x20,
    Reader.unit? 0x30 0x30 (hexOctet (n / 16)) (hexOctet (n % 16)) = some n := by
  decide

theorem utf8EncodeChar_ascii : ∀ n < 0x80,
    String.utf8EncodeChar (Char.ofNat n) = [UInt8.ofNat n] := by
  decide

theorem writesMarks_escaped (b : UInt8) {ms : List Mark} {o : Octets} (rest : WritesMarks ms o) :
    WritesMarks (Mark.ofByte b :: ms) (escaped b ++ o) := by
  rw [escaped]
  split_ifs with quote slash plain h8 h9 hA hC hD
  · subst quote
    exact .short 0x22 0x22 (by decide) rest
  · subst slash
    exact .short 0x5C 0x5C (by decide) rest
  · rw [Mark.ofByte, if_pos (.inl plain)]
    exact .plain b quote slash plain rest
  · subst h8
    exact .short 0x62 0x08 (by decide) rest
  · subst h9
    exact .short 0x74 0x09 (by decide) rest
  · subst hA
    exact .short 0x6E 0x0A (by decide) rest
  · subst hC
    exact .short 0x66 0x0C (by decide) rest
  · subst hD
    exact .short 0x72 0x0D (by decide) rest
  · rw [Mark.ofByte, if_neg (by simp [plain, h8, h9, hA, hC, hD])]
    exact .unit _ _ _ _ _ (unit?_hexOctet _ (UInt8.lt_iff_toNat_lt.mp (UInt8.not_le.mp plain))) rest

theorem writesMarks_ofText (s : String) :
    WritesMarks (Mark.ofText s) ((Octets.ofText s).flatMap escaped) := by
  rw [Mark.ofText]
  induction Octets.ofText s with
  | nil => exact .nil
  | cons b o ih => exact writesMarks_escaped b ih

theorem Mark.octetsOnto?_ofByte (b : UInt8) (ms : List Mark) (acc : Octets) :
    octetsOnto? (ofByte b :: ms) acc = octetsOnto? ms (b :: acc) := by
  rw [ofByte]
  split_ifs with h
  · rw [octetsOnto?]
  · have small : b.toNat < 0x20 := UInt8.lt_iff_toNat_lt.mp (UInt8.not_le.mp (not_or.mp h).1)
    have low : isLow b.toNat = false := by simp [isLow]; omega
    have high : isHigh b.toNat = false := by simp [isHigh]; omega
    rw [octetsOnto?.eq_def]
    simp [low, high, utf8EncodeChar_ascii _ (Nat.lt_trans small (by decide))]

@[simp] theorem Mark.text?_ofText (s : String) : Mark.text? (Mark.ofText s) = some s := by
  have all : ∀ o acc : Octets, octetsOnto? (o.map ofByte) acc = some (acc.reverse ++ o) := by
    intro o
    induction o with
    | nil => simp [octetsOnto?]
    | cons b o ih => simp [octetsOnto?_ofByte, ih]
  simp [Mark.text?, Mark.ofText, all]

/-! ### Integers -/

/-- The number that an integer is written as. -/
def Numeral.ofInt (n : Int) : Numeral := ⟨n < 0, Decimal.digits n.natAbs, none, none⟩

theorem digits_ne_nil (n : Nat) : Decimal.digits n ≠ [] := by
  rw [Decimal.digits]
  split <;> simp

theorem isWhole_digits (n : Nat) : IsWhole (Decimal.digits n) where
  lt_ten _ h := Decimal.lt_ten_of_mem_digits h
  nonempty := digits_ne_nil n
  head h := by
    fun_induction Decimal.digits n with
    | case1 n small => simpa using h
    | case2 n large ih =>
      have front := digits_ne_nil (n / 10)
      rw [List.head?_append, List.head?_eq_some_head front, Option.some_or] at h
      have zero := Decimal.ofDigits_digits (n / 10)
      rw [ih (by rw [List.head?_eq_some_head front, h])] at zero
      simp [Decimal.ofDigits] at zero
      omega

theorem asciiOctets_naturalText (n : Nat) :
    asciiOctets (Decimal.naturalText n) = digitOctets (Decimal.digits n) := by
  have digit : ∀ d < 10, UInt8.ofNat (Decimal.digitChar d).toNat = UInt8.ofNat (0x30 + d) := by
    decide
  rw [asciiOctets, Decimal.naturalText, digitOctets, List.map_map]
  exact List.map_congr_left fun d hd => digit d (Decimal.lt_ten_of_mem_digits hd)

theorem writes_int (n : Int) :
    Writes (.number (.ofInt n)) (asciiOctets (Decimal.integerText n)) := by
  rw [Numeral.ofInt, Decimal.integerText]
  by_cases negative : n < 0
  · simpa [negative, asciiOctets, ← asciiOctets_naturalText] using
      Writes.negative (isWhole_digits n.natAbs)
  · simpa [negative, ← asciiOctets_naturalText] using Writes.number (isWhole_digits n.natAbs)

theorem Numeral.value?_ofInt {n : Int} (lower : -2 ^ 63 ≤ n) (upper : n < 2 ^ 64) :
    (Numeral.ofInt n).value? = some (.int n) := by
  have whole : (Numeral.ofInt n).integer? = some n := by
    by_cases negative : n < 0
    · have nonzero : n.natAbs ≠ 0 := by omega
      have fits : ¬ 0x8000000000000000 < n.natAbs := by omega
      rw [ofInt, integer?]
      simp only [decide_true, negative, Decimal.ofDigits_digits, nonzero, fits, false_or, if_true,
        if_false]
      congr 1
      omega
    · have fits : n.natAbs ≤ greatestInteger := by rw [greatestInteger]; omega
      rw [ofInt, integer?]
      simp only [negative, decide_false, Decimal.ofDigits_digits, fits, if_true,
        Bool.false_eq_true, if_false]
      congr 1
      omega
  rw [value?, whole]

theorem Numeral.integer?_range {n : Numeral} {i : Int} (h : n.integer? = some i) :
    -2 ^ 63 ≤ i ∧ i < 2 ^ 64 := by
  rw [integer?] at h
  split at h
  · simp only at h
    split_ifs at h with negative wide fits
    · have value := Option.some_inj.mp h
      omega
    · have value := Option.some_inj.mp h
      rw [greatestInteger] at fits
      omega
  · cases h

/-! ### Text -/

/-- Bytes that are the UTF-8 form of a text. -/
def IsText (o : Octets) : Prop := ∃ s, Octets.ofText s = o

theorem isText_append {o p : Octets} (ho : IsText o) (hp : IsText p) : IsText (o ++ p) := by
  obtain ⟨s, rfl⟩ := ho
  obtain ⟨t, rfl⟩ := hp
  exact ⟨s ++ t, Octets.ofText_append s t⟩

theorem ofText_ofList (l : List Char) :
    Octets.ofText (String.ofList l) = l.flatMap String.utf8EncodeChar := by
  simp [Octets.ofText, List.utf8Encode]

theorem isText_ascii {o : Octets} (h : o.all (· < 0x80)) : IsText o := by
  simp only [List.all_eq_true, decide_eq_true_eq] at h
  refine ⟨String.ofList (o.map fun b => Char.ofNat b.toNat), ?_⟩
  rw [ofText_ofList, List.flatMap_map]
  induction o with
  | nil => rfl
  | cons b o ih =>
    have first := utf8EncodeChar_ascii b.toNat (UInt8.lt_iff_toNat_lt.mp (h b List.mem_cons_self))
    rw [List.flatMap_cons, first, ih fun c hc => h c (List.mem_cons_of_mem b hc)]
    simp

theorem isText_cons {b : UInt8} {o : Octets} (h : b < 0x80) (ho : IsText o) : IsText (b :: o) :=
  isText_append (o := [b]) (isText_ascii (by simpa using h)) ho

/-- A character is one byte of ASCII or only bytes beyond. -/
theorem utf8EncodeChar_cases (c : Char) :
    (∃ b < 0x80, String.utf8EncodeChar c = [b]) ∨ ∀ b ∈ String.utf8EncodeChar c, 0x80 ≤ b := by
  have beyond : ∀ m, 0x80 ≤ m → m < 0x100 → (0x80 : UInt8) ≤ UInt8.ofNat m := by
    intro m lower upper
    rw [UInt8.le_iff_toNat_le, UInt8.toNat_ofNat']
    simp
    omega
  unfold String.utf8EncodeChar
  simp only
  split_ifs with h1 h2 h3
  · refine .inl ⟨_, ?_, rfl⟩
    rw [UInt8.lt_iff_toNat_lt, UInt8.toNat_ofNat']
    exact Nat.lt_of_le_of_lt (Nat.mod_le _ _) (Nat.lt_succ_of_le h1)
  all_goals
    refine .inr fun b hb => ?_
    simp only [List.mem_cons, List.not_mem_nil, or_false] at hb
  · rcases hb with rfl | rfl <;> exact beyond _ (by omega) (by omega)
  · rcases hb with rfl | rfl | rfl <;> exact beyond _ (by omega) (by omega)
  · rcases hb with rfl | rfl | rfl | rfl <;> exact beyond _ (by omega) (by omega)

theorem escaped_of_ge {b : UInt8} (h : 0x80 ≤ b) : escaped b = [b] := by
  have plain : 0x20 ≤ b := UInt8.le_trans (by decide) h
  have quote : b ≠ 0x22 := by
    rintro rfl
    exact absurd h (by decide)
  have slash : b ≠ 0x5C := by
    rintro rfl
    exact absurd h (by decide)
  rw [escaped, if_neg quote, if_neg slash, if_pos plain]

theorem escaped_ascii {b : UInt8} (h : b < 0x80) : (escaped b).all (· < 0x80) := by
  have digits : ∀ n < 0x20,
      [0x5C, 0x75, 0x30, 0x30, hexOctet (n / 16), hexOctet (n % 16)].all (· < 0x80) := by
    decide
  rw [escaped]
  by_cases plain : 0x20 ≤ b
  · split_ifs
    · decide
    · decide
    · simpa using h
  · have control := digits _ (UInt8.lt_iff_toNat_lt.mp (UInt8.not_le.mp plain))
    split_ifs <;> first | decide | exact control

/-- Escaping goes by bytes, but it takes no character apart: the bytes beyond ASCII stay. -/
theorem isText_escaped (c : Char) : IsText ((String.utf8EncodeChar c).flatMap escaped) := by
  rcases utf8EncodeChar_cases c with ⟨b, small, one⟩ | beyond
  · rw [one, List.flatMap_singleton]
    exact isText_ascii (escaped_ascii small)
  · rw [List.flatMap_congr fun b hb => escaped_of_ge (beyond b hb), List.flatMap_singleton']
    exact ⟨String.ofList [c], (ofText_ofList [c]).trans (List.flatMap_singleton _ c)⟩

theorem isText_quoted (s : String) : IsText (quoted s) := by
  have inside : ∀ l : List Char, IsText ((l.flatMap String.utf8EncodeChar).flatMap escaped) := by
    intro l
    induction l with
    | nil => exact ⟨"", rfl⟩
    | cons c l ih =>
      rw [List.flatMap_cons, List.flatMap_append]
      exact isText_append (isText_escaped c) ih
  have whole := inside s.toList
  rw [← ofText_ofList, String.ofList_toList] at whole
  exact isText_cons (by decide) (isText_append whole (isText_ascii (by decide)))

theorem isText_int (n : Int) : IsText (asciiOctets (Decimal.integerText n)) := by
  have digits : IsText (asciiOctets (Decimal.naturalText n.natAbs)) := by
    rw [asciiOctets_naturalText]
    refine isText_ascii (List.all_eq_true.mpr fun b hb => decide_eq_true ?_)
    obtain ⟨d, hd, rfl⟩ := List.mem_map.mp hb
    have value := toNat_digitOctet (Decimal.lt_ten_of_mem_digits hd)
    have small := Decimal.lt_ten_of_mem_digits hd
    rw [UInt8.lt_iff_toNat_lt, value]
    simp
    omega
  rw [Decimal.integerText]
  split_ifs
  · exact isText_cons (by decide) digits
  · exact digits

end Fanout.Json
