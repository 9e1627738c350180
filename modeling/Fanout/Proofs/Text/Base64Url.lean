import Mathlib.Tactic.SplitIfs
import Fanout.Proofs.Text.Alphabet
import Fanout.Text.Base64Url

/-!
Base 64 there and back. Bytes are cut into six-bit values and these are written as letters; both
steps can be undone in one way only, so a text stands for bytes exactly if it is what they are
written as.
-/

namespace Fanout.Text.Base64Url

/-! ### Letters -/

theorem value?_letter : ∀ n < 64, value? (letter n) = some n := by decide

theorem char_ofNat_of_toNat_eq {c : Char} {n : Nat} (h : c.toNat = n) : Char.ofNat n = c := by
  rw [← h, Char.ofNat_toNat]

theorem eq_letter_of_value? {c : Char} {n : Nat} (h : value? c = some n) :
    n < 64 ∧ c = letter n := by
  simp only [value?] at h
  split_ifs at h with upper lower digit dash line <;> obtain rfl := Option.some_inj.mp h
  · refine ⟨by omega, ?_⟩
    rw [letter, if_pos (by omega)]
    exact (char_ofNat_of_toNat_eq (by omega)).symm
  · refine ⟨by omega, ?_⟩
    rw [letter, if_neg (by omega), if_pos (by omega)]
    exact (char_ofNat_of_toNat_eq (by omega)).symm
  · refine ⟨by omega, ?_⟩
    rw [letter, if_neg (by omega), if_neg (by omega), if_pos (by omega)]
    exact (char_ofNat_of_toNat_eq (by omega)).symm
  · exact ⟨by decide, dash⟩
  · exact ⟨by decide, line⟩

theorem value?_eq_some_iff {c : Char} {n : Nat} : value? c = some n ↔ n < 64 ∧ c = letter n := by
  constructor
  · exact eq_letter_of_value?
  · rintro ⟨small, rfl⟩
    exact value?_letter n small

/-! ### Six-bit values -/

/-- The six-bit values of bytes; bits that are missing at the end are zero. -/
def sextets : Octets → List Nat
  | [] => []
  | [a] => [a.toNat / 4, a.toNat % 4 * 16]
  | [a, b] => [a.toNat / 4, a.toNat % 4 * 16 + b.toNat / 16, b.toNat % 16 * 4]
  | a :: b :: c :: rest =>
    a.toNat / 4 :: (a.toNat % 4 * 16 + b.toNat / 16) :: (b.toNat % 16 * 4 + c.toNat / 64) ::
      c.toNat % 64 :: sextets rest

theorem letters_eq (b : Octets) : letters b = (sextets b).map letter := by
  fun_induction sextets b with
  | case1 | case2 | case3 => rfl
  | case4 a b c rest ih => rw [letters, ih]; rfl

theorem lt_of_mem_sextets {b : Octets} : ∀ n ∈ sextets b, n < 64 := by
  fun_induction sextets b with
  | case1 => nofun
  | case2 a =>
    have := a.toNat_lt
    simp
    omega
  | case3 a b =>
    have := a.toNat_lt
    have := b.toNat_lt
    simp
    omega
  | case4 a b c rest ih =>
    have := a.toNat_lt
    have := b.toNat_lt
    have := c.toNat_lt
    simp only [List.forall_mem_cons]
    refine ⟨by omega, by omega, by omega, by omega, ih⟩

theorem ofNat_of_toNat_eq {a : UInt8} {n : Nat} (h : n = a.toNat) : UInt8.ofNat n = a := by
  rw [h, UInt8.ofNat_toNat]

theorem pack?_sextets (b : Octets) : pack? (sextets b) = some b := by
  fun_induction sextets b with
  | case1 => rfl
  | case2 a =>
    rw [pack?, if_pos (by omega), ofNat_of_toNat_eq (a := a) (by omega)]
  | case3 a b =>
    have := b.toNat_lt
    rw [pack?, if_pos (by omega), ofNat_of_toNat_eq (a := a) (by omega),
      ofNat_of_toNat_eq (a := b) (by omega)]
  | case4 a b c rest ih =>
    have := b.toNat_lt
    have := c.toNat_lt
    rw [pack?, ih, ofNat_of_toNat_eq (a := a) (by omega), ofNat_of_toNat_eq (a := b) (by omega),
      ofNat_of_toNat_eq (a := c) (by omega)]
    rfl

theorem eq_sextets_of_pack? {ns : List Nat} {b : Octets} (small : ∀ n ∈ ns, n < 64)
    (h : pack? ns = some b) : ns = sextets b := by
  have byte : ∀ n < 256, (UInt8.ofNat n).toNat = n := fun n hn => by
    rw [UInt8.toNat_ofNat', Nat.mod_eq_of_lt hn]
  fun_induction pack? ns generalizing b with
  | case1 =>
    obtain rfl := Option.some_inj.mp h
    rfl
  | case2 => cases h
  | case3 i j zero =>
    obtain rfl := Option.some_inj.mp h
    simp only [List.forall_mem_cons] at small
    obtain ⟨hi, hj, -⟩ := small
    simp only [sextets, byte _ (show i * 4 + j / 16 < 256 by omega)]
    simp
    omega
  | case4 => cases h
  | case5 i j k zero =>
    obtain rfl := Option.some_inj.mp h
    simp only [List.forall_mem_cons] at small
    obtain ⟨hi, hj, hk, -⟩ := small
    simp only [sextets, byte _ (show i * 4 + j / 16 < 256 by omega),
      byte _ (show j % 16 * 16 + k / 4 < 256 by omega)]
    simp
    omega
  | case6 => cases h
  | case7 i j k l rest ih =>
    obtain ⟨bytes, others, rfl⟩ := Option.map_eq_some_iff.mp h
    simp only [List.forall_mem_cons] at small
    obtain ⟨hi, hj, hk, hl, smalls⟩ := small
    simp only [sextets, byte _ (show i * 4 + j / 16 < 256 by omega),
      byte _ (show j % 16 * 16 + k / 4 < 256 by omega),
      byte _ (show k % 4 * 64 + l < 256 by omega), ← ih smalls others]
    simp
    omega

/-! ### Texts -/

theorem decode?_encode (b : Octets) : decode? (encode b) = some b := by
  have named : (letters b).mapM value? = some (sextets b) :=
    (mapM_eq_some_iff_spelled value?_eq_some_iff).mpr ⟨lt_of_mem_sextets, letters_eq b⟩
  rw [decode?, encode, String.toList_ofList, named, Option.bind_some, pack?_sextets]

/-- A text stands for bytes exactly if it is what they are written as. -/
theorem decode?_eq_some_iff {s : String} {b : Octets} : decode? s = some b ↔ s = encode b := by
  constructor
  · intro read
    obtain ⟨ns, named, packed⟩ := Option.bind_eq_some_iff.mp read
    obtain ⟨small, chars⟩ := (mapM_eq_some_iff_spelled value?_eq_some_iff).mp named
    rw [encode, letters_eq, ← eq_sextets_of_pack? small packed, ← chars, String.ofList_toList]
  · rintro rfl
    exact decode?_encode b

theorem isAlphanum_letter : ∀ n < 64, (letter n).isAlphanum ∨ letter n = '-' ∨ letter n = '_' := by
  decide

theorem isAlphanum_of_mem_encode {b : Octets} {c : Char} (h : c ∈ (encode b).toList) :
    c.isAlphanum ∨ c = '-' ∨ c = '_' := by
  rw [encode, String.toList_ofList, letters_eq] at h
  obtain ⟨n, hn, rfl⟩ := List.mem_map.mp h
  exact isAlphanum_letter n (lt_of_mem_sextets n hn)

theorem dot_not_mem_encode (b : Octets) : '.' ∉ (encode b).toList := by
  intro h
  exact absurd (isAlphanum_of_mem_encode h) (by decide)

end Fanout.Text.Base64Url
