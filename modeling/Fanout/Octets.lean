/-!
Byte strings. Text and bytes meet here only: `ofText` writes UTF-8, `text?` reads it, and each
undoes the other.
-/

namespace Fanout

abbrev Octets := List UInt8

namespace Octets

/-- The UTF-8 form of a text. -/
def ofText (s : String) : Octets := s.toUTF8.data.toList

/-- The text whose UTF-8 form the bytes are, if they are well formed. -/
def text? (b : Octets) : Option String := String.fromUTF8? ⟨b.toArray⟩

@[simp] theorem text?_ofText (s : String) : text? (ofText s) = some s := by
  have h : (⟨s.toUTF8.data.toList.toArray⟩ : ByteArray) = s.toUTF8 := rfl
  simp only [text?, ofText, h, String.fromUTF8?]
  split
  · rfl
  · next hv => exact absurd s.isValidUTF8 hv

theorem ofText_of_text?_eq_some {b : Octets} {s : String} (h : text? b = some s) :
    ofText s = b := by
  simp only [text?, String.fromUTF8?] at h
  split at h
  · cases h; rfl
  · cases h

theorem ofText_injective {s t : String} (h : ofText s = ofText t) : s = t := by
  have := congrArg text? h
  simpa using this

theorem ofText_append (s t : String) : ofText (s ++ t) = ofText s ++ ofText t := by
  simp [ofText]

/-- The hexadecimal digit of a value below sixteen, in lower case. -/
def hexDigit (n : Nat) : Char :=
  if n < 10 then Char.ofNat (0x30 + n) else Char.ofNat (0x57 + n)

def hex (b : Octets) : String :=
  String.ofList (b.flatMap fun x => [hexDigit (x.toNat / 16), hexDigit (x.toNat % 16)])

/-- The value of a hexadecimal digit in either case. -/
def hexValue? (b : UInt8) : Option Nat :=
  if 0x30 ≤ b ∧ b ≤ 0x39 then some (b.toNat - 0x30)
  else if 0x41 ≤ b ∧ b ≤ 0x46 then some (b.toNat - 0x37)
  else if 0x61 ≤ b ∧ b ≤ 0x66 then some (b.toNat - 0x57)
  else none

/-- An ASCII capital becomes the small letter; every other byte stays. -/
def lowerAscii (b : UInt8) : UInt8 := if 0x41 ≤ b ∧ b ≤ 0x5A then b + 0x20 else b

/-- Equality that does not tell ASCII capitals from small letters. -/
def eqIgnoringCase (a b : Octets) : Bool := a.map lowerAscii == b.map lowerAscii

/-- Whether a part stands somewhere among the bytes. -/
def occursIn (part : Octets) : Octets → Bool
  | [] => part.isEmpty
  | b :: rest => part.isPrefixOf (b :: rest) || occursIn part rest

end Octets

end Fanout
