import Fanout.Octets

/-!
Base 64 with the URL-safe alphabet and no padding. `decode?` is strict: it refuses foreign
characters, a lone last character and last bits that are not zero, so every byte string has one
written form.
-/

namespace Fanout.Text.Base64Url

def letter (n : Nat) : Char :=
  if n < 26 then Char.ofNat (0x41 + n)
  else if n < 52 then Char.ofNat (0x61 + (n - 26))
  else if n < 62 then Char.ofNat (0x30 + (n - 52))
  else if n = 62 then '-' else '_'

def value? (c : Char) : Option Nat :=
  let n := c.toNat
  if 0x41 ≤ n ∧ n ≤ 0x5A then some (n - 0x41)
  else if 0x61 ≤ n ∧ n ≤ 0x7A then some (n - 0x61 + 26)
  else if 0x30 ≤ n ∧ n ≤ 0x39 then some (n - 0x30 + 52)
  else if c = '-' then some 62
  else if c = '_' then some 63
  else none

/-- Four characters for three bytes; two or three for a rest of one or two. -/
def letters : Octets → List Char
  | [] => []
  | [a] => [letter (a.toNat / 4), letter (a.toNat % 4 * 16)]
  | [a, b] =>
    [letter (a.toNat / 4), letter (a.toNat % 4 * 16 + b.toNat / 16), letter (b.toNat % 16 * 4)]
  | a :: b :: c :: rest =>
    letter (a.toNat / 4) :: letter (a.toNat % 4 * 16 + b.toNat / 16) ::
      letter (b.toNat % 16 * 4 + c.toNat / 64) :: letter (c.toNat % 64) :: letters rest

def encode (b : Octets) : String := String.ofList (letters b)

/-- The bytes that six-bit values stand for; `none` if bits are left over that are not zero. -/
def pack? : List Nat → Option Octets
  | [] => some []
  | [_] => none
  | [i, j] => if j % 16 = 0 then some [UInt8.ofNat (i * 4 + j / 16)] else none
  | [i, j, k] =>
    if k % 4 = 0 then
      some [UInt8.ofNat (i * 4 + j / 16), UInt8.ofNat (j % 16 * 16 + k / 4)]
    else none
  | i :: j :: k :: l :: rest =>
    (pack? rest).map fun bytes =>
      UInt8.ofNat (i * 4 + j / 16) :: UInt8.ofNat (j % 16 * 16 + k / 4) ::
        UInt8.ofNat (k % 4 * 64 + l) :: bytes

def decode? (s : String) : Option Octets := (s.toList.mapM value?).bind pack?

example : encode [0x66, 0x6F, 0x6F, 0x62] = "Zm9vYg" := by decide

end Fanout.Text.Base64Url
