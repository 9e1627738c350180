import Fanout.Decimal.Shortest
import Fanout.Json.Value

/-!
The written form of values: no blanks, members in the order of their keys, and of the characters
of a string only quotes, backslashes and control characters escaped.
-/

namespace Fanout.Json

/-- Doubles have a point down to `0.00001` and up to sixteen digits before it, and an exponent
with its sign beyond. -/
def doubleLayout : Decimal.Layout := ⟨-5, 16, true⟩

/-- The lower-case hexadecimal digit of a value below sixteen. -/
def hexOctet (n : Nat) : UInt8 := UInt8.ofNat (if n < 10 then 0x30 + n else 0x57 + n)

/-- A byte of a string as it is written between quotes. -/
def escaped (b : UInt8) : Octets :=
  if b = 0x22 then [0x5C, 0x22]
  else if b = 0x5C then [0x5C, 0x5C]
  else if 0x20 ≤ b then [b]
  else if b = 0x08 then [0x5C, 0x62]
  else if b = 0x09 then [0x5C, 0x74]
  else if b = 0x0A then [0x5C, 0x6E]
  else if b = 0x0C then [0x5C, 0x66]
  else if b = 0x0D then [0x5C, 0x72]
  else [0x5C, 0x75, 0x30, 0x30, hexOctet (b.toNat / 16), hexOctet (b.toNat % 16)]

def quoted (s : String) : Octets := 0x22 :: ((Octets.ofText s).flatMap escaped ++ [0x22])

/-- Characters that are all ASCII, as bytes. -/
def asciiOctets (l : List Char) : Octets := l.map fun c => UInt8.ofNat c.toNat

mutual

/-- The written form of a value. -/
def Value.octets : Value → Octets
  | .null => [0x6E, 0x75, 0x6C, 0x6C]
  | .bool true => [0x74, 0x72, 0x75, 0x65]
  | .bool false => [0x66, 0x61, 0x6C, 0x73, 0x65]
  | .int n => asciiOctets (Decimal.integerText n)
  | .double x => asciiOctets (doubleLayout.text x)
  | .string s => quoted s
  | .array items => 0x5B :: (Value.itemsOctets items ++ [0x5D])
  | .object members => 0x7B :: (Value.membersOctets members ++ [0x7D])

def Value.itemsOctets : List Value → Octets
  | [] => []
  | [v] => Value.octets v
  | v :: w :: rest => Value.octets v ++ 0x2C :: Value.itemsOctets (w :: rest)

/-- The members of an object with commas between them. -/
def Value.membersOctets : List (String × Value) → Octets
  | [] => []
  | [(k, v)] => quoted k ++ 0x3A :: Value.octets v
  | (k, v) :: m :: rest =>
    quoted k ++ 0x3A :: (Value.octets v ++ 0x2C :: Value.membersOctets (m :: rest))

end

end Fanout.Json
