import Fanout.Octets

/-!
What a JSON text says before anything is asked of it: members in their written order, repeated
keys included, strings as marks and numbers as digits. Whether a string is text and whether a
number is in range are questions about a term.
-/

namespace Fanout.Json

/-- A piece of a string: a byte as it stands or named by a short escape, or a sixteen-bit unit. -/
inductive Mark where
  | byte (b : UInt8)
  | unit (u : Nat)
deriving DecidableEq, Repr

structure Exponent where
  negative : Bool
  digits : List Nat
deriving DecidableEq, Repr

/-- A number as written. -/
structure Numeral where
  negative : Bool
  whole : List Nat
  fraction : Option (List Nat)
  exponent : Option Exponent
deriving DecidableEq, Repr

/-- A JSON text. -/
inductive Term where
  | null
  | bool (b : Bool)
  | number (n : Numeral)
  | string (marks : List Mark)
  | array (items : List Term)
  | object (members : List (List Mark × Term))
deriving Repr

namespace Mark

/-- A unit that must be followed by the second half of a pair. -/
def isHigh (u : Nat) : Bool := 0xD800 ≤ u && u < 0xDC00

/-- A unit that must follow the first half of a pair. -/
def isLow (u : Nat) : Bool := 0xDC00 ≤ u && u < 0xE000

/-- The code point of a pair. -/
def paired (high low : Nat) : Nat := 0x10000 + (high - 0xD800) * 0x400 + (low - 0xDC00)

/-- The bytes that marks stand for, put before those collected in reverse; `none` if a unit is
half a pair. -/
def octetsOnto? : List Mark → Octets → Option Octets
  | [], acc => some acc.reverse
  | .byte b :: rest, acc => octetsOnto? rest (b :: acc)
  | .unit u :: rest, acc =>
    if isLow u then none
    else if isHigh u then
      match rest with
      | .unit v :: rest =>
        if isLow v then
          octetsOnto? rest ((String.utf8EncodeChar (Char.ofNat (paired u v))).reverse ++ acc)
        else none
      | _ => none
    else octetsOnto? rest ((String.utf8EncodeChar (Char.ofNat u)).reverse ++ acc)

/-- The text of a string; `none` if it is not well formed. -/
def text? (marks : List Mark) : Option String := (octetsOnto? marks []).bind Octets.text?

end Mark

namespace Term

def text? : Term → Option String
  | string marks => Mark.text? marks
  | _ => none

/-- The members of an object under the texts of their keys; `none` if a key is no text. -/
def members? : Term → Option (List (String × Term))
  | object members => members.mapM fun (key, t) => (Mark.text? key).map fun k => (k, t)
  | _ => none

end Term

/-- A member looked up under a key that may stand at most once. -/
inductive Field (α : Type) where
  | absent
  | present (a : α)
  | repeated

/-- The member under a key. -/
def field {α : Type} (members : List (String × α)) (key : String) : Field α :=
  match members.filter (·.1 == key) with
  | [] => .absent
  | [(_, a)] => .present a
  | _ => .repeated

/-- The member under a key that must stand exactly once. -/
def required? {α : Type} (members : List (String × α)) (key : String) : Option α :=
  match field members key with
  | .present a => some a
  | _ => none

end Fanout.Json
