import Fanout.Octets

/-!
Header fields of a request. Names are tokens and do not tell capitals from small letters; of
several fields of one name the first counts.
-/

namespace Fanout.Http

def isTokenOctet (b : UInt8) : Bool :=
  (0x30 ≤ b && b ≤ 0x39) || (0x41 ≤ b && b ≤ 0x5A) || (0x61 ≤ b && b ≤ 0x7A) ||
    (Octets.ofText "!#$%&'*+-.^_\x60|~").contains b

def isToken (b : Octets) : Bool := ! b.isEmpty && b.all isTokenOctet

/-- The length of the longest name. -/
def greatestName : Nat := 65535

def isFieldName (b : Octets) : Bool := isToken b && b.length ≤ greatestName

/-- A byte that a field value may hold: no control character but the tab. -/
def isFieldOctet (b : UInt8) : Bool := b == 0x09 || (0x20 ≤ b && b != 0x7F)

inductive HeaderError where
  | badName
  | badValue
deriving DecidableEq, Repr

structure Field where
  name : Octets
  value : Octets
deriving DecidableEq, Repr

def Field.isNamed (f : Field) (name : String) : Bool := f.name.eqIgnoringCase (Octets.ofText name)

abbrev Headers := List Field

namespace Headers

/-- The fault of a field, if it has one; that of the name comes first. -/
def fault? (f : Field) : Option HeaderError :=
  if ! isFieldName f.name then some .badName
  else if ! f.value.all isFieldOctet then some .badValue
  else none

/-- Fields that can all be put into a request. -/
def ofList (l : List Field) : Except HeaderError Headers :=
  match l.findSome? fault? with
  | some e => .error e
  | none => .ok l

/-- The value of the first field of a name. -/
def get? (h : Headers) (name : String) : Option Octets :=
  (h.find? (·.isNamed name)).map Field.value

/-- A byte that counts as text in a field value. -/
def isTextOctet (b : UInt8) : Bool := b == 0x09 || (0x20 ≤ b && b < 0x7F)

/-- The value of the first field of a name, if it is text. -/
def text? (h : Headers) (name : String) : Option String :=
  (h.get? name).bind fun v => if v.all isTextOctet then Octets.text? v else none

end Headers

end Fanout.Http
