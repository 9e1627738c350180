import Fanout.Decimal.Binary64
import Fanout.Decimal.Integer
import Fanout.Json.Term

/-!
JSON values: strings are text, numbers are in range, and each key of an object stands once. Of a
repeated key the last member counts, and members are kept in the order of their keys.
-/

namespace Fanout.Json

/-- A JSON value. The members of an object ascend by key. -/
inductive Value where
  | null
  | bool (b : Bool)
  | int (n : Int)
  | double (x : Decimal.Binary64)
  | string (s : String)
  | array (items : List Value)
  | object (members : List (String × Value))
deriving Repr

/-- The members of an object, ascending by key. -/
abbrev Members := List (String × Value)

namespace Members

/-- Adds a member unless its key is taken. -/
def insertIfNew (key : String) (v : Value) : Members → Members
  | [] => [(key, v)]
  | (k, w) :: rest =>
    if key < k then (key, v) :: (k, w) :: rest
    else if key = k then (k, w) :: rest
    else (k, w) :: insertIfNew key v rest

/-- The members of a written sequence: the last one under each key. -/
def ofList (l : List (String × Value)) : Members :=
  l.foldr (fun (k, v) ms => insertIfNew k v ms) []

def get? (ms : Members) (key : String) : Option Value := ms.lookup key

end Members

namespace Numeral

/-- The greatest integer that is kept as one. -/
def greatestInteger : Nat := 0xFFFFFFFFFFFFFFFF

/-- The integer, if the number is written as one and is in range. Minus zero is not an integer. -/
def integer? (n : Numeral) : Option Int :=
  match n.fraction, n.exponent with
  | none, none =>
    let m := Decimal.ofDigits n.whole
    if n.negative then if m = 0 ∨ 0x8000000000000000 < m then none else some (-(m : Int))
    else if m ≤ greatestInteger then some m else none
  | _, _ => none

/-- Appends digits to a number as long as it stays at most the greatest integer; also how many
digits were left. -/
def gather : Nat → List Nat → Nat × Nat
  | m, [] => (m, 0)
  | m, d :: ds =>
    if m * 10 + d ≤ greatestInteger then gather (m * 10 + d) ds else (m, (d :: ds).length)

def exponentValue (n : Numeral) : Int :=
  match n.exponent with
  | none => 0
  | some e => if e.negative then -(Decimal.ofDigits e.digits : Int) else Decimal.ofDigits e.digits

/-- The digits taken from the whole part and then from the fraction, each as far as they fit an
integer, and the power of ten they count. A whole digit left out raises it, a fraction digit taken
lowers it. -/
def leading (n : Numeral) : Nat × Int :=
  let fraction := n.fraction.getD []
  let (m, raised) := gather 0 n.whole
  let (f, dropped) := gather m fraction
  (f, n.exponentValue + raised - (fraction.length - dropped : Nat))

/-- The floating-point number; `none` if it is too large to be finite. -/
def double? (n : Numeral) : Option Decimal.Binary64 :=
  let (m, e) := n.leading
  ((Decimal.Binary64.ofNat m).bind fun x => x.scale e).map fun x => x.withSign n.negative

def value? (n : Numeral) : Option Value :=
  match n.integer? with
  | some i => some (.int i)
  | none => n.double?.map .double

end Numeral

mutual

/-- Whether two values are the same. -/
def Value.same : Value → Value → Bool
  | .null, .null => true
  | .bool a, .bool b => a == b
  | .int a, .int b => a == b
  | .double a, .double b => a == b
  | .string a, .string b => a == b
  | .array a, .array b => Value.sameItems a b
  | .object a, .object b => Value.sameMembers a b
  | _, _ => false

def Value.sameItems : List Value → List Value → Bool
  | [], [] => true
  | v :: vs, w :: ws => Value.same v w && Value.sameItems vs ws
  | _, _ => false

def Value.sameMembers : List (String × Value) → List (String × Value) → Bool
  | [], [] => true
  | (k, v) :: ms, (l, w) :: ns => k == l && Value.same v w && Value.sameMembers ms ns
  | _, _ => false

end

namespace Value

def text? : Value → Option String
  | string s => some s
  | _ => none

end Value

end Fanout.Json
