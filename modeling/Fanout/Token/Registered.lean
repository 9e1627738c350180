import Fanout.Json.Content

/-!
A second look at the claims, at those with a registered meaning only. A registered claim of the
wrong kind is passed over, provided that the attempt to read it came to the end of the term: an
attempt that stops inside leaves text that no object continues with.
-/

namespace Fanout.Token.Registered

open Json (Term Mark Numeral)

/-- The greatest exponent that is read digit by digit. -/
def greatestExponent : Nat := 0x7FFFFFFF

/-- Whether reading a number comes to its end. It stops early only at an exponent that is out of
range before its last digit. -/
def numberSpent (n : Numeral) : Bool :=
  n.value?.isSome ||
    match n.exponent with
    | none => true
    | some e => Decimal.ofDigits e.digits.dropLast ≤ greatestExponent

/-- Whether reading a string comes to its end. Bytes are checked at the end; half a pair stops the
reading, one unit later, which is the closing quote if the half pair stands last. -/
def stringSpent (marks : List Mark) : Bool :=
  (Mark.octetsOnto? marks []).isSome ||
    match marks.getLast? with
    | some (.unit u) => Mark.isHigh u && (Mark.octetsOnto? marks.dropLast []).isSome
    | _ => false

def scalarSpent : Term → Bool
  | .number n => numberSpent n
  | .string marks => stringSpent marks
  | .array _ | .object _ => false
  | _ => true

/-- Whether a claim that should be a number is read to its end. An empty container is. -/
def numericSpent : Term → Bool
  | .array items => items.isEmpty
  | .object members => members.isEmpty
  | t => scalarSpent t

mutual

/-- Whether a claim that may be anything is read to its end. Only in the last part of a container
may reading fail, and there only at its end. -/
def spent : Nat → Term → Bool
  | 0, .array _ | 0, .object _ => false
  | d + 1, .array items => itemsSpent d items
  | d + 1, .object members => membersSpent d members
  | _, t => scalarSpent t

def itemsSpent : Nat → List Term → Bool
  | _, [] => true
  | d, [t] => spent d t
  | d, t :: u :: ts => t.isContent d && itemsSpent d (u :: ts)

/-- The same of the members of an object, whose keys must all be text. -/
def membersSpent : Nat → List (List Mark × Term) → Bool
  | _, [] => true
  | d, [(key, t)] => (Mark.text? key).isSome && spent d t
  | d, (key, t) :: m :: ms =>
    (Mark.text? key).isSome && t.isContent d && membersSpent d (m :: ms)

end

/-- The registered claims and when each is read to its end. -/
def shapes : List (String × (Term → Bool)) :=
  [("exp", numericSpent), ("nbf", numericSpent), ("sub", scalarSpent),
    ("iss", spent Json.memberDepth), ("aud", spent Json.memberDepth)]

/-- Whether the registered claims let the object be read; none may stand twice. -/
def readable (members : List (String × Term)) : Bool :=
  shapes.all fun (key, shape) =>
    match Json.field members key with
    | .absent => true
    | .present t => shape t
    | .repeated => false

/-- Whether a claim names one audience or several. -/
def isAudience : Term → Bool
  | .array items => items.all fun t => t.text?.isSome
  | t => t.text?.isSome

/-- Whether the object is meant for a named audience. -/
def hasAudience (members : List (String × Term)) : Bool :=
  match Json.required? members "aud" with
  | some t => isAudience t
  | none => false

end Fanout.Token.Registered
