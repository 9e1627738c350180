import Fanout.Json.Reader
import Fanout.Json.Value

/-!
Terms that are kept before it is known what they are for. Nothing is asked of their shape, but they
must have a meaning of their own.
-/

namespace Fanout.Json

/-- How deep containers may nest in a member of an object. -/
def memberDepth : Nat := greatestDepth - 1

mutual

/-- Whether containers nest at most so deep, all numbers are in range, and all strings and keys are
text. -/
def Term.isContent : Nat → Term → Bool
  | _, .null | _, .bool _ => true
  | _, .number n => n.value?.isSome
  | _, .string marks => (Mark.text? marks).isSome
  | 0, .array _ | 0, .object _ => false
  | d + 1, .array items => Term.areContent d items
  | d + 1, .object members => Term.membersAreContent d members

def Term.areContent : Nat → List Term → Bool
  | _, [] => true
  | d, t :: ts => Term.isContent d t && Term.areContent d ts

def Term.membersAreContent : Nat → List (List Mark × Term) → Bool
  | _, [] => true
  | d, (key, t) :: ms =>
    (Mark.text? key).isSome && Term.isContent d t && Term.membersAreContent d ms

end

end Fanout.Json
