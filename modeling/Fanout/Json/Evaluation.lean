import Fanout.Json.Reader
import Fanout.Json.Value

/-!
From terms to values. A term has a value if its strings are text and its numbers are in range. An
object may quote instead: if its first key says so, it stands for the value of the JSON text that it
holds. That text is read for itself, so containers in it nest as deep as in any other.
-/

namespace Fanout.Json

/-- The key of an object that quotes a value. -/
def quotationKey : String := "$serde_json::private::RawValue"

/-- Whether the members of an object make it a quotation. Only the first key tells. -/
def isQuotation : List (List Mark × Term) → Bool
  | [] => false
  | (key, _) :: _ => Mark.text? key == some quotationKey

/-- The text that a quotation holds, which must be all that it holds. -/
def quotedText? : List (List Mark × Term) → Option String
  | [(_, t)] => t.text?
  | _ => none

mutual

/-- The value of a term, if it has one, where a reader for quoted texts is given. -/
def Term.valueWith? (quoted : Octets → Option Value) : Term → Option Value
  | .null => some .null
  | .bool b => some (.bool b)
  | .number n => n.value?
  | .string marks => (Mark.text? marks).map .string
  | .array items => (Term.valuesWith? quoted items).map .array
  | .object members =>
    if isQuotation members then (quotedText? members).bind fun s => quoted (Octets.ofText s)
    else (Term.entriesWith? quoted members).map fun ms => .object (Members.ofList ms)

def Term.valuesWith? (quoted : Octets → Option Value) : List Term → Option (List Value)
  | [] => some []
  | t :: ts =>
    match Term.valueWith? quoted t with
    | none => none
    | some v => (Term.valuesWith? quoted ts).map (v :: ·)

/-- The members of an object in their written order. -/
def Term.entriesWith? (quoted : Octets → Option Value) :
    List (List Mark × Term) → Option (List (String × Value))
  | [] => some []
  | (key, t) :: ms =>
    match Mark.text? key, Term.valueWith? quoted t with
    | some k, some v => (Term.entriesWith? quoted ms).map ((k, v) :: ·)
    | _, _ => none

end

namespace Value

/-- The value of a JSON text whose quotations nest less than so deep. -/
def ofOctetsWithin? : Nat → Octets → Option Value
  | 0, _ => none
  | n + 1, b => (Term.ofOctets? greatestDepth b).bind (Term.valueWith? (ofOctetsWithin? n))

/-- The value of a JSON text. A quoted text is shorter than the one around it, so its length bounds
how deep quotations nest. -/
def ofOctets? (b : Octets) : Option Value := ofOctetsWithin? (b.length + 1) b

end Value

/-- The value of a term, if it has one. -/
def Term.value? (t : Term) : Option Value := t.valueWith? Value.ofOctets?

end Fanout.Json
