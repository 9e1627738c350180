import Fanout.Event.Scope

/-!
Event envelopes: a type, a tenant and further members, written as one flat JSON object that begins
with the first two.
-/

namespace Fanout.Event

def typeKey : String := "type"

/-- An event as it is published. -/
structure Envelope where
  type : String
  tenant : Tenant
  payload : Json.Members
deriving Repr

/-- Why a payload cannot be put into an envelope. -/
inductive EnvelopeError where
  | payloadNotObject
  | reservedField (key : String)
deriving DecidableEq, Repr

def EnvelopeError.message : EnvelopeError → String
  | payloadNotObject => "Envelope payload must be a JSON object"
  | reservedField key => "Envelope payload uses reserved field: " ++ key

namespace Envelope

/-- The members that a payload brings: those of an object, and none if there is no payload. -/
def payloadMembers? : Json.Value → Option Json.Members
  | .object members => some members
  | .null => some []
  | _ => none

/-- The first of the envelope's own keys that a payload uses. -/
def reservedKey? (members : Json.Members) : Option String :=
  [typeKey, tenantKey].find? fun key => (members.get? key).isSome

/-- An envelope around a payload, which is an object or null and leaves the envelope's own keys
alone. -/
def ofPayload (type : String) (tenant : Tenant) (payload : Json.Value) :
    Except EnvelopeError Envelope :=
  match payloadMembers? payload with
  | none => .error .payloadNotObject
  | some members =>
    match reservedKey? members with
    | some key => .error (.reservedField key)
    | none => .ok ⟨type, tenant, members⟩

/-- All members in the order in which they are written. -/
def members (e : Envelope) : List (String × Json.Value) :=
  (typeKey, .string e.type) :: (tenantKey, .string e.tenant.id) :: e.payload

def octets (e : Envelope) : Octets := 0x7B :: (Json.Value.membersOctets e.members ++ [0x7D])

/-- The envelope that the members of an object make: each of the two own keys stands exactly once
and holds a string. -/
def ofMembers? (members : List (String × Json.Term)) : Option Envelope := do
  let type ← (← Json.required? members typeKey).text?
  let tenant ← Tenant.ofTerm? (← Json.required? members tenantKey)
  let rest := members.filter fun m => m.1 != typeKey && m.1 != tenantKey
  let payload ← rest.mapM fun (key, t) => t.value?.map fun v => (key, v)
  return ⟨type, tenant, Json.Members.ofList payload⟩

def ofTerm? (t : Json.Term) : Option Envelope := t.members?.bind ofMembers?

def ofOctets? (body : Octets) : Option Envelope :=
  (Json.Term.ofOctets? Json.greatestDepth body).bind ofTerm?

def same (a b : Envelope) : Bool :=
  a.type == b.type && a.tenant == b.tenant && Json.Value.sameMembers a.payload b.payload

end Envelope

end Fanout.Event
