import Fanout.Json.Evaluation
import Fanout.Tenant

/-!
Which tenant an event body belongs to. The tag is the string under `tenant_id` at the top of a
JSON object; of a repeated key the last member counts. A body without a usable tag says why.
-/

namespace Fanout.Event

def tenantKey : String := "tenant_id"

/-- Why a body has no usable tag. -/
inductive UntaggedReason where
  | notObject
  | missingTenant
  | tenantNotString
  | emptyTenant
deriving DecidableEq, Repr

/-- The reason as it is logged. -/
def UntaggedReason.name : UntaggedReason → String
  | notObject => "not_json_object"
  | missingTenant => "missing_tenant_id"
  | tenantNotString => "tenant_id_not_string"
  | emptyTenant => "empty_tenant_id"

/-- Whom an event is meant for. -/
inductive Scope where
  | tenant (t : Tenant)
  | untagged (reason : UntaggedReason)
deriving DecidableEq, Repr

namespace Scope

def ofMember? : Option Json.Value → Scope
  | none => untagged .missingTenant
  | some (.string s) => if s.isEmpty then untagged .emptyTenant else tenant ⟨s⟩
  | some _ => untagged .tenantNotString

def ofValue : Json.Value → Scope
  | .object members => ofMember? (Json.Members.get? members tenantKey)
  | _ => untagged .notObject

/-- Bytes that are no JSON text count as no object. -/
def ofOctets (body : Octets) : Scope :=
  match Json.Value.ofOctets? body with
  | some v => ofValue v
  | none => untagged .notObject

/-- The tag to deliver under; it is empty for an untagged event. -/
def tag : Scope → Tenant
  | tenant t => t
  | untagged _ => Tenant.empty

end Scope

end Fanout.Event
