import Fanout.Bearer

/-!
What a token says about its bearer.
-/

namespace Fanout.Token

open Json (Term)

/-- The claims of a token. Times are seconds since the epoch. -/
structure Claims where
  user : String
  tenant : Tenant
  email : String
  role : Role
  issued : Int
  expires : Int
deriving DecidableEq, Repr

namespace Claims

def bearer (c : Claims) : Bearer := ⟨c.user, c.tenant, c.role⟩

def textOrEmpty? (members : List (String × Term)) (key : String) : Option String :=
  match Json.field members key with
  | .absent => some ""
  | .present t => t.text?
  | .repeated => none

def integer? : Term → Option Int
  | .number n => n.integer?.filter fun i => i < 0x8000000000000000
  | _ => none

/-- The claims that the members of an object make. -/
def ofMembers? (members : List (String × Term)) : Option Claims := do
  let user ← (← Json.required? members "user_id").text?
  let tenant ← textOrEmpty? members "tenant_id"
  let email ← textOrEmpty? members "email"
  let role ← Role.ofTerm? (← Json.required? members "role")
  let issued ← integer? (← Json.required? members "iat")
  let expires ← integer? (← Json.required? members "exp")
  return ⟨user, ⟨tenant⟩, email, role, issued, expires⟩

/-- The members in the order in which they are written. -/
def members (c : Claims) : List (String × Json.Value) :=
  [("user_id", .string c.user), ("tenant_id", .string c.tenant.id), ("email", .string c.email),
    ("role", .string c.role.name), ("iat", .int c.issued), ("exp", .int c.expires)]

def octets (c : Claims) : Octets := 0x7B :: (Json.Value.membersOctets c.members ++ [0x7D])

end Claims

end Fanout.Token
