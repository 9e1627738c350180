import Fanout.Role
import Fanout.Tenant

/-! Who stands behind a connection. -/

namespace Fanout

/-- A user, the tenant that the user belongs to and the user's role there. -/
structure Bearer where
  user : String
  tenant : Tenant
  role : Role
deriving DecidableEq, Repr

end Fanout
