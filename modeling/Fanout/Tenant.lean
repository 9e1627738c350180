import Fanout.Json.Reader
import Fanout.Json.Writer

/-!
Tenants: the tag that decides who sees an event. The empty tag belongs to no tenant.
-/

namespace Fanout

structure Tenant where
  id : String
deriving DecidableEq, Repr

namespace Tenant

def empty : Tenant := ⟨""⟩

def isEmpty (t : Tenant) : Bool := t.id.isEmpty

theorem isEmpty_iff (t : Tenant) : t.isEmpty ↔ t = empty := by
  cases t; simp [isEmpty, empty]

/-- Whether an event under this tag is meant for a holder of the other one. The empty tag is meant
for everybody. -/
def reaches (t holder : Tenant) : Bool := t.isEmpty || holder == t

def ofTerm? (t : Json.Term) : Option Tenant := t.text?.map Tenant.mk

/-- The tag that a JSON text holds, which is a string. -/
def ofOctets? (b : Octets) : Option Tenant :=
  (Json.Term.ofOctets? Json.greatestDepth b).bind ofTerm?

def octets (t : Tenant) : Octets := Json.quoted t.id

end Tenant

end Fanout
