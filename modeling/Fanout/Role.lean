import Fanout.Json.Reader
import Fanout.Json.Writer

/-!
Roles of a user. Two have a meaning; any other name is kept as it is.
-/

namespace Fanout

inductive Role where
  | admin
  | agent
  | other (name : String)
deriving DecidableEq, Repr

namespace Role

def name : Role → String
  | admin => "admin"
  | agent => "agent"
  | other n => n

/-- The role with a meaning that has a given name. -/
def known? (n : String) : Option Role :=
  if n = "admin" then some admin else if n = "agent" then some agent else none

def ofName (n : String) : Role := (known? n).getD (other n)

@[simp] theorem name_ofName (n : String) : (ofName n).name = n := by
  unfold ofName known?
  split
  · simp_all [name]
  · split <;> simp_all [name]

theorem ofName_name_ofName (n : String) : ofName (ofName n).name = ofName n := by simp

/-- A role is written as its name; a role with a meaning also as an object that holds nothing under
its name. -/
def ofTerm? : Json.Term → Option Role
  | .string marks => (Json.Mark.text? marks).map ofName
  | .object [(key, .null)] => (Json.Mark.text? key).bind known?
  | _ => none

def ofOctets? (b : Octets) : Option Role :=
  (Json.Term.ofOctets? Json.greatestDepth b).bind ofTerm?

def octets (r : Role) : Octets := Json.quoted r.name

end Role

end Fanout
