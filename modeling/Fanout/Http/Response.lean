import Fanout.Json.Writer

/-!
Responses, and the errors that are answered as JSON.
-/

namespace Fanout.Http

/-- A response. Header names are in lower case. -/
structure Response where
  status : Nat
  headers : List (String × String)
  body : Octets
deriving DecidableEq, Repr

namespace Response

def empty (status : Nat) : Response := ⟨status, [], []⟩

def json (status : Nat) (members : List (String × Json.Value)) : Response :=
  ⟨status, [("content-type", "application/json")],
    0x7B :: (Json.Value.membersOctets members ++ [0x7D])⟩

def withHeader (r : Response) (name value : String) : Response :=
  { r with headers := r.headers ++ [(name, value)] }

/-- The response to a request that asks for the headers only. -/
def withoutBody (r : Response) : Response := { r with body := [] }

end Response

inductive Refusal where
  | unauthorized (reason : String)
  | badRequest (reason : String)
deriving DecidableEq, Repr

namespace Refusal

def message : Refusal → String
  | unauthorized reason => reason
  | badRequest reason => "Invalid request: " ++ reason

/-- The status that tells of the refusal. -/
def status : Refusal → Nat
  | unauthorized _ => 401
  | badRequest _ => 400

def response (r : Refusal) : Response :=
  Response.json r.status [("message", .string r.message), ("success", .bool false)]

end Refusal

end Fanout.Http
