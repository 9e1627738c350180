import Fanout.Http.Head
import Fanout.Http.Uri

/-!
Requests. They are put together from their parts, or read from a connection.
-/

namespace Fanout.Http

structure Request where
  method : String
  target : Uri
  headers : Headers

inductive RequestError where
  | badMethod
  | badTarget
  | badHeader (e : HeaderError)
deriving DecidableEq, Repr

namespace Request

/-- A request from its raw parts. -/
def ofParts (method target : String) (fields : List Field) : Except RequestError Request :=
  if ! isToken (Octets.ofText method) then .error .badMethod
  else
    match Uri.ofOctets? (Octets.ofText target) with
    | none => .error .badTarget
    | some uri =>
      match Headers.ofList fields with
      | .error e => .error (.badHeader e)
      | .ok headers => .ok ⟨method, uri, headers⟩

/-- The request of a head that could be read. Sizes are looked at before the target. -/
def ofHead (h : Head) : Except HeadFault Request :=
  if Uri.greatestLength < h.target.length then .error .targetTooLong
  else if h.fields.any fun f => greatestName < f.name.length then .error .tooLarge
  else
    match Octets.text? h.method, Uri.ofOctets? h.target with
    | some method, some uri =>
      match Head.Framing.fault? h.version h.fields with
      | some e => .error e
      | none => .ok ⟨method, uri, h.fields⟩
    | _, _ => .error .malformed

end Request

end Fanout.Http
