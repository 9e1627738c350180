import Fanout.Octets

/-!
Frames of a WebSocket and how an event body becomes one: as text if it is UTF-8, else as binary.
-/

namespace Fanout

/-- Why a side closes. -/
structure CloseReason where
  code : Nat
  reason : String
deriving DecidableEq, Repr

inductive Frame where
  | text (s : String)
  | binary (b : Octets)
  | ping (b : Octets)
  | pong (b : Octets)
  | close (reason : Option CloseReason)
deriving DecidableEq, Repr

namespace Frame

/-- The frame that carries an event body. -/
def ofBody (body : Octets) : Frame :=
  match Octets.text? body with
  | some s => text s
  | none => binary body

/-- The bytes that a frame with data carries. -/
def payload : Frame → Octets
  | text s => Octets.ofText s
  | binary b | ping b | pong b => b
  | close _ => []

def payloadSize : Frame → Nat
  | text s => s.utf8ByteSize
  | binary b | ping b | pong b => b.length
  | close none => 0
  | close (some r) => 2 + r.reason.utf8ByteSize

/-- The number of bytes of an unmasked frame on the wire: two bytes of header, two or eight more
for a longer payload. -/
def wireSize (f : Frame) : Nat :=
  let n := f.payloadSize
  if n < 126 then n + 2 else if n < 65536 then n + 4 else n + 10

end Frame

end Fanout
