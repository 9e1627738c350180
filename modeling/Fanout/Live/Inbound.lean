import Fanout.Frame

/-!
What a client sends. Of all of it only a close, an error and the end of the stream matter; a ping
is answered below the connection.
-/

namespace Fanout.Live

inductive Inbound where
  | text (s : String)
  | binary (b : Octets)
  | ping (b : Octets)
  | pong (b : Octets)
  | close (reason : Option CloseReason)
  | error
  | finish
deriving DecidableEq, Repr

/-- Why reading has ended. -/
inductive ReadEnd where
  | dropped
  | streamEnded
  | readError
  | closeFrame
deriving DecidableEq, Repr

/-- The reason as it is logged. -/
def ReadEnd.name : ReadEnd → String
  | dropped => "dropped by server"
  | streamEnded => "stream ended"
  | readError => "read error"
  | closeFrame => "close frame received"

namespace Inbound

/-- The greatest payload of a control frame. -/
def greatestControl : Nat := 125

/-- Text must be UTF-8. -/
def ofText (b : Octets) : Inbound :=
  match Octets.text? b with
  | some s => .text s
  | none => .error

def ofPing (b : Octets) : Inbound := if greatestControl < b.length then .error else .ping b

def ofPong (b : Octets) : Inbound := if greatestControl < b.length then .error else .pong b

/-- With a code a closing frame may tell a reason, which must be short and UTF-8. -/
def ofClose (code : Option Nat) (b : Octets) : Inbound :=
  match code with
  | none => .close none
  | some c =>
    if greatestControl < b.length + 2 then .error
    else match Octets.text? b with
      | some s => .close (some ⟨c, s⟩)
      | none => .error

/-- The size of the payload that the second byte of a frame announces, and what follows it. Two
values stand for a size of two and of eight bytes. -/
def announced? (b : UInt8) (rest : Octets) : Option (Nat × Octets) :=
  let wide := fun n : Nat =>
    if rest.length < n then none
    else some ((rest.take n).foldl (fun size x => 256 * size + x.toNat) 0, rest.drop n)
  if b = 126 then wide 2 else if b = 127 then wide 8 else some (b.toNat, rest)

/-- The greatest payload of a frame. -/
def greatestFrame : Nat := 0x1000000

def isKnownKind (b : UInt8) : Bool := [0, 1, 2, 8, 9, 10].contains (b &&& 0x0F)

/-- What bytes sent ahead of the upgrade are taken for. They are a frame without a mask, which is an
error as soon as it is complete; an unknown kind and a payload too great are errors at once. -/
def ofStray? : Octets → Option Inbound
  | kind :: size :: rest =>
    match announced? size rest with
    | none => none
    | some (n, rest) =>
      if ! isKnownKind kind || greatestFrame < n || n ≤ rest.length then some .error else none
  | _ => none

/-- How an item ends reading, if it does. -/
def readEnd? : Inbound → Option ReadEnd
  | .close _ => some .closeFrame
  | .error => some .readError
  | .finish => some .streamEnded
  | _ => none

end Inbound

/-- Codes that a closing frame may carry. -/
def CloseReason.isAllowed (r : CloseReason) : Bool :=
  (1000 ≤ r.code && r.code ≤ 1003) || (1007 ≤ r.code && r.code ≤ 1013) ||
    (3000 ≤ r.code && r.code ≤ 4999)

/-- The closing frame that answers one: the same, or a complaint about its code. -/
def closeReply : Option CloseReason → Option CloseReason
  | none => none
  | some r => if CloseReason.isAllowed r then some r else some ⟨1002, "Protocol violation"⟩

end Fanout.Live
