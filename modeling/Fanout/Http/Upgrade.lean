import Fanout.Http.Head

/-!
The opening handshake of a WebSocket, checked field by field. The first fault is the one told.
-/

namespace Fanout.Http

inductive UpgradeFault where
  | method
  | connection
  | upgrade
  | version
  | key
  | noTransport
deriving DecidableEq, Repr

namespace UpgradeFault

def message : UpgradeFault → String
  | method => "Request method must be \x60GET\x60"
  | connection => "Connection header did not include 'upgrade'"
  | upgrade => "\x60Upgrade\x60 header did not include 'websocket'"
  | version => "\x60Sec-WebSocket-Version\x60 header did not include '13'"
  | key => "\x60Sec-WebSocket-Key\x60 header missing"
  | noTransport => "WebSocket request couldn't be upgraded since no upgrade state was present"

end UpgradeFault

/-- Whether a field, read as text without regard to the case of ASCII letters, has a given part. -/
def Headers.mentions (h : Headers) (name part : String) : Bool :=
  match h.get? name with
  | none => false
  | some v =>
    (Octets.text? v).isSome && (Octets.ofText part).occursIn (v.map Octets.lowerAscii)

/-- Whether a field has a given value, the case of ASCII letters apart. -/
def Headers.equals (h : Headers) (name value : String) : Bool :=
  match h.get? name with
  | none => false
  | some v => v.eqIgnoringCase (Octets.ofText value)

/-- The first fault of a handshake. A request that came over no connection has one at the end. -/
def upgradeFault? (method : String) (h : Headers) (transport : Bool) : Option UpgradeFault :=
  if method ≠ "GET" then some .method
  else if ! h.mentions "connection" "upgrade" then some .connection
  else if ! h.equals "upgrade" "websocket" then some .upgrade
  else if ! h.equals "sec-websocket-version" "13" then some .version
  else if (h.get? "sec-websocket-key").isNone then some .key
  else if ! transport then some .noTransport
  else none

/-- The fields by which a client asks for a socket. -/
def handshake : Headers :=
  [⟨Octets.ofText "host", Octets.ofText "localhost"⟩,
    ⟨Octets.ofText "connection", Octets.ofText "Upgrade"⟩,
    ⟨Octets.ofText "upgrade", Octets.ofText "websocket"⟩,
    ⟨Octets.ofText "sec-websocket-version", Octets.ofText "13"⟩,
    ⟨Octets.ofText "sec-websocket-key", Octets.ofText "dGhlIHNhbXBsZSBub25jZQ=="⟩]

/-- The head by which a client asks for a socket, with fields of its own after those of the
handshake. -/
def Head.opening (target : Octets) (fields : List Field) : Head :=
  ⟨Octets.ofText "GET", target, .http11, handshake ++ fields⟩

end Fanout.Http
