import Fanout.Admission
import Fanout.Http.Request
import Fanout.Http.Upgrade

/-!
The routes of the service and the answer to each request. Any site may call: the answers say so,
and a request for the options of a route is answered at once.
-/

namespace Fanout.Http

/-- What the service tells of itself. -/
structure Health where
  connections : Nat
  tenants : Nat
  bridge : String
deriving DecidableEq, Repr

/-- What answers depend on: the secret of the tokens, the present time and the health. -/
structure Context where
  secret : String
  now : Int
  health : Health

inductive Route where
  | health
  | realtime
  | socket
deriving DecidableEq, Repr

namespace Route

def path : Route → String
  | health => "/health"
  | realtime => "/health/realtime"
  | socket => "/ws"

/-- The route of a path, which must be the same byte for byte. -/
def ofPath? (path : Octets) : Option Route :=
  [health, realtime, socket].find? fun r => Octets.ofText r.path == path

def methods : String := "GET,HEAD"

end Route

def version : String := "1.0.0"

/-- The bearer of the credential that a request shows. -/
def Request.bearer (r : Request) (secret : String) (now : Int) : Except AdmissionError Bearer :=
  Bearer.ofCredential secret now
    (Credential.find? (Credential.ofQuery? r.target.query) r.headers)

/-- The answer to a request that opens a socket: first the credential is looked at, then the
handshake. An accepted request switches the protocol. -/
def Request.openSocket (r : Request) (c : Context) (transport : Bool) :
    Except Response Bearer :=
  match r.bearer c.secret c.now with
  | .error e => .error e.refusal.response
  | .ok who =>
    match upgradeFault? r.method r.headers transport with
    | some fault => .error (Refusal.badRequest fault.message).response
    | none => .ok who

/-- The bearer that a request opens a socket for. It comes over no connection that could become
one. -/
def Request.opened? (r : Request) (c : Context) : Option Bearer :=
  match Route.ofPath? r.target.path with
  | some .socket =>
    if r.method = "GET" ∨ r.method = "HEAD" then (r.openSocket c false).toOption else none
  | _ => none

/-- The response of a route to a request by a method it serves. -/
def Route.answer (route : Route) (c : Context) (r : Request) : Response :=
  match route with
  | health => .json 200 [("status", .string "healthy"), ("version", .string version)]
  | realtime => .json 200
      [("active_connections", .int c.health.connections), ("active_tenants", .int c.health.tenants),
        ("bridge", .string c.health.bridge)]
  | socket =>
    match r.openSocket c false with
    | .error response => response
    | .ok _ => .empty 101

def Request.routed (r : Request) (c : Context) : Response :=
  match Route.ofPath? r.target.path with
  | none => .empty 404
  | some route =>
    if r.method = "GET" then route.answer c r
    else if r.method = "HEAD" then (route.answer c r).withoutBody
    else (Response.empty 405).withHeader "allow" Route.methods

/-- The response to a question for the options of a path. -/
def Request.options (r : Request) : Response :=
  let granted := (((Response.empty 200).withHeader "access-control-allow-origin" "*").withHeader
    "access-control-allow-methods" "*").withHeader "access-control-allow-headers" "*"
  if (Route.ofPath? r.target.path).isSome then granted.withHeader "allow" Route.methods else granted

def Request.respond (r : Request) (c : Context) : Response :=
  if r.method = "OPTIONS" then r.options
  else
    ((r.routed c).withHeader "access-control-allow-origin" "*").withHeader
      "access-control-expose-headers" "*"

end Fanout.Http
