import Fanout.Live.Service

/-!
From the broker to the connections: each event body is handed to the connections of its tenant, or,
if it is untagged, to all or to nobody as the policy of its bridge says.
-/

namespace Fanout.Live.Service

def untaggedMessage : UntaggedPolicy → String
  | .broadcast => "Event has no usable tenant_id; broadcasting to all tenants"
  | .drop => "Event has no usable tenant_id; dropped"

/-- No report is made of a body that is dropped. That a body is untagged is logged in any case. -/
def dispatch (s : Service) (b : Bridge) (body : Octets) : Option Report × Service :=
  match Event.Scope.ofOctets body with
  | .tenant t =>
    let (report, s) := s.broadcast body t
    (some report, s)
  | .untagged reason =>
    let s := s.record { message := untaggedMessage b.policy, reason := reason.name }
    match b.policy with
    | .drop => (none, s)
    | .broadcast =>
      let (report, s) := s.broadcast body Tenant.empty
      (some report, s)

/-- Deliveries taken one after another, up to the first failure. -/
def dispatchAll (s : Service) (b : Bridge) :
    List Delivery → Service × List BrokerCall × Option BrokerFault
  | [] => (s, [], none)
  | .failure e :: _ => (s, [.error], some e)
  | .body x :: rest =>
    let (s, calls, fault) := (s.dispatch b x).2.dispatchAll b rest
    (s, .delivery :: calls, fault)

/-- A bridge run to the end of a script, without any other task running. -/
def playBridge (s : Service) (b : Bridge) (broker : Broker) :
    Except BrokerFault Unit × List (BrokerCall × BridgeStatus) × Service :=
  let (made, fault) := broker.perform (b.setup broker)
  let calls := made.map fun c => (c, BridgeStatus.starting)
  match fault with
  | some e => (.error e, calls, { s with status := .stopped })
  | none =>
    let (s, taken, fault) := { s with status := .running }.dispatchAll b broker.deliveries
    let s := { s with status := .stopped }
    let taken := taken.map fun c => (c, BridgeStatus.running)
    match fault with
    | some e => (.error e, calls ++ taken, s)
    | none => (.ok (), calls ++ taken ++ [(.finish, .running)], s)

/-- The exchange declared, so that events can be published to it before any bridge runs. Only a
channel that does not open is an error; that the exchange cannot be declared is not. -/
def declareExchange (s : Service) (broker : Broker) (exchange : String) :
    Except BrokerFault Unit × List (BrokerCall × BridgeStatus) :=
  let (made, fault) := broker.perform [.openChannel, .declareExchange exchange, .closeChannel]
  let calls := made.map fun c => (c, s.status)
  match fault with
  | none => (.ok (), calls)
  | some e => (if made.length = 1 then .error e else .ok (), calls)

/-! ### Bridges as tasks -/

/-- A bridge made ready to run as a task, by its number. -/
def addBridge (s : Service) (b : Bridge) (broker : Broker) : Nat × Service :=
  let run : BridgeRun := { bridge := b, broker := broker, pending := broker.deliveries }
  (s.bridges.length, { s with bridges := s.bridges ++ [run] }.wake [.bridge s.bridges.length])

/-- All that the stream holds is taken. A failure ends the bridge, and so does the end of the
stream. -/
def runStream (s : Service) (i : Nat) (r : BridgeRun) : Service :=
  let (s, taken, fault) := s.dispatchAll r.bridge r.pending
  let calls := r.calls ++ taken.map fun c => (c, s.status)
  match fault with
  | some _ =>
    let r := { r with pending := [], calls := calls, finished := true, streamDropped := true }
    { s with bridges := s.bridges.set i r, status := .stopped }
  | none =>
    if r.feedEnded then
      let r :=
        { r with
          pending := [], calls := calls ++ [(.finish, s.status)], finished := true,
          streamDropped := true }
      { s with bridges := s.bridges.set i r, status := .stopped }
    else { s with bridges := s.bridges.set i { r with pending := [], calls := calls } }

/-- The first turn of a bridge, which sets itself up. If that fails it leaves its stream alone. -/
def startStream (s : Service) (i : Nat) (r : BridgeRun) : Service :=
  let (made, fault) := r.broker.perform (r.bridge.setup r.broker)
  let r :=
    { r with started := true, calls := r.calls ++ made.map fun c => (c, BridgeStatus.starting) }
  match fault with
  | some _ =>
    { s with bridges := s.bridges.set i { r with finished := true }, status := .stopped }
  | none => { s with status := .running }.runStream i r

/-- More for the stream of a bridge, and whether the item, if there is one, found the stream. -/
def feed (s : Service) (i : Nat) (item : Option Delivery) (last : Bool) : Bool × Service :=
  match s.bridges[i]? with
  | none => (false, s)
  | some r =>
    let takes := ! r.feedEnded && ! r.streamDropped
    let pending := if takes then r.pending ++ item.toList else r.pending
    let r := { r with pending := pending, feedEnded := r.feedEnded || last }
    (takes && item.isSome, { s with bridges := s.bridges.set i r }.wake [.bridge i])

end Fanout.Live.Service
