import Fanout.Event.Scope
import Fanout.Live.Bridge
import Fanout.Live.Connection

/-!
The service: all connections, the bridges to the broker, the clock, the tasks that are ready to run
and the log. Here connections come, go and are handed events.
-/

namespace Fanout.Live

/-- How frames are delivered: the deadline of a write in milliseconds, and how many frames a
connection may have queued. -/
structure Tuning where
  writeTimeout : Nat := 10000
  outboundBuffer : Nat := 256
deriving DecidableEq, Repr

namespace Tuning

def ofSettings (s : Settings) : Tuning := ⟨s.writeTimeout, s.outboundBuffer⟩

/-- A queue holds at least one frame. -/
def capacity (t : Tuning) : Nat := max 1 t.outboundBuffer

/-- The largest capacity that a queue can have. -/
def greatestCapacity : Nat := 0x1FFFFFFFFFFFFFFF

end Tuning

/-- What can be scheduled, by number. -/
inductive Task where
  | writer (connection : Nat)
  | reader (connection : Nat)
  | bridge (run : Nat)
deriving DecidableEq, Repr

/-- A log record that states a reason. -/
structure LogRecord where
  message : String
  reason : String
  user : Option String := none
deriving DecidableEq, Repr

/-- The outcome of one broadcast. -/
structure Report where
  targeted : Nat
  queued : Nat
  evicted : Nat
deriving DecidableEq, Repr

/-- Connections are numbered in the order of registration and keep their numbers; `registered` tells
which ones events are handed to. The status is shared by all bridges. -/
structure Service where
  tuning : Tuning
  now : Nat := 0
  status : BridgeStatus := .disabled
  connections : List Connection := []
  bridges : List BridgeRun := []
  ready : List Task := []
  log : List LogRecord := []
deriving DecidableEq, Repr

namespace Service

/-- The connections that events are handed to. -/
def registry (s : Service) : List Connection := s.connections.filter (·.registered)

def size (s : Service) : Nat := s.registry.length

/-- How many different tags the registered connections have. -/
def tenants (s : Service) : Nat := (s.registry.map (·.bearer.tenant)).eraseDups.length

/-- The tasks made ready, those that are not so already. -/
def wake (s : Service) (tasks : List Task) : Service :=
  { s with ready := tasks.foldl (fun ready t => if t ∈ ready then ready else ready ++ [t]) s.ready }

def record (s : Service) (r : LogRecord) : Service := { s with log := s.log ++ [r] }

def modify (s : Service) (i : Nat) (f : Connection → Connection) : Service :=
  { s with connections := s.connections.modify i f }

/-! ### Registering and removing -/

/-- A new connection and its number; `none` if no queue can be as large as the tuning asks for. -/
def register? (s : Service) (who : Bearer) (sink : Sink) (watch : Option Watch) :
    Option (Nat × Service) :=
  if Tuning.greatestCapacity < s.tuning.capacity then none
  else
    let i := s.connections.length
    let c : Connection := { bearer := who, sink := sink, watch := watch }
    let s := { s with connections := s.connections ++ [c] }
    let tasks := if watch.isSome then [.writer i, .reader i] else [.writer i]
    some (i, s.wake tasks)

/-- A connection removed, and whether it was there. Its writer and its reader learn of it. -/
def remove (s : Service) (i : Nat) : Bool × Service :=
  match s.connections[i]? with
  | some c =>
    if c.registered then (true, (s.modify i Connection.remove).wake [.writer i, .reader i])
    else (false, s)
  | none => (false, s)

/-! ### Delivering -/

/-- A frame put into the queue of one connection. One that cannot take it stays where it is. -/
def deliver (s : Service) (i : Nat) (f : Frame) : Except DeliveryFault Unit × Service :=
  match s.connections[i]? with
  | none => (.error .closed, s)
  | some c =>
    match c.deliver s.tuning.capacity f with
    | .error e => (.error e, s)
    | .ok c => (.ok (), { s with connections := s.connections.set i c }.wake [.writer i])

/-- The numbers of the connections with a property, in order. -/
def numbers (s : Service) (p : Connection → Bool) : List Nat :=
  (s.connections.zipIdx.filter fun (c, _) => p c).map Prod.snd

/-- An event body handed to every connection that it is meant for. A connection that cannot take it
is removed, the others get it all the same. -/
def broadcast (s : Service) (body : Octets) (tag : Tenant) : Report × Service :=
  let capacity := s.tuning.capacity
  let frame := Frame.ofBody body
  let targets := s.numbers (·.isTarget tag)
  let evicted := s.numbers fun c => c.isTarget tag && ! c.accepts capacity
  let change := fun c : Connection => if c.isTarget tag then c.receive capacity frame else c
  (⟨targets.length, targets.length - evicted.length, evicted.length⟩,
    { s with connections := s.connections.map change }.wake
      (targets.map Task.writer ++ evicted.map Task.reader))

end Service

end Fanout.Live
