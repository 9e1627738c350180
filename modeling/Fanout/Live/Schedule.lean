import Fanout.Live.Dispatch

/-!
Running the tasks. Each connection has a writer and, if a client stands behind it, a reader; each
bridge is one task. A task runs until it has to wait, and ready tasks run in the order in which they
became ready. The clock moves only when it is told to, and stops at every deadline on the way.
-/

namespace Fanout.Live.Service

/-- A writer's turn. If it removes its connection, the reader learns of it. -/
def runWriter (s : Service) (i : Nat) : Service :=
  match s.connections[i]? with
  | none => s
  | some c =>
    let c' := c.drive s.tuning.writeTimeout s.now
    let s := { s with connections := s.connections.set i c' }
    if c'.signalled && ! c.signalled then s.wake [.reader i] else s

def closingMessage : String := "WebSocket connection closing"

/-- A reader's turn. If it ends, that is logged and the writer learns of it. -/
def runReader (s : Service) (i : Nat) : Service :=
  match s.connections[i]? with
  | none => s
  | some c =>
    let c' := c.read
    let s := { s with connections := s.connections.set i c' }
    match c.readEnd?, c'.readEnd? with
    | none, some reason =>
      (s.record
        { message := closingMessage, reason := reason.name, user := some c.bearer.user }).wake
          [.writer i]
    | _, _ => s

def runBridge (s : Service) (i : Nat) : Service :=
  match s.bridges[i]? with
  | none => s
  | some r =>
    if r.finished then s else if r.started then s.runStream i r else s.startStream i r

/-- A task's turn. -/
def run (s : Service) : Task → Service
  | .writer i => s.runWriter i
  | .reader i => s.runReader i
  | .bridge i => s.runBridge i

/-- So many turns, or fewer if no task is ready. -/
def turns : Nat → Service → Service
  | 0, s => s
  | n + 1, s =>
    match s.ready with
    | [] => s
    | t :: rest => turns n ({ s with ready := rest }.run t)

/-- A bound on the turns until no task is ready. A connection signals once, and a bridge's turn
wakes every writer and reader at most once. -/
def workload (s : Service) : Nat := (s.ready.length + 1) * (2 * s.connections.length + 1)

/-- The service after all tasks have run until they wait. -/
def settle (s : Service) : Service := turns s.workload s

/-! ### The clock -/

/-- The writers whose deadline has come, by number. -/
def due (s : Service) : List Task :=
  (s.numbers fun c => c.writer.deadline?.any (· ≤ s.now)).map Task.writer

/-- The next deadline up to a given time. -/
def nextDeadline? (s : Service) (limit : Nat) : Option Nat :=
  ((s.connections.filterMap fun c => c.writer.deadline?).filter (· ≤ limit)).min?

/-- The clock moved to a deadline, and those who waited for it run. -/
def fire (s : Service) (deadline : Nat) : Service :=
  let s := { s with now := max s.now deadline }
  (s.wake s.due).settle

/-- So many deadlines up to a given time, one after another. -/
def fireUntil (limit : Nat) : Nat → Service → Service
  | 0, s => s
  | n + 1, s =>
    match s.nextDeadline? limit with
    | none => s
    | some d => fireUntil limit n (s.fire d)

/-- The clock moved on. After a missed deadline a writer has at most two more, so the number of
deadlines on the way is bounded. -/
def advance (s : Service) (ms : Nat) : Service :=
  let s := s.settle
  let limit := s.now + ms
  { fireUntil limit (3 * s.connections.length) s with now := limit }

end Fanout.Live.Service
