import Fanout.Attempt
import Fanout.Bearer
import Fanout.Live.Inbound
import Fanout.Live.Sink

/-!
A connection: its queue, the writer that empties the queue into the sink, and the reader that
watches what the client sends.

The writer looks at the close signal between two frames only. A frame has a deadline, so have the
farewell and the closing of the sink; a frame that fails or is late ends the writer without a
farewell, and then the writer removes the connection itself. Every action of the writer brings it
closer to its end or empties the queue, which `Connection.effort` measures.
-/

namespace Fanout.Live

/-- How far a connection is closed. -/
inductive Stage where
  | active
  | closing
  | closed
deriving DecidableEq, Repr

def Stage.name : Stage → String
  | active => "open"
  | closing => "closing"
  | closed => "closed"

/-- Why a writer leaves its loop: it was asked to, or a write failed. -/
inductive Ending where
  | asked
  | failed
deriving DecidableEq, Repr

/-- What a writer is doing. Of a frame it is known whether the sink has taken it. -/
inductive Writer where
  | idle
  | sending (f : Frame) (taken : Bool) (deadline : Nat)
  | farewell (taken : Bool) (deadline : Nat)
  | closing (ending : Ending) (deadline : Nat)
  | finished (ending : Ending)
deriving DecidableEq, Repr

namespace Writer

/-- When the writer will not wait any longer. -/
def deadline? : Writer → Option Nat
  | sending _ _ d | farewell _ d | closing _ d => some d
  | _ => none

/-- How many actions are ahead of the writer, the queue apart. -/
def rank : Writer → Nat
  | sending _ false _ => 6
  | sending _ true _ => 5
  | idle => 4
  | farewell false _ => 3
  | farewell true _ => 2
  | closing _ _ => 1
  | finished _ => 0

def isFinished : Writer → Bool
  | finished _ => true
  | _ => false

end Writer

/-- The reader of a connection: the items not looked at, the attempt it belongs to, and why it has
ended if it has. -/
structure Watch where
  inbound : List Inbound := []
  attempt : Attempt
  ended : Option ReadEnd := none
deriving DecidableEq, Repr

/-- A connection is `registered` as long as events are handed to it, and `signalled` from the moment
it is told to close. -/
structure Connection where
  bearer : Bearer
  stage : Stage := .active
  registered : Bool := true
  signalled : Bool := false
  queue : List Frame := []
  writer : Writer := .idle
  sink : Sink
  watch : Option Watch := none
deriving DecidableEq, Repr

/-- Who holds on to the sending side of a queue. -/
inductive Keeper where
  | registry
  | writer
  | reader
deriving DecidableEq, Repr

/-- What a queue gives to a writer that asks for a frame: one, the news that none can come any more,
or nothing yet. -/
inductive Receipt where
  | frame (f : Frame) (rest : List Frame)
  | dropped
  | pending
deriving DecidableEq, Repr

/-- Why a frame is not accepted. -/
inductive DeliveryFault where
  | closed
  | full
deriving DecidableEq, Repr

def DeliveryFault.message : DeliveryFault → String
  | closed => "connection is closed"
  | full => "outbound buffer is full"

namespace Connection

/-! ### Being removed -/

/-- The connection told to close. -/
def signalClose (c : Connection) : Connection :=
  { c with stage := if c.stage = .active then .closing else c.stage, signalled := true }

/-- The connection taken off the registry; one that is not there stays as it is. -/
def remove (c : Connection) : Connection :=
  if c.registered then { c.signalClose with registered := false } else c

/-! ### Receiving frames -/

/-- The frame put into the queue, which holds `capacity` frames. -/
def deliver (capacity : Nat) (f : Frame) (c : Connection) : Except DeliveryFault Connection :=
  if c.stage ≠ .active then .error .closed
  else if capacity ≤ c.queue.length then .error .full
  else .ok { c with queue := c.queue ++ [f] }

/-- Whether the queue would take a frame. -/
def accepts (capacity : Nat) (c : Connection) : Bool :=
  c.stage == .active && c.queue.length < capacity

theorem accepts_iff (capacity : Nat) (f : Frame) (c : Connection) :
    c.accepts capacity ↔ c.deliver capacity f = .ok { c with queue := c.queue ++ [f] } := by
  unfold accepts deliver
  by_cases hs : c.stage = .active <;> by_cases hq : capacity ≤ c.queue.length <;>
    simp_all

/-- The frame put into the queue, or the connection removed. -/
def receive (capacity : Nat) (f : Frame) (c : Connection) : Connection :=
  match c.deliver capacity f with
  | .ok c => c
  | .error _ => c.remove

/-- Whether an event under a tag is meant for the connection. -/
def isTarget (t : Tenant) (c : Connection) : Bool := c.registered && t.reaches c.bearer.tenant

/-! ### Writing -/

/-- The writer holds the connection for as long as it runs, and so does the reader. -/
def keepers (c : Connection) : List Keeper :=
  (if c.registered then [.registry] else []) ++
    (if c.writer.isFinished then [] else [.writer]) ++
    (if c.watch.any (·.ended.isNone) then [.reader] else [])

/-- A queue that nobody holds on to is dropped when it is empty. -/
def receipt (c : Connection) : Receipt :=
  match c.queue with
  | f :: rest => .frame f rest
  | [] => if c.keepers = [] then .dropped else .pending

/-- The writer left its loop: the sink begins to close. -/
def startClosing (ending : Ending) (deadline : Nat) (c : Connection) : Connection :=
  { c with sink := c.sink.beginClose, writer := .closing ending deadline }

/-- The writer's end. A writer that ended on a failure removes the connection. -/
def finish (ending : Ending) (c : Connection) : Connection :=
  let c := { c with stage := .closed, writer := .finished ending }
  match ending with
  | .asked => c
  | .failed => c.remove

/-- The next action of the writer at a given time; `none` if it has to wait. Between two frames it
looks at the signal first, then at its queue, and takes a queue that is dropped for the signal. -/
def step? (timeout now : Nat) (c : Connection) : Option Connection :=
  match c.writer with
  | .idle =>
    if c.signalled then some { c with writer := .farewell false (now + timeout) }
    else match c.receipt with
      | .frame f rest => some { c with queue := rest, writer := .sending f false (now + timeout) }
      | .dropped => some { c with writer := .farewell false (now + timeout) }
      | .pending => none
  | .sending f false deadline =>
    match c.sink.ready.until deadline now with
    | .pending => none
    | .ready => some { c with sink := c.sink.take f, writer := .sending f true deadline }
    | .failed => some (c.startClosing .failed (now + timeout))
  | .sending _ true deadline =>
    match c.sink.flush.until deadline now with
    | .pending => none
    | .ready => some { c with writer := .idle }
    | .failed => some (c.startClosing .failed (now + timeout))
  | .farewell false deadline =>
    match c.sink.ready.until deadline now with
    | .pending => none
    | .ready =>
      some { c with sink := c.sink.take (.close none), writer := .farewell true deadline }
    | .failed => some (c.startClosing .asked (now + timeout))
  | .farewell true deadline =>
    match c.sink.flush.until deadline now with
    | .pending => none
    | .ready | .failed => some (c.startClosing .asked (now + timeout))
  | .closing ending deadline =>
    match c.sink.close with
    | .ready | .failed => some ({ c with sink := c.sink.endClose }.finish ending)
    | .pending => if deadline ≤ now then some (c.finish ending) else none
  | .finished _ => none

theorem keepers_ne_nil {c : Connection} (running : c.writer.isFinished = false) :
    c.keepers ≠ [] := by
  simp [keepers, running]

/-- A writer that runs never finds its queue dropped. -/
theorem receipt_ne_dropped {c : Connection} (running : c.writer.isFinished = false) :
    c.receipt ≠ .dropped := by
  unfold receipt
  split
  · simp
  · simp [keepers_ne_nil running]

/-- Between two frames the signal and the queue decide. -/
theorem step?_idle {c : Connection} (hw : c.writer = .idle) (timeout now : Nat) :
    c.step? timeout now =
      if c.signalled then some { c with writer := .farewell false (now + timeout) }
      else c.queue.head?.map fun f =>
        { c with queue := c.queue.tail, writer := .sending f false (now + timeout) } := by
  have held : c.keepers ≠ [] := keepers_ne_nil (by rw [hw]; rfl)
  simp only [step?, receipt, hw, held, if_false]
  cases c.queue <;> rfl

/-- A bound on the actions ahead of the writer. -/
def effort (c : Connection) : Nat := 3 * c.queue.length + c.writer.rank

@[simp] theorem queue_remove (c : Connection) : c.remove.queue = c.queue := by
  unfold remove; split <;> rfl

@[simp] theorem writer_remove (c : Connection) : c.remove.writer = c.writer := by
  unfold remove; split <;> rfl

theorem effort_finish (ending : Ending) (c : Connection) :
    (c.finish ending).effort = 3 * c.queue.length := by
  cases ending <;> simp [finish, effort, Writer.rank]

theorem effort_startClosing (ending : Ending) (d : Nat) (c : Connection) :
    (c.startClosing ending d).effort = 3 * c.queue.length + 1 := by
  simp [startClosing, effort, Writer.rank]

/-- Every action of the writer lowers the bound. -/
theorem effort_lt_of_step?_eq_some {timeout now : Nat} {c c' : Connection}
    (h : c.step? timeout now = some c') : c'.effort < c.effort := by
  have hc : c.effort = 3 * c.queue.length + c.writer.rank := rfl
  rw [hc]
  rcases hw : c.writer with _ | ⟨f, _ | _, d⟩ | ⟨_ | _, d⟩ | ⟨x, d⟩ | x
  · rw [step?_idle hw] at h
    split at h
    · cases h; simp [effort, Writer.rank]
    · obtain ⟨f, hf, rfl⟩ := Option.map_eq_some_iff.mp h
      obtain ⟨rest, hq⟩ := List.head?_eq_some_iff.mp hf
      simp [effort, Writer.rank, hq]
      omega
  all_goals simp only [step?, hw] at h
  · split at h <;> cases h
    · simp [effort, Writer.rank]
    · rw [effort_startClosing]; simp [Writer.rank]
  · split at h <;> cases h
    · simp [effort, Writer.rank]
    · rw [effort_startClosing]; simp [Writer.rank]
  · split at h <;> cases h
    · simp [effort, Writer.rank]
    · rw [effort_startClosing]; simp [Writer.rank]
  · split at h <;> cases h <;> rw [effort_startClosing] <;> simp [Writer.rank]
  · split at h
    · cases h; rw [effort_finish]; simp [Writer.rank]
    · cases h; rw [effort_finish]; simp [Writer.rank]
    · split at h <;> cases h
      rw [effort_finish]; simp [Writer.rank]
  · cases h

/-- The connection after all actions of the writer up to its next wait. -/
def drive (timeout now : Nat) (c : Connection) : Connection := go c.effort c
where
  /-- At most so many actions. -/
  go : Nat → Connection → Connection
    | 0, c => c
    | n + 1, c =>
      match c.step? timeout now with
      | none => c
      | some c => go n c

theorem step?_go_eq_none {timeout now : Nat} (n : Nat) (c : Connection) (h : c.effort ≤ n) :
    (drive.go timeout now n c).step? timeout now = none := by
  induction n generalizing c with
  | zero =>
    match hs : c.step? timeout now with
    | none => rfl
    | some c' => have := effort_lt_of_step?_eq_some hs; omega
  | succ n ih =>
    match hs : c.step? timeout now with
    | none => simp [drive.go, hs]
    | some c' =>
      have := effort_lt_of_step?_eq_some hs
      simpa [drive.go, hs] using ih c' (by omega)

/-- The bound is large enough: afterwards the writer has to wait. -/
theorem step?_drive_eq_none (timeout now : Nat) (c : Connection) :
    (c.drive timeout now).step? timeout now = none :=
  step?_go_eq_none c.effort c (Nat.le_refl _)

/-! ### Reading -/

/-- The reader looked at an item: a ping and a close are answered below the connection. -/
def answer (item : Inbound) (c : Connection) : Connection :=
  match item with
  | .ping b => { c with sink := c.sink.mapLink (Link.answerPing b) }
  | .close reason => { c with sink := c.sink.mapLink (Link.peerClose (.close (closeReply reason))) }
  | _ => c

/-- The reader's end: it removes the connection. -/
def stopReading (w : Watch) (reason : ReadEnd) (c : Connection) : Connection :=
  let w := { w with ended := some reason, attempt := w.attempt.moveThrough [.closing, .closed] }
  remove { c with watch := some w }

/-- Whether reading fails because an answer to the client cannot be written. -/
def cannotAnswer (c : Connection) : Bool := c.sink.link?.any Link.isBroken

/-- The reader's work on items: it ends at the first one that ends reading, or when an answer cannot
be written. -/
def readItems (w : Watch) : List Inbound → Connection → Connection
  | [], c => { c with watch := some { w with inbound := [] } }
  | item :: rest, c =>
    if c.cannotAnswer then c.stopReading { w with inbound := item :: rest } .readError
    else
      match item.readEnd? with
      | some reason => (c.answer item).stopReading { w with inbound := rest } reason
      | none => readItems w rest (c.answer item)

/-- The connection after the reader's work up to its next wait. A signal to close is looked at
first. -/
def read (c : Connection) : Connection :=
  match c.watch with
  | none => c
  | some w =>
    if w.ended.isSome then c
    else if c.signalled then c.stopReading w .dropped
    else readItems w w.inbound c

def readEnd? (c : Connection) : Option ReadEnd := c.watch.bind Watch.ended

/-- Whether nothing is left on this side: neither the writer nor the reader. -/
def isGone (c : Connection) : Bool := c.writer.isFinished && c.readEnd?.isSome

end Connection

end Fanout.Live
