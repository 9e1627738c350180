import Fanout.Live.Client

/-!
What can befall a connection at one go, and what is noticed of it. All that the service does to a
connection is one such act after another, so a law that every act keeps is a law of the service.
-/

namespace Fanout.Live

/-! ### Sinks -/

namespace Probe

/-- The sink that behaves as another one from now on. What it took, and whether it is closed,
stays. -/
def like (p q : Probe) : Probe := { q with taken := p.taken, closed := p.closed }

end Probe

namespace Sink

/-- The sink before anything was done with it. -/
def fresh : Sink → Sink
  | probe p => probe (({} : Probe).like p)
  | link _ => link {}

def probe? : Sink → Option Probe
  | probe p => some p
  | link _ => none

/-- The frames taken so far, by a sink that keeps them. -/
def taken? (s : Sink) : Option (List Frame) := s.probe?.map Probe.taken

@[simp] theorem taken?_mapLink (g : Link → Link) (s : Sink) : (s.mapLink g).taken? = s.taken? := by
  cases s <;> rfl

@[simp] theorem taken?_like (q : Probe) (s : Sink) :
    (s.mapProbe fun p => p.like q).taken? = s.taken? := by
  cases s <;> rfl

@[simp] theorem taken?_beginClose (s : Sink) : s.beginClose.taken? = s.taken? := by
  cases s <;> rfl

@[simp] theorem taken?_endClose (s : Sink) : s.endClose.taken? = s.taken? := by
  cases s <;> rfl

@[simp] theorem close_endClose (s : Sink) : s.endClose.close = s.close := by
  cases s <;> rfl

theorem taken?_take (f : Frame) (s : Sink) : (s.take f).taken? = s.taken?.map (· ++ [f]) := by
  cases s <;> rfl

theorem taken?_fresh (s : Sink) : s.fresh.taken? = s.probe?.map fun _ => [] := by
  cases s <;> rfl

end Sink

/-! ### What is noticed -/

/-- What is noticed of a connection. A frame is accepted into its queue, taken by its sink, and sent
when it is through; the writer's own closing frame is none of these. A body is heard when it is
handed to a bridge while the connection is registered. -/
inductive Incident where
  | heard (b : Bridge) (body : Octets)
  | accepted (f : Frame)
  | took (f : Frame)
  | sent (f : Frame)
  | farewell
deriving DecidableEq, Repr

namespace Incident

@[simp] def accepted? : Incident → Option Frame
  | accepted f => some f
  | _ => none

@[simp] def taken? : Incident → Option Frame
  | took f => some f
  | _ => none

@[simp] def sent? : Incident → Option Frame
  | sent f => some f
  | _ => none

/-- The frame that went into the sink, be it the writer's closing frame. -/
@[simp] def put? : Incident → Option Frame
  | took f => some f
  | farewell => some (.close none)
  | _ => none

end Incident

abbrev History := List Incident

namespace History

def accepted (h : History) : List Frame := h.filterMap Incident.accepted?

def taken (h : History) : List Frame := h.filterMap Incident.taken?

def sent (h : History) : List Frame := h.filterMap Incident.sent?

def put (h : History) : List Frame := h.filterMap Incident.put?

@[simp] theorem accepted_append (h k : History) : accepted (h ++ k) = accepted h ++ accepted k :=
  List.filterMap_append

@[simp] theorem taken_append (h k : History) : taken (h ++ k) = taken h ++ taken k :=
  List.filterMap_append

@[simp] theorem sent_append (h k : History) : sent (h ++ k) = sent h ++ sent k :=
  List.filterMap_append

@[simp] theorem put_append (h k : History) : put (h ++ k) = put h ++ put k :=
  List.filterMap_append

@[simp] theorem accepted_singleton (x : Incident) : accepted [x] = x.accepted?.toList := by
  cases x <;> rfl

@[simp] theorem taken_singleton (x : Incident) : taken [x] = x.taken?.toList := by
  cases x <;> rfl

@[simp] theorem sent_singleton (x : Incident) : sent [x] = x.sent?.toList := by
  cases x <;> rfl

@[simp] theorem put_singleton (x : Incident) : put [x] = x.put?.toList := by
  cases x <;> rfl

end History

/-! ### Acts -/

/-- The tag under which a bridge hands a body to the connections, if it does. -/
def Bridge.audience? (b : Bridge) (body : Octets) : Option Tenant :=
  match Event.Scope.ofOctets body with
  | .tenant tag => some tag
  | .untagged _ =>
    match b.policy with
    | .drop => none
    | .broadcast => some Tenant.empty

/-- What can befall a connection at one go. -/
inductive Act where
  | deliver (f : Frame)
  | broadcast (body : Octets) (tag : Tenant)
  | hand (b : Bridge) (body : Octets)
  | remove
  | write (now : Nat)
  | read
  | behave (p : Probe)
  | receive (item : Inbound)
  | cut
  | fetch
deriving DecidableEq, Repr

namespace Connection

/-- A frame put into the queue if it is accepted. -/
def enqueue (t : Tuning) (f : Frame) (c : Connection) : Connection :=
  match c.deliver t.capacity f with
  | .ok c => c
  | .error _ => c

/-- A body handed over under a tag, if the connection is meant. -/
def offer (t : Tuning) (body : Octets) (tag : Tenant) (c : Connection) : Connection :=
  if c.isTarget tag then c.receive t.capacity (Frame.ofBody body) else c

/-- A body handed to a bridge. -/
def hand (t : Tuning) (b : Bridge) (body : Octets) (c : Connection) : Connection :=
  match b.audience? body with
  | none => c
  | some tag => c.offer t body tag

/-- The writer's next action, if it need not wait. -/
def write (t : Tuning) (now : Nat) (c : Connection) : Connection :=
  (c.step? t.writeTimeout now).getD c

/-- The client sent something to the reader, if there is one. -/
def hear (item : Inbound) (c : Connection) : Connection :=
  { c with watch := c.watch.map fun w => { w with inbound := w.inbound ++ [item] } }

/-- The client read what had arrived. -/
def fetch (c : Connection) : Connection :=
  { c with sink := c.sink.mapLink fun l => (Service.readOnce c l).2 }

def act (t : Tuning) (c : Connection) : Act → Connection
  | .deliver f => c.enqueue t f
  | .broadcast body tag => c.offer t body tag
  | .hand b body => c.hand t b body
  | .remove => c.remove
  | .write now => c.write t now
  | .read => c.read
  | .behave q => { c with sink := c.sink.mapProbe fun p => p.like q }
  | .receive item => c.hear item
  | .cut => { c with sink := c.sink.mapLink fun l => { l with cut := true } }
  | .fetch => c.fetch

/-- One act after another. -/
def acts (t : Tuning) (c : Connection) (l : List Act) : Connection := l.foldl (act t) c

/-- The frame is accepted if delivering it goes well. -/
def acceptance (t : Tuning) (f : Frame) (c : Connection) : History :=
  match c.deliver t.capacity f with
  | .ok _ => [.accepted f]
  | .error _ => []

def offering (t : Tuning) (body : Octets) (tag : Tenant) (c : Connection) : History :=
  if c.isTarget tag then c.acceptance t (Frame.ofBody body) else []

def handing (t : Tuning) (b : Bridge) (body : Octets) (c : Connection) : History :=
  (if c.registered then [.heard b body] else []) ++
    match b.audience? body with
    | none => []
    | some tag => c.offering t body tag

/-- A sink takes a frame when it is ready, and the frame is through when the sink has flushed. -/
def writing (now : Nat) (c : Connection) : History :=
  match c.writer with
  | .sending f false d => if c.sink.ready.until d now = .ready then [.took f] else []
  | .sending f true d => if c.sink.flush.until d now = .ready then [.sent f] else []
  | .farewell false d => if c.sink.ready.until d now = .ready then [.farewell] else []
  | _ => []

/-- What is noticed of an act. -/
def incidents (t : Tuning) (c : Connection) : Act → History
  | .deliver f => c.acceptance t f
  | .broadcast body tag => c.offering t body tag
  | .hand b body => c.handing t b body
  | .write now => c.writing now
  | .remove | .read | .behave _ | .receive _ | .cut | .fetch => []

/-- What is noticed of one act after another. -/
def history (t : Tuning) (c : Connection) : List Act → History
  | [] => []
  | a :: rest => c.incidents t a ++ (c.act t a).history t rest

/-- What somebody who takes notes of acts writes down of one after another. -/
def journal {α : Type} (note : Connection → Act → List α) (t : Tuning) (c : Connection) :
    List Act → List α
  | [] => []
  | a :: rest => note c a ++ (c.act t a).journal note t rest

theorem history_eq_journal (t : Tuning) (c : Connection) (l : List Act) :
    c.history t l = c.journal (incidents t) t l := by
  induction l generalizing c with
  | nil => rfl
  | cons a rest ih => rw [history, journal, ih]

/-- Acts of which nothing is noted leave no trace. -/
theorem journal_eq_nil {α : Type} {note : Connection → Act → List α} {t : Tuning} {l : List Act}
    (h : ∀ a ∈ l, ∀ c, note c a = []) (c : Connection) : c.journal note t l = [] := by
  induction l generalizing c with
  | nil => rfl
  | cons a rest ih =>
    have ha : note c a = [] := h a List.mem_cons_self c
    rw [journal, ha, List.nil_append]
    exact ih (fun b hb => h b (List.mem_cons_of_mem a hb)) _

/-! ### The writer's turn -/

/-- A writer that acts has not finished. -/
theorem isFinished_of_step?_eq_some {timeout now : Nat} {c d : Connection}
    (h : c.step? timeout now = some d) : c.writer.isFinished = false := by
  cases hw : c.writer with
  | finished ending => simp [step?, hw] at h
  | _ => rfl

/-- What every action of the writer keeps, its turn keeps. -/
theorem drive_keep {P : Connection → Prop} {timeout now : Nat}
    (step : ∀ c d, c.step? timeout now = some d → P c → P d) {c : Connection} (hp : P c) :
    P (c.drive timeout now) := by
  have go (n : Nat) (c : Connection) (hp : P c) : P (drive.go timeout now n c) := by
    induction n generalizing c with
    | zero => exact hp
    | succ n ih =>
      unfold drive.go
      split
      · exact hp
      · next d hd => exact ih d (step c d hd hp)
  exact go c.effort c hp

theorem write_of_step?_eq_none {t : Tuning} {now : Nat} {c : Connection}
    (h : c.step? t.writeTimeout now = none) : c.write t now = c := by
  simp [write, h]

theorem acts_replicate_write {t : Tuning} {now : Nat} {c : Connection}
    (h : c.step? t.writeTimeout now = none) (n : Nat) :
    c.acts t (List.replicate n (.write now)) = c := by
  induction n with
  | zero => rfl
  | succ n ih =>
    have hw : c.act t (.write now) = c := write_of_step?_eq_none h
    simpa [acts, List.replicate_succ, hw] using ih

/-- A turn of the writer is one action after another. -/
theorem drive_eq_acts (t : Tuning) (now : Nat) (c : Connection) :
    c.drive t.writeTimeout now = c.acts t (List.replicate c.effort (.write now)) := by
  have go (n : Nat) (c : Connection) :
      drive.go t.writeTimeout now n c = c.acts t (List.replicate n (.write now)) := by
    induction n generalizing c with
    | zero => rfl
    | succ n ih =>
      cases hs : c.step? t.writeTimeout now with
      | none => rw [acts_replicate_write hs]; simp [drive.go, hs]
      | some d =>
        have hw : c.act t (.write now) = d := by simp [act, write, hs]
        simp [drive.go, hs, ih, acts, List.replicate_succ, hw]
  exact go c.effort c

end Connection

end Fanout.Live
