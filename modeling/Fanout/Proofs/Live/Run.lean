import Fanout.Proofs.Live.Effect
import Fanout.Proofs.Live.Rule

/-!
Runs of the service. A move is an operation called from outside, a task's turn, or the clock going
on; a run is any moves in any order, so tasks take their turns as early, as late and as often as
they like. Each connection sees of a run only the acts that befall it, and what is noticed of these
is its history.
-/

namespace Fanout.Live

/-- One move of the service. A sink given at registration is fresh, and a connection that reads has
a client whose request was accepted. A turn may be taken, and a task may be woken, for no reason. -/
inductive Move where
  | register (who : Bearer) (sink : Sink) (reads : Bool)
  | remove (i : Nat)
  | deliver (i : Nat) (f : Frame)
  | broadcast (body : Octets) (tag : Tenant)
  | hand (b : Bridge) (body : Octets)
  | play (b : Bridge) (broker : Broker)
  | spawn (b : Bridge) (broker : Broker)
  | feed (run : Nat) (item : Option Delivery) (last : Bool)
  | behave (i : Nat) (p : Probe)
  | receive (i : Nat) (item : Inbound)
  | cutOff (i : Nat)
  | fetch (i : Nat)
  | turn (task : Task)
  | wake (tasks : List Task)
  | tick (ms : Nat)
  | setStatus (status : BridgeStatus)
deriving DecidableEq, Repr

/-- Whether events enter by this move only through a bridge, if at all. -/
def Move.isBridged : Move → Bool
  | .deliver _ _ | .broadcast _ _ => false
  | _ => true

/-- The bridge that a move brings into play. -/
def Move.bridge? : Move → Option Bridge
  | .hand b _ | .play b _ | .spawn b _ => some b
  | _ => none

/-- The time that a move takes. -/
def Move.elapsed : Move → Nat
  | .tick ms => ms
  | _ => 0

namespace Service

/-- The service before anybody is connected. -/
def start (t : Tuning) : Service := { tuning := t }

def perform (s : Service) : Move → Service
  | .register who sink reads =>
    let watch := if reads then some (Watch.begin s.connections.length) else none
    match s.register? who sink.fresh watch with
    | none => s
    | some (_, s) => s
  | .remove i => (s.remove i).2
  | .deliver i f => (s.deliver i f).2
  | .broadcast body tag => (s.broadcast body tag).2
  | .hand b body => (s.dispatch b body).2
  | .play b broker => (s.playBridge b broker).2.2
  | .spawn b broker => (s.addBridge b broker).2
  | .feed run item last => (s.feed run item last).2
  | .behave i q =>
    (s.modify i fun c => { c with sink := c.sink.mapProbe fun p => p.like q }).wake [.writer i]
  | .receive i item => s.receive i item
  | .cutOff i => s.cutOff i
  | .fetch i => (s.modify i Connection.fetch).wake [.writer i]
  | .turn task => { s with ready := s.ready.erase task }.run task
  | .wake tasks => s.wake tasks
  | .tick ms => { s with now := s.now + ms }
  | .setStatus status => { s with status := status }

/-- The service after a run. -/
def after (s : Service) (moves : List Move) : Service := moves.foldl perform s

theorem after_append (s : Service) (moves later : List Move) :
    s.after (moves ++ later) = (s.after moves).after later :=
  List.foldl_append

/-! ### What a move does to each connection -/

/-- The acts of a move on the connection of a given number. -/
def acts (s : Service) (i : Nat) (c : Connection) : Move → List Act
  | .remove j => if j = i then [.remove] else []
  | .deliver j f => if j = i then [.deliver f] else []
  | .broadcast body tag => [.broadcast body tag]
  | .hand b body => [.hand b body]
  | .play b broker => (b.handed broker).map (.hand b)
  | .behave j p => if j = i then [.behave p] else []
  | .receive j item => if j = i then [.receive item] else []
  | .cutOff j => if j = i then [.cut, .receive .error] else []
  | .fetch j => if j = i then [.fetch] else []
  | .turn (.writer j) => if j = i then List.replicate c.effort (.write s.now) else []
  | .turn (.reader j) => if j = i then [.read] else []
  | .turn (.bridge j) =>
    match s.bridges[j]? with
    | none => []
    | some r => r.handed.map (.hand r.bridge)
  | .register _ _ _ | .spawn _ _ | .feed _ _ _ | .wake _ | .tick _ | .setStatus _ => []

/-- The connections that a move adds. -/
def born (s : Service) : Move → List Connection
  | .register who sink reads =>
    if Tuning.greatestCapacity < s.tuning.capacity then []
    else
      let watch := if reads then some (Watch.begin s.connections.length) else none
      [{ bearer := who, sink := sink.fresh, watch := watch }]
  | _ => []

variable (s : Service)

theorem perform_register (who : Bearer) (sink : Sink) (reads : Bool) :
    s.perform (.register who sink reads) =
      if Tuning.greatestCapacity < s.tuning.capacity then s
      else
        let n := s.connections.length
        let watch := if reads then some (Watch.begin n) else none
        let c : Connection := { bearer := who, sink := sink.fresh, watch := watch }
        { s with connections := s.connections ++ [c] }.wake
          (if reads then [.writer n, .reader n] else [.writer n]) := by
  by_cases hl : Tuning.greatestCapacity < s.tuning.capacity
  · simp [perform, register?, hl]
  · cases reads <;> simp [perform, register?, hl]

theorem getElem?_register (hl : s.tuning.capacity ≤ Tuning.greatestCapacity) (who : Bearer)
    (sink : Sink) (reads : Bool) :
    (s.perform (.register who sink reads)).connections[s.connections.length]? =
      some { bearer := who, sink := sink.fresh,
             watch := if reads then some (Watch.begin s.connections.length) else none } := by
  rw [perform_register, if_neg (Nat.not_lt.mpr hl)]
  simp

theorem mapIdx_acts_nil :
    (s.connections.mapIdx fun _ c => c.acts s.tuning []) = s.connections := by
  apply List.ext_getElem?
  intro i
  simp [Connection.acts_nil]

/-- Modifying one connection is acting on it alone. -/
theorem modify_eq_mapIdx (j : Nat) (f : Connection → Connection) (l : Connection → List Act)
    (hf : ∀ c, f c = c.acts s.tuning (l c)) :
    s.connections.modify j f =
      s.connections.mapIdx fun i c => c.acts s.tuning (if j = i then l c else []) := by
  apply List.ext_getElem?
  intro i
  rw [List.getElem?_modify, List.getElem?_mapIdx]
  by_cases hj : j = i
  · simp [hj, hf]
  · simp [hj, Connection.acts_nil]

theorem map_eq_mapIdx (f : Connection → Connection) (l : List Act)
    (hf : ∀ c, f c = c.acts s.tuning l) :
    s.connections.map f = s.connections.mapIdx fun _ c => c.acts s.tuning l := by
  obtain rfl : f = fun c => c.acts s.tuning l := funext hf
  apply List.ext_getElem?
  intro i
  simp

/-- A move leaves every connection in its place, after the acts that befall it, and adds those that
are new. -/
theorem connections_perform (m : Move) :
    (s.perform m).connections =
      (s.connections.mapIdx fun i c => c.acts s.tuning (s.acts i c m)) ++ s.born m := by
  cases m with
  | register who sink reads =>
    rw [perform_register]
    simp only [born, acts, mapIdx_acts_nil]
    split
    · exact (List.append_nil _).symm
    · rfl
  | remove j =>
    simp only [perform, born, List.append_nil, acts, connections_remove]
    exact s.modify_eq_mapIdx j _ (fun _ => [.remove]) fun c => rfl
  | deliver j f =>
    simp only [perform, born, List.append_nil, acts, connections_deliver]
    exact s.modify_eq_mapIdx j _ (fun _ => [.deliver f]) fun c => rfl
  | broadcast body tag =>
    simp only [perform, born, List.append_nil, acts, connections_broadcast]
    exact s.map_eq_mapIdx _ [.broadcast body tag] fun c => rfl
  | hand b body =>
    simp only [perform, born, List.append_nil, acts, connections_dispatch]
    exact s.map_eq_mapIdx _ [.hand b body] fun c => rfl
  | play b broker =>
    simp only [perform, born, List.append_nil, acts, playBridge_spec]
    exact s.map_eq_mapIdx _ _ fun c => rfl
  | spawn b broker =>
    simp only [born, List.append_nil, acts, mapIdx_acts_nil]
    rfl
  | feed run item last =>
    simp only [perform, born, List.append_nil, acts, mapIdx_acts_nil, feed_spec]
  | behave j q =>
    simp only [perform, born, List.append_nil, acts, connections_wake, connections_modify]
    exact s.modify_eq_mapIdx j _ (fun _ => [.behave q]) fun c => rfl
  | receive j item =>
    simp only [perform, born, List.append_nil, acts]
    exact s.modify_eq_mapIdx j _ (fun _ => [.receive item]) fun c => rfl
  | cutOff j =>
    simp only [perform, born, List.append_nil, acts]
    refine Eq.trans ?_ (s.modify_eq_mapIdx j
      (fun c => (c.act s.tuning .cut).act s.tuning (.receive .error))
      (fun _ => [.cut, .receive .error]) fun c => rfl)
    exact List.modify_modify_eq _ _ _ _
  | fetch j =>
    simp only [perform, born, List.append_nil, acts, connections_wake, connections_modify]
    exact s.modify_eq_mapIdx j _ (fun _ => [.fetch]) fun c => rfl
  | turn task =>
    cases task with
    | writer j =>
      simp only [perform, run, born, List.append_nil, acts, connections_runWriter]
      exact s.modify_eq_mapIdx j _ (fun c => List.replicate c.effort (.write s.now))
        fun c => c.drive_eq_acts s.tuning s.now
    | reader j =>
      simp only [perform, run, born, List.append_nil, acts, connections_runReader]
      exact s.modify_eq_mapIdx j _ (fun _ => [.read]) fun c => rfl
    | bridge j =>
      simp only [perform, run, born, List.append_nil, acts, runBridge_spec]
      exact s.map_eq_mapIdx _ _ fun c => rfl
  | wake tasks =>
    simp only [born, List.append_nil, acts, mapIdx_acts_nil]
    rfl
  | tick ms =>
    simp only [born, List.append_nil, acts, mapIdx_acts_nil]
    rfl
  | setStatus status =>
    simp only [born, List.append_nil, acts, mapIdx_acts_nil]
    rfl

theorem keeps_run (task : Task) : s.Keeps (s.run task) := by
  cases task with
  | writer j => exact s.keeps_runWriter j
  | reader j => exact s.keeps_runReader j
  | bridge j => exact (s.runBridge_spec j).1

/-- No move touches the tuning, only the clock's own move takes time, and no bridge runs but by a
move that brings it into play. -/
theorem perform_spec (m : Move) :
    ((s.perform m).tuning = s.tuning ∧ (s.perform m).now = s.now + m.elapsed) ∧
      ∀ b ∈ (s.perform m).spawned, b ∈ s.spawned ∨ m.bridge? = some b := by
  have kept {s' : Service} (h : s.Keeps s') :
      (s'.tuning = s.tuning ∧ s'.now = s.now) ∧
        ∀ b ∈ s'.spawned, b ∈ s.spawned ∨ m.bridge? = some b :=
    ⟨⟨h.tuning, h.now⟩, fun b hb => .inl (h.spawned ▸ hb)⟩
  cases m with
  | register who sink reads =>
    rw [perform_register]
    split
    · exact kept (.refl s)
    · exact kept ⟨rfl, rfl, rfl⟩
  | remove j => exact kept (s.keeps_remove j)
  | deliver j f => exact kept (s.keeps_deliver j f)
  | hand b body => exact kept (s.keeps_dispatch b body)
  | play b broker => exact kept (s.playBridge_spec b broker).1
  | spawn b broker =>
    refine ⟨⟨rfl, rfl⟩, ?_⟩
    intro b' hb
    have hs : (s.perform (.spawn b broker)).spawned = s.spawned ++ [b] := List.map_append
    rw [hs, List.mem_append, List.mem_singleton] at hb
    exact hb.imp_right fun h => congrArg some h.symm
  | feed run item last => exact kept (s.feed_spec run item last).1
  | turn task =>
    have h := keeps_run { s with ready := s.ready.erase task } task
    exact kept ⟨h.tuning, h.now, h.spawned⟩
  | tick ms => exact ⟨⟨rfl, rfl⟩, fun b hb => .inl hb⟩
  | broadcast _ _ | behave _ _ | receive _ _ | cutOff _ | fetch _ | wake _ | setStatus _ =>
    exact kept ⟨rfl, rfl, rfl⟩

@[simp] theorem tuning_perform (m : Move) : (s.perform m).tuning = s.tuning :=
  (s.perform_spec m).1.1

theorem now_perform (m : Move) : (s.perform m).now = s.now + m.elapsed :=
  (s.perform_spec m).1.2

@[simp] theorem tuning_after (moves : List Move) : (s.after moves).tuning = s.tuning := by
  induction moves generalizing s with
  | nil => rfl
  | cons m rest ih => exact (ih (s.perform m)).trans (s.tuning_perform m)

/-! ### Histories -/

/-- What is noticed of one connection at a move; nothing before it is registered. -/
def incidents (i : Nat) (m : Move) : History :=
  match s.connections[i]? with
  | none => []
  | some c => c.history s.tuning (s.acts i c m)

/-- What is noticed of one connection in the course of a run. -/
def history (s : Service) (i : Nat) : List Move → History
  | [] => []
  | m :: rest => s.incidents i m ++ (s.perform m).history i rest

variable {s}

theorem getElem?_perform {i : Nat} {c : Connection} (hc : s.connections[i]? = some c) (m : Move) :
    (s.perform m).connections[i]? = some (c.acts s.tuning (s.acts i c m)) := by
  have hi : i < s.connections.length := (List.getElem?_eq_some_iff.mp hc).1
  rw [connections_perform, List.getElem?_append_left (by simpa using hi)]
  simp [hc]

/-- At its turn a writer acts until it has to wait. -/
theorem getElem?_writer_turn {i : Nat} {c : Connection} (hc : s.connections[i]? = some c) :
    (s.perform (.turn (.writer i))).connections[i]? =
      some (c.drive s.tuning.writeTimeout s.now) := by
  rw [getElem?_perform hc, Connection.drive_eq_acts]
  simp [acts]

theorem incidents_eq {i : Nat} {c : Connection} (hc : s.connections[i]? = some c) (m : Move) :
    s.incidents i m = c.history s.tuning (s.acts i c m) := by
  simp [incidents, hc]

/-- What a move brings upon the connection of a number, one rule for each act. -/
inductive Brings (s : Service) (i : Nat) : Move → Act → Prop where
  | remove : Brings s i (.remove i) .remove
  | deliver (f : Frame) : Brings s i (.deliver i f) (.deliver f)
  | broadcast (body : Octets) (tag : Tenant) : Brings s i (.broadcast body tag) (.broadcast body tag)
  | hand (b : Bridge) (body : Octets) : Brings s i (.hand b body) (.hand b body)
  | play (b : Bridge) (broker : Broker) (body : Octets) (hb : body ∈ b.handed broker) :
      Brings s i (.play b broker) (.hand b body)
  | stream (j : Nat) (r : BridgeRun) (body : Octets) (hr : s.bridges[j]? = some r)
      (hb : body ∈ r.handed) : Brings s i (.turn (.bridge j)) (.hand r.bridge body)
  | behave (p : Probe) : Brings s i (.behave i p) (.behave p)
  | receive (item : Inbound) : Brings s i (.receive i item) (.receive item)
  | cut : Brings s i (.cutOff i) .cut
  | fault : Brings s i (.cutOff i) (.receive .error)
  | fetch : Brings s i (.fetch i) .fetch
  | write : Brings s i (.turn (.writer i)) (.write s.now)
  | read : Brings s i (.turn (.reader i)) .read

theorem brings_of_mem_acts {i : Nat} {c : Connection} {m : Move} {a : Act}
    (h : a ∈ s.acts i c m) : s.Brings i m a := by
  have single {j : Nat} {x : Act} (h : a ∈ if j = i then [x] else []) : j = i ∧ a = x := by
    obtain ⟨hj, hx⟩ := List.mem_ite_nil_right.mp h
    exact ⟨hj, List.mem_singleton.mp hx⟩
  cases m with
  | remove j => obtain ⟨rfl, rfl⟩ := single h; exact .remove
  | deliver j f => obtain ⟨rfl, rfl⟩ := single h; exact .deliver f
  | behave j p => obtain ⟨rfl, rfl⟩ := single h; exact .behave p
  | receive j item => obtain ⟨rfl, rfl⟩ := single h; exact .receive item
  | fetch j => obtain ⟨rfl, rfl⟩ := single h; exact .fetch
  | cutOff j =>
    obtain ⟨rfl, ha⟩ := List.mem_ite_nil_right.mp h
    rcases List.mem_cons.mp ha with rfl | ha
    · exact .cut
    · rw [List.mem_singleton.mp ha]
      exact .fault
  | broadcast body tag =>
    rw [List.mem_singleton.mp h]
    exact .broadcast body tag
  | hand b body =>
    rw [List.mem_singleton.mp h]
    exact .hand b body
  | play b broker =>
    obtain ⟨body, hb, rfl⟩ := List.mem_map.mp h
    exact .play b broker body hb
  | turn task =>
    cases task with
    | writer j =>
      obtain ⟨rfl, ha⟩ := List.mem_ite_nil_right.mp h
      rw [List.eq_of_mem_replicate ha]
      exact .write
    | reader j => obtain ⟨rfl, rfl⟩ := single h; exact .read
    | bridge j =>
      simp only [acts] at h
      cases hr : s.bridges[j]? with
      | none => simp [hr] at h
      | some r =>
        rw [hr] at h
        obtain ⟨body, hb, rfl⟩ := List.mem_map.mp h
        exact .stream j r body hr hb
  | register _ _ _ | spawn _ _ | feed _ _ _ | wake _ | tick _ | setStatus _ => cases h

/-- A writer acts at its turns alone, and at the time of the service. -/
theorem of_write_mem_acts {i now : Nat} {c : Connection} {m : Move}
    (h : .write now ∈ s.acts i c m) : m = .turn (.writer i) ∧ now = s.now := by
  cases brings_of_mem_acts h
  exact ⟨rfl, rfl⟩

/-- A connection that was not there before a move and is there afterwards has registered. -/
theorem registered_of_perform {i : Nat} {c : Connection} {m : Move}
    (hn : s.connections[i]? = none) (hc : (s.perform m).connections[i]? = some c) :
    i = s.connections.length ∧ s.tuning.capacity ≤ Tuning.greatestCapacity ∧
      ∃ who sink reads, m = .register who sink reads ∧
        c = { bearer := who, sink := sink.fresh,
              watch := if reads then some (Watch.begin s.connections.length) else none } := by
  have hi : s.connections.length ≤ i := List.getElem?_eq_none_iff.mp hn
  rw [connections_perform, List.getElem?_append_right (by simpa using hi)] at hc
  cases m with
  | register who sink reads =>
    simp only [born] at hc
    split at hc
    · cases hc
    · next hl =>
      have hz := (List.getElem?_eq_some_iff.mp hc).1
      simp only [List.length_mapIdx, List.length_singleton] at hz
      have hi' : i = s.connections.length := by omega
      subst hi'
      exact ⟨rfl, Nat.le_of_not_lt hl, who, sink, reads, rfl, by simpa using hc.symm⟩
  | _ => cases hc

theorem new_of_perform {i : Nat} {c : Connection} {m : Move} (hn : s.connections[i]? = none)
    (hc : (s.perform m).connections[i]? = some c) :
    ∃ who sink watch, c = { bearer := who, sink := Sink.fresh sink, watch := watch } := by
  obtain ⟨-, -, who, sink, reads, -, rfl⟩ := registered_of_perform hn hc
  exact ⟨who, sink, _, rfl⟩

/-- A connection stays where it is, and with its bearer. -/
theorem bearer_after {i : Nat} {c : Connection} (hc : s.connections[i]? = some c)
    (moves : List Move) :
    ∃ d, (s.after moves).connections[i]? = some d ∧ d.bearer = c.bearer := by
  induction moves generalizing s c with
  | nil => exact ⟨c, hc, rfl⟩
  | cons m rest ih =>
    obtain ⟨d, hd, hb⟩ := ih (getElem?_perform hc m)
    exact ⟨d, hd, hb.trans (Connection.bearer_acts s.tuning _ c)⟩

/-- Where there is a connection, queues can be as large as the tuning asks for. -/
theorem capacity_le_of_after {i : Nat} {c : Connection} {moves : List Move}
    (hn : s.connections[i]? = none) (hc : (s.after moves).connections[i]? = some c) :
    s.tuning.capacity ≤ Tuning.greatestCapacity := by
  induction moves generalizing s with
  | nil =>
    rw [show (s.after []) = s from rfl, hn] at hc
    cases hc
  | cons m rest ih =>
    cases hb : (s.perform m).connections[i]? with
    | none => exact s.tuning_perform m ▸ ih hb hc
    | some d => exact (registered_of_perform hn hb).2.1

/-! ### Journals -/

section Journal

variable {α : Type} (note : Nat → Connection → Act → List α)

/-- What somebody who watches one connection and the clock writes down at a move. -/
def entries (s : Service) (i : Nat) (m : Move) : List α :=
  match s.connections[i]? with
  | none => []
  | some c => c.journal (note s.now) s.tuning (s.acts i c m)

/-- What is written down in the course of a run. -/
def journal (s : Service) (i : Nat) : List Move → List α
  | [] => []
  | m :: rest => s.entries note i m ++ (s.perform m).journal i rest

theorem journal_append (s : Service) (i : Nat) (moves later : List Move) :
    s.journal note i (moves ++ later) =
      s.journal note i moves ++ (s.after moves).journal note i later := by
  induction moves generalizing s with
  | nil => rfl
  | cons m rest ih =>
    rw [List.cons_append, journal, journal, ih, List.append_assoc]
    rfl

theorem history_eq_journal (s : Service) (i : Nat) (moves : List Move) :
    s.history i moves = s.journal (fun _ => Connection.incidents s.tuning) i moves := by
  have go (t : Tuning) (s : Service) (ht : s.tuning = t) :
      s.history i moves = s.journal (fun _ => Connection.incidents t) i moves := by
    induction moves generalizing s with
    | nil => rfl
    | cons m rest ih =>
      rw [history, journal, ih _ ((s.tuning_perform m).trans ht), incidents, entries, ht]
      simp only [Connection.history_eq_journal]
  exact go s.tuning s rfl

end Journal

/-- Every move of a run meets a condition on the service before it. -/
def Meets (ok : Service → Move → Prop) (s : Service) : List Move → Prop
  | [] => True
  | m :: rest => ok s m ∧ (s.perform m).Meets ok rest

instance instDecidableMeets {ok : Service → Move → Prop} [∀ s m, Decidable (ok s m)] (s : Service) :
    (moves : List Move) → Decidable (s.Meets ok moves)
  | [] => .isTrue trivial
  | m :: rest =>
    let _ : Decidable ((s.perform m).Meets ok rest) :=
      instDecidableMeets (s.perform m) rest
    inferInstanceAs (Decidable (_ ∧ _))

theorem meets_append {ok : Service → Move → Prop} {s : Service} {moves later : List Move} :
    s.Meets ok (moves ++ later) ↔ s.Meets ok moves ∧ (s.after moves).Meets ok later := by
  induction moves generalizing s with
  | nil => simp [Meets, after]
  | cons m rest ih =>
    rw [List.cons_append, Meets, Meets, ih, and_assoc]
    rfl

theorem meets_of_forall {ok : Service → Move → Prop} {moves : List Move}
    (h : ∀ m ∈ moves, ∀ s, ok s m) (s : Service) : s.Meets ok moves := by
  induction moves generalizing s with
  | nil => trivial
  | cons m rest ih =>
    exact ⟨h m List.mem_cons_self s, ih (fun m' h' => h m' (List.mem_cons_of_mem m h')) _⟩

/-- What every move keeps of the service may be relied on all along. -/
theorem Meets.keeping {ok : Service → Move → Prop} {kept : Service → Prop}
    (keep : ∀ s m, kept s → kept (s.perform m)) {s : Service} {moves : List Move}
    (hm : s.Meets ok moves) (hs : kept s) : s.Meets (fun s m => kept s ∧ ok s m) moves := by
  induction moves generalizing s with
  | nil => trivial
  | cons m rest ih => exact ⟨⟨hs, hm.1⟩, ih hm.2 (keep s m hs)⟩

theorem Meets.tuning {ok : Service → Move → Prop} {t : Tuning} {s : Service} {moves : List Move}
    (hm : s.Meets ok moves) (ht : s.tuning = t) :
    s.Meets (fun s m => s.tuning = t ∧ ok s m) moves :=
  hm.keeping (fun s m h => (s.tuning_perform m).trans h) ht

section Law

variable {α : Type} {note : Nat → Connection → Act → List α} {ok : Service → Move → Prop}
  {L : Service → List α → Connection → Prop} {i : Nat}

/-- What the moves of a run keep of a connection and its journal goes on to hold. -/
theorem after_induct
    (step : ∀ s m g c, ok s m → s.connections[i]? = some c → L s g c →
      L (s.perform m) (g ++ c.journal (note s.now) s.tuning (s.acts i c m))
        (c.acts s.tuning (s.acts i c m)))
    {moves : List Move} (hm : s.Meets ok moves) {g : List α} {c : Connection}
    (hc : s.connections[i]? = some c) (hl : L s g c) :
    ∃ d, (s.after moves).connections[i]? = some d ∧
      L (s.after moves) (g ++ s.journal note i moves) d := by
  induction moves generalizing s g c with
  | nil => exact ⟨c, hc, by simpa [journal, after] using hl⟩
  | cons m rest ih =>
    have he : s.entries note i m = c.journal (note s.now) s.tuning (s.acts i c m) := by
      simp [entries, hc]
    obtain ⟨d, hd, hq⟩ := ih hm.2 (getElem?_perform hc m) (step s m g c hm.1 hc hl)
    refine ⟨d, hd, ?_⟩
    rwa [journal, he, ← List.append_assoc]

/-- What moreover holds of a connection when it is new holds of it in the whole run. -/
theorem run_induct
    (new : ∀ s m c, ok s m → s.connections[i]? = none →
      (s.perform m).connections[i]? = some c → L (s.perform m) [] c)
    (step : ∀ s m g c, ok s m → s.connections[i]? = some c → L s g c →
      L (s.perform m) (g ++ c.journal (note s.now) s.tuning (s.acts i c m))
        (c.acts s.tuning (s.acts i c m)))
    {moves : List Move} (hm : s.Meets ok moves) (hn : s.connections[i]? = none) {c : Connection}
    (hc : (s.after moves).connections[i]? = some c) :
    L (s.after moves) (s.journal note i moves) c := by
  induction moves generalizing s with
  | nil => simp [after, hn] at hc
  | cons m rest ih =>
    have he : s.entries note i m = [] := by simp [entries, hn]
    rw [journal, he, List.nil_append]
    cases hb : (s.perform m).connections[i]? with
    | none => exact ih hm.2 hb hc
    | some c₀ =>
      obtain ⟨d, hd, hl⟩ := after_induct step hm.2 hb (new s m c₀ hm.1 hn hb)
      obtain rfl : d = c := Option.some.inj (hd.symm.trans hc)
      exact hl

end Law

/-! ### What acts keep, runs keep -/

section Keep

variable {α : Type} {t : Tuning} {allowed : Act → Prop} {P : List α → Connection → Prop}

/-- What a law says of the notes and the connections that allowed acts lead to. -/
theorem acts_keep {note : Connection → Act → List α}
    (keep : ∀ g c a, allowed a → P g c → P (g ++ note c a) (c.act t a))
    {l : List Act} (hl : ∀ a ∈ l, allowed a) {g : List α} {c : Connection} (hp : P g c) :
    P (g ++ c.journal note t l) (c.acts t l) := by
  induction l generalizing g c with
  | nil => simpa [Connection.journal, Connection.acts_nil] using hp
  | cons a rest ih =>
    rw [Connection.journal, Connection.acts_cons, ← List.append_assoc]
    exact ih (fun b hb => hl b (List.mem_cons_of_mem a hb))
      (keep g c a (hl a List.mem_cons_self) hp)

/-- The acts that a run's moves may consist of. -/
def Allows (allowed : Act → Prop) (moves : List Move) : Prop :=
  ∀ m ∈ moves, ∀ (s : Service) i c, ∀ a ∈ s.acts i c m, allowed a

theorem meets_of_allows {moves : List Move} (ha : Allows allowed moves) (s : Service) :
    s.Meets (fun s m => ∀ i c, ∀ a ∈ s.acts i c m, allowed a) moves :=
  meets_of_forall (fun m hm s => ha m hm s) s

variable {note : Nat → Connection → Act → List α}

/-- A law that holds of a connection goes on to hold of it. -/
theorem after_journal_keep
    (keep : ∀ now g c a, allowed a → P g c → P (g ++ note now c a) (c.act s.tuning a))
    {moves : List Move} (ha : Allows allowed moves) {i : Nat} {g : List α} {c : Connection}
    (hc : s.connections[i]? = some c) (hp : P g c) :
    ∃ d, (s.after moves).connections[i]? = some d ∧ P (g ++ s.journal note i moves) d := by
  have step (s' : Service) (m : Move) (g : List α) (c : Connection)
      (hm : s'.tuning = s.tuning ∧ ∀ i c, ∀ a ∈ s'.acts i c m, allowed a)
      (_ : s'.connections[i]? = some c) (hp : P g c) :
      P (g ++ c.journal (note s'.now) s'.tuning (s'.acts i c m))
        (c.acts s'.tuning (s'.acts i c m)) := by
    rw [hm.1]
    exact acts_keep (keep s'.now) (hm.2 i c) hp
  exact after_induct (L := fun _ => P) step ((meets_of_allows ha s).tuning rfl) hc hp

/-- A law that holds of connections when they register, with a client or without one, holds of every
connection in every run. -/
theorem run_journal_keep_opened {i : Nat}
    (new : ∀ (who : Bearer) (sink : Sink) (reads : Bool), P []
      { bearer := who, sink := sink.fresh, watch := if reads then some (Watch.begin i) else none })
    (keep : ∀ now g c a, allowed a → P g c → P (g ++ note now c a) (c.act t a))
    {moves : List Move} (ha : Allows allowed moves) {c : Connection}
    (hc : ((start t).after moves).connections[i]? = some c) :
    P ((start t).journal note i moves) c := by
  have step (s : Service) (m : Move) (g : List α) (c : Connection)
      (hm : s.tuning = t ∧ ∀ i c, ∀ a ∈ s.acts i c m, allowed a)
      (_ : s.connections[i]? = some c) (hp : P g c) :
      P (g ++ c.journal (note s.now) s.tuning (s.acts i c m)) (c.acts s.tuning (s.acts i c m)) := by
    rw [hm.1]
    exact acts_keep (keep s.now) (hm.2 i c) hp
  refine run_induct (L := fun _ => P) ?_ step ((meets_of_allows ha _).tuning rfl) rfl hc
  intro s m c _ hn hb
  obtain ⟨rfl, -, who, sink, reads, -, rfl⟩ := registered_of_perform hn hb
  exact new who sink reads

/-- A law that holds of every new connection holds of every connection in every run. -/
theorem run_journal_keep
    (new : ∀ who sink watch, P [] { bearer := who, sink := Sink.fresh sink, watch := watch })
    (keep : ∀ now g c a, allowed a → P g c → P (g ++ note now c a) (c.act t a))
    {moves : List Move} (ha : Allows allowed moves) {i : Nat} {c : Connection}
    (hc : ((start t).after moves).connections[i]? = some c) :
    P ((start t).journal note i moves) c :=
  run_journal_keep_opened (fun who sink _ => new who sink _) keep ha hc

end Keep

variable {t : Tuning} {allowed : Act → Prop} {P : History → Connection → Prop}

/-- What a law says of histories goes on to hold of a connection. -/
theorem after_keep
    (keep : ∀ g c a, allowed a → P g c → P (g ++ c.incidents s.tuning a) (c.act s.tuning a))
    {moves : List Move} (ha : Allows allowed moves) {i : Nat} {g : History} {c : Connection}
    (hc : s.connections[i]? = some c) (hp : P g c) :
    ∃ d, (s.after moves).connections[i]? = some d ∧ P (g ++ s.history i moves) d := by
  rw [history_eq_journal]
  exact after_journal_keep (fun _ => keep) ha hc hp

theorem run_keep
    (new : ∀ who sink watch, P [] { bearer := who, sink := Sink.fresh sink, watch := watch })
    (keep : ∀ g c a, allowed a → P g c → P (g ++ c.incidents t a) (c.act t a))
    {moves : List Move} (ha : Allows allowed moves) {i : Nat} {c : Connection}
    (hc : ((start t).after moves).connections[i]? = some c) :
    P ((start t).history i moves) c := by
  rw [history_eq_journal]
  exact run_journal_keep new (fun _ => keep) ha hc

/-! ### What rules keep, runs keep -/

theorem allows_any (moves : List Move) : Allows (fun _ => True) moves :=
  fun _ _ _ _ _ _ _ => trivial

theorem act_keep (rule : ∀ g c h d, Rule t c h d → P g c → P (g ++ h) d)
    (g : History) (c : Connection) (a : Act) (_ : True) (hp : P g c) :
    P (g ++ c.incidents t a) (c.act t a) :=
  (c.rules_act t a).keep rule hp

/-- A law that every rule keeps goes on to hold of a connection, whatever the moves are. -/
theorem after_keep_of_rule (rule : ∀ g c h d, Rule s.tuning c h d → P g c → P (g ++ h) d)
    (moves : List Move) {i : Nat} {g : History} {c : Connection}
    (hc : s.connections[i]? = some c) (hp : P g c) :
    ∃ d, (s.after moves).connections[i]? = some d ∧ P (g ++ s.history i moves) d :=
  after_keep (act_keep rule) (allows_any moves) hc hp

/-- A law of new connections that every rule keeps holds of every connection in every run. -/
theorem run_keep_of_rule
    (new : ∀ who sink watch, P [] { bearer := who, sink := Sink.fresh sink, watch := watch })
    (rule : ∀ g c h d, Rule t c h d → P g c → P (g ++ h) d) {moves : List Move} {i : Nat}
    {c : Connection} (hc : ((start t).after moves).connections[i]? = some c) :
    P ((start t).history i moves) c :=
  run_keep new (act_keep rule) (allows_any moves) hc

end Service

end Fanout.Live
