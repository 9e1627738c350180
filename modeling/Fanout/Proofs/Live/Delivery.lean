import Fanout.Proofs.Live.Order
import Fanout.Proofs.Live.Wake

/-!
A client that takes everything at once gets everything. Its queue is empty at every point at which
nobody is ready, so it does not overflow if not too many bodies come in between; nothing else can
end the connection, and the writer sends whatever is in the queue before it waits again.
-/

namespace Fanout.Live

/-! ### Sinks that take everything -/

/-- A frame is taken at once and is through at once. -/
structure Sink.Serves (s : Sink) : Prop where
  ready : s.ready = .ready
  flush : s.flush = .ready

instance (s : Sink) : Decidable s.Serves :=
  decidable_of_iff (s.ready = .ready ∧ s.flush = .ready)
    ⟨fun h => ⟨h.1, h.2⟩, fun h => ⟨h.ready, h.flush⟩⟩

theorem Probe.not_reached {limit : Option Nat} {n : Nat} (h : reached limit (n + 1) = false) :
    reached limit n = false := by
  cases limit with
  | none => rfl
  | some l =>
    simp only [reached, Option.any_some, decide_eq_false_iff_not] at h ⊢
    omega

theorem Probe.ready_eq_ready_iff {p : Probe} :
    p.ready = .ready ↔
      reached p.failAfter p.taken.length = false ∧ reached p.accept p.taken.length = false := by
  unfold ready
  cases reached p.failAfter p.taken.length <;> cases reached p.accept p.taken.length <;> simp

namespace Link

theorem flush_eq_ready_iff {l : Link} :
    l.flush = .ready ↔ l.cut = false ∧ l.pending ≤ capacity ∧ l.peerClosed = false := by
  unfold flush
  cases l.cut <;> cases l.peerClosed <;> by_cases h : capacity < l.pending <;> simp [h]
  omega

theorem take_eq (l : Link) (f : Frame) :
    (l.take f).cut = l.cut ∧ (l.take f).peerClosed = l.peerClosed ∧
      l.pending ≤ (l.take f).pending := by
  have hp := l.pending_push f
  cases f with
  | close reason =>
    have : (l.take (.close reason)).pending = (l.push (.close reason)).pending := rfl
    exact ⟨rfl, rfl, by omega⟩
  | _ => exact ⟨rfl, rfl, Nat.le.intro hp.symm⟩

end Link

namespace Sink

/-- A sink that serves served before it took a frame. -/
theorem Serves.of_take {s : Sink} {f : Frame} (h : (s.take f).Serves) : s.Serves := by
  cases s with
  | probe p =>
    obtain ⟨hf, ha⟩ := Probe.ready_eq_ready_iff.mp h.ready
    simp only [Probe.take, List.length_append, List.length_singleton] at hf ha
    exact ⟨Probe.ready_eq_ready_iff.mpr ⟨Probe.not_reached hf, Probe.not_reached ha⟩, h.flush⟩
  | link l =>
    obtain ⟨hc, hl, hp⟩ := l.take_eq f
    obtain ⟨hc', hp', hl'⟩ := Link.flush_eq_ready_iff.mp h.flush
    rw [hc] at hc'
    rw [hl] at hl'
    have hr : l.ready = .ready := by simp [Link.ready, hc', hl']
    exact ⟨hr, Link.flush_eq_ready_iff.mpr ⟨hc', by omega, hl'⟩⟩

theorem Serves.of_beginClose {s : Sink} (h : s.beginClose.Serves) : s.Serves := by
  cases s with
  | probe p => exact h
  | link l =>
    by_cases hc : l.isClosing
    · simpa [beginClose, Link.beginClose, hc] using h
    · refine Serves.of_take (f := .close none) ?_
      simpa [beginClose, Link.beginClose, hc, take] using h

theorem Serves.of_endClose {s : Sink} (h : s.endClose.Serves) : s.Serves := by
  cases s with
  | probe p => exact ⟨h.ready, h.flush⟩
  | link l => exact h

/-- The link has not been cut off. -/
def isWhole (s : Sink) : Bool := s.link?.all (! ·.cut)

theorem isWhole_take (s : Sink) (f : Frame) : (s.take f).isWhole = s.isWhole := by
  cases s with
  | probe p => rfl
  | link l => simp [isWhole, take, link?, (l.take_eq f).1]

end Sink

namespace Connection

/-- A sink that serves when the writer has acted served before. -/
theorem Strides.serves {timeout now : Nat} {c d : Connection} (h : Strides timeout now c d)
    (hd : d.sink.Serves) : c.sink.Serves := by
  cases h with
  | take f e _ _ => exact hd.of_take
  | bid e _ _ => exact hd.of_take
  | fail f taken e _ _ => exact hd.of_beginClose
  | leave taken e _ => exact hd.of_beginClose
  | finish sink ending e _ hs =>
    rw [sink_finish] at hd
    rcases hs with rfl | rfl
    · exact hd
    · exact hd.of_endClose
  | begin f rest _ _ _ => exact hd
  | send f e _ _ => exact hd
  | heed _ _ => exact hd

/-- The bodies of an act that are meant for the connection's tenant. -/
def matching (c : Connection) : Act → List Octets
  | .broadcast body tag => if tag.reaches c.bearer.tenant then [body] else []
  | .hand b body =>
    match b.audience? body with
    | none => []
    | some tag => if tag.reaches c.bearer.tenant then [body] else []
  | _ => []

end Connection

/-- Acts that neither end a connection nor put a frame into its queue other than from a body. -/
def Act.isCalm : Act → Bool
  | .deliver _ | .remove | .cut => false
  | .receive item => item.readEnd?.isNone
  | _ => true

/-- Moves that neither remove a connection, nor deliver to it directly, nor make its client leave. -/
def Move.isCalm (i : Nat) : Move → Bool
  | .remove j | .deliver j _ | .cutOff j => j != i
  | .receive j item => j != i || item.readEnd?.isNone
  | _ => true

namespace Service

/-- A calm move that leaves a connection with a sink that serves. -/
def Favours (i : Nat) (s : Service) (m : Move) : Prop :=
  m.isCalm i ∧ ∀ c ∈ (s.perform m).connections[i]?, c.sink.Serves

instance (i : Nat) (s : Service) (m : Move) : Decidable (s.Favours i m) :=
  inferInstanceAs (Decidable (_ ∧ _))

/-- How many bodies meant for a connection have come since nobody was ready, after a move. -/
def loadAfter (i : Nat) (s : Service) (load : Nat) (m : Move) : Nat :=
  (if s.ready = [] then 0 else load) + (s.entries (fun _ => Connection.matching) i m).length

/-- There are never more than so many. -/
def Paced (limit i : Nat) (s : Service) (load : Nat) : List Move → Prop
  | [] => True
  | m :: rest =>
    s.loadAfter i load m ≤ limit ∧ (s.perform m).Paced limit i (s.loadAfter i load m) rest

instance instDecidablePaced (limit i : Nat) (s : Service) (load : Nat) :
    (moves : List Move) → Decidable (s.Paced limit i load moves)
  | [] => .isTrue trivial
  | m :: rest =>
    @instDecidableAnd _ _ (Nat.decLe _ _)
      (instDecidablePaced limit i (s.perform m) (s.loadAfter i load m) rest)

end Service

/-! ### Thriving -/

/-- Nothing is wrong with a connection, and nothing that it has received will end it. -/
structure Thriving (c : Connection) : Prop where
  registered : c.registered
  active : c.stage = .active
  signalled : c.signalled = false
  whole : c.sink.isWhole
  reading : ∀ w, c.watch = some w →
    w.ended = none ∧ ∀ item ∈ w.inbound, item.readEnd? = none

namespace Thriving

variable {t : Tuning} {c d : Connection} {a : Act}

theorem new (who : Bearer) (sink : Sink) (reads : Bool) (session : Nat) :
    Thriving { bearer := who, sink := sink.fresh,
               watch := if reads then some (Watch.begin session) else none } where
  registered := rfl
  active := rfl
  signalled := rfl
  whole := by cases sink <;> rfl
  reading := by
    intro w hw
    cases reads with
    | false => cases hw
    | true =>
      obtain rfl := Option.some.inj hw
      exact ⟨rfl, nofun⟩

/-- What leaves registry, signal and watch alone, and does not cut the link. -/
theorem of_sink (h : Thriving c) {queue : List Frame} {writer : Writer} {sink : Sink}
    (hs : sink.isWhole) : Thriving { c with queue := queue, writer := writer, sink := sink } :=
  ⟨h.registered, h.active, h.signalled, hs, h.reading⟩

/-- A connection goes on thriving as long as its sink serves. That a sink serves is known only of
the end of a turn, so the other case has to be carried along. -/
theorem stride {timeout now : Nat} (hs : Connection.Strides timeout now c d)
    (h : Thriving c ∧ c.writer.isLooping ∨ ¬ c.sink.Serves) :
    Thriving d ∧ d.writer.isLooping ∨ ¬ d.sink.Serves := by
  rcases h with ⟨h, hl⟩ | h
  · cases hs with
    | begin f rest hw hsig hq => exact .inl ⟨h.of_sink h.whole, rfl⟩
    | take f e hw hr =>
      have hs : (c.sink.take f).isWhole := (c.sink.isWhole_take f).trans h.whole
      exact .inl ⟨h.of_sink hs, rfl⟩
    | send f e hw hf => exact .inl ⟨h.of_sink h.whole, rfl⟩
    | fail f taken e hw ha =>
      right
      intro hd
      have hc := Sink.Serves.of_beginClose hd
      cases taken with
      | false => exact ha (by simpa [Connection.awaited, hw] using hc.ready)
      | true => exact ha (by simpa [Connection.awaited, hw] using hc.flush)
    | heed hw hsig => simp [h.signalled] at hsig
    | bid e hw hr => simp [hw, Writer.isLooping] at hl
    | leave taken e hw => simp [hw, Writer.isLooping] at hl
    | finish sink ending e hw hsink => simp [hw, Writer.isLooping] at hl
  · exact .inr fun hd => h (hs.serves hd)

/-- At the end of its turn the writer is idle again, with nothing in the queue. -/
theorem drive {timeout now : Nat} (h : Thriving c) (hw : c.writer = .idle)
    (hs : (c.drive timeout now).sink.Serves) :
    Thriving (c.drive timeout now) ∧ (c.drive timeout now).writer = .idle ∧
      (c.drive timeout now).queue = [] := by
  have looping : c.writer.isLooping := by rw [hw]; rfl
  have kept := Connection.drive_keep_of_strides timeout now
    (P := fun d => Thriving d ∧ d.writer.isLooping ∨ ¬ d.sink.Serves)
    (fun _ _ hs h => stride hs h) (.inl ⟨h, looping⟩)
  obtain ⟨hd, hl⟩ := kept.resolve_right (not_not_intro hs)
  have resting := (c.waits_drive timeout now).awaited
  generalize c.drive timeout now = d at hs hd hl resting
  rcases hw : d.writer with _ | ⟨f, _ | _, e⟩ | _ | _ | _
  · refine ⟨hd, rfl, ?_⟩
    simpa [Connection.awaited, hw, hd.signalled] using resting
  · simp [Connection.awaited, hw, hs.ready] at resting
  · simp [Connection.awaited, hw, hs.flush] at resting
  · simp [hw, Writer.isLooping] at hl
  · simp [hw, Writer.isLooping] at hl
  · simp [hw, Writer.isLooping] at hl

/-- The reader looks at everything and goes on. -/
theorem read (h : Thriving c) :
    Thriving c.read ∧ c.read.queue = c.queue := by
  have items (w : Watch) (hw : w.ended = none) (l : List Inbound)
      (hl : ∀ item ∈ l, item.readEnd? = none) (c : Connection) (h : Thriving c) :
      Thriving (c.readItems w l) ∧ (c.readItems w l).queue = c.queue := by
    induction l generalizing c with
    | nil =>
      refine ⟨⟨h.registered, h.active, h.signalled, h.whole, ?_⟩, rfl⟩
      intro w' hw'
      obtain rfl := Option.some.inj hw'
      exact ⟨hw, by simp⟩
    | cons item rest ih =>
      have answers : c.cannotAnswer = false := by
        have whole := h.whole
        unfold Sink.isWhole at whole
        unfold Connection.cannotAnswer
        cases hk : c.sink.link? with
        | none => rfl
        | some k =>
          have hc : k.cut = false := by simpa [hk] using whole
          simp [Link.isBroken, hc]
      have answered : Thriving (c.answer item) ∧ (c.answer item).queue = c.queue := by
        cases item with
        | ping b =>
          refine ⟨h.of_sink ?_, rfl⟩
          have whole := h.whole
          cases hs : c.sink with
          | probe p => rfl
          | link k => simpa [hs, Sink.isWhole, Sink.mapLink, Sink.link?, Link.cut_answerPing] using whole
        | close reason => cases hl _ List.mem_cons_self
        | _ => exact ⟨h, rfl⟩
      obtain ⟨hr, hq⟩ := ih (fun x hx => hl x (List.mem_cons_of_mem item hx)) _ answered.1
      simp only [Connection.readItems, answers, hl item List.mem_cons_self]
      exact ⟨hr, hq.trans answered.2⟩
  unfold Connection.read
  cases hw : c.watch with
  | none => exact ⟨h, rfl⟩
  | some w =>
    obtain ⟨he, hi⟩ := h.reading w hw
    simp only [he, h.signalled]
    exact items w he w.inbound hi c h

/-- A body that is meant for the connection finds room. -/
theorem offer (h : Thriving c) {body : Octets} {tag : Tenant}
    (hq : c.queue.length + (c.matching (.broadcast body tag)).length ≤ t.capacity) :
    Thriving (c.offer t body tag) ∧
      (c.offer t body tag).queue.length =
        c.queue.length + (c.matching (.broadcast body tag)).length ∧
      (c.offering t body tag).accepted =
        (c.matching (.broadcast body tag)).map Frame.ofBody := by
  by_cases ht : tag.reaches c.bearer.tenant
  · have hm : c.matching (.broadcast body tag) = [body] := by simp [Connection.matching, ht]
    rw [hm] at hq ⊢
    have room : c.queue.length < t.capacity := hq
    have hd := (Connection.accepts_iff t.capacity (Frame.ofBody body) c).mp
      (by simp [Connection.accepts, h.active, room])
    have target : c.isTarget tag := by simp [Connection.isTarget, h.registered, ht]
    simp only [Connection.offer, Connection.offering, Connection.receive, Connection.acceptance,
      target, hd, if_true]
    exact ⟨h.of_sink h.whole, by simp, by simp⟩
  · have hm : c.matching (.broadcast body tag) = [] := by simp [Connection.matching, ht]
    have target : ¬ c.isTarget tag := by simp [Connection.isTarget, ht]
    rw [hm]
    simp only [Connection.offer, Connection.offering, target]
    exact ⟨h, rfl, rfl⟩

/-- What a calm act other than the writer's does to the queue. -/
theorem act (h : Thriving c) (ha : a.isCalm) (hw : ∀ now, a ≠ .write now)
    (hq : c.queue.length + (c.matching a).length ≤ t.capacity) :
    Thriving (c.act t a) ∧
      (c.act t a).queue.length = c.queue.length + (c.matching a).length ∧
      (c.incidents t a).accepted = (c.matching a).map Frame.ofBody := by
  cases a with
  | deliver f => cases ha
  | broadcast body tag => exact h.offer hq
  | hand b body =>
    have heard : (if c.registered then [Incident.heard b body] else [] : History).accepted = [] := by
      split <;> rfl
    cases hb : b.audience? body with
    | none =>
      have hm : c.matching (.hand b body) = [] := by simp [Connection.matching, hb]
      simp only [Connection.act, Connection.hand, Connection.incidents, Connection.handing, hb, hm,
        History.accepted_append, heard]
      exact ⟨h, rfl, rfl⟩
    | some tag =>
      have hm : c.matching (.hand b body) = c.matching (.broadcast body tag) := by
        simp [Connection.matching, hb]
      rw [hm] at hq ⊢
      simp only [Connection.act, Connection.hand, Connection.incidents, Connection.handing, hb,
        History.accepted_append, heard, List.nil_append]
      exact h.offer hq
  | remove => cases ha
  | write now => exact absurd rfl (hw now)
  | read =>
    obtain ⟨hr, hq⟩ := h.read
    exact ⟨hr, congrArg List.length hq, rfl⟩
  | behave p =>
    have whole := h.whole
    refine ⟨h.of_sink ?_, rfl, rfl⟩
    cases hs : c.sink with
    | probe q => rfl
    | link l => rwa [hs] at whole
  | receive item =>
    have ended : item.readEnd? = none := by simpa [Act.isCalm] using ha
    refine ⟨⟨h.registered, h.active, h.signalled, h.whole, ?_⟩, rfl, rfl⟩
    intro w' hw'
    obtain ⟨w, hc, rfl⟩ := Option.map_eq_some_iff.mp hw'
    obtain ⟨he, hi⟩ := h.reading w hc
    refine ⟨he, fun x hx => ?_⟩
    rcases List.mem_append.mp hx with hx | hx
    · exact hi x hx
    · rw [List.mem_singleton.mp hx, ended]
  | cut => cases ha
  | fetch =>
    have whole := h.whole
    refine ⟨h.of_sink ?_, rfl, rfl⟩
    cases hs : c.sink with
    | probe q => rfl
    | link l => rwa [hs] at whole

/-- One act after another, of which none is the writer's. -/
theorem acts {l : List Act} (h : Thriving c)
    (hl : ∀ a ∈ l, a.isCalm ∧ ∀ now, a ≠ .write now)
    (hq : c.queue.length + (c.journal Connection.matching t l).length ≤ t.capacity) :
    Thriving (c.acts t l) ∧
      (c.acts t l).queue.length = c.queue.length + (c.journal Connection.matching t l).length ∧
      (c.history t l).accepted = (c.journal Connection.matching t l).map Frame.ofBody := by
  induction l generalizing c with
  | nil => exact ⟨h, rfl, rfl⟩
  | cons a rest ih =>
    rw [Connection.journal, List.length_append] at hq
    obtain ⟨hcalm, hwrite⟩ := hl a List.mem_cons_self
    obtain ⟨hd, hdq, hda⟩ := h.act (t := t) hcalm hwrite (by omega)
    obtain ⟨he, heq, hea⟩ := ih hd (fun b hb => hl b (List.mem_cons_of_mem a hb)) (by omega)
    refine ⟨he, ?_, ?_⟩
    · rw [Connection.acts_cons, Connection.journal, List.length_append]
      omega
    · rw [Connection.history, Connection.journal, History.accepted_append, List.map_append, hda, hea]

end Thriving

/-! ### Runs -/

namespace Service

variable {s : Service} {i : Nat} {c : Connection} {m : Move} {a : Act}

theorem isCalm_of_mem_acts (hm : m.isCalm i) (ha : a ∈ s.acts i c m) : a.isCalm := by
  cases brings_of_mem_acts ha with
  | remove | deliver _ | cut | fault => simp [Move.isCalm] at hm
  | receive item => simpa [Move.isCalm, Act.isCalm] using hm
  | _ => rfl

end Service

/-- A connection has accepted the bodies meant for it, and has room for more. -/
structure Served (load : Nat) (h : History) (bodies : List Octets) (c : Connection) : Prop where
  thriving : Thriving c
  idle : c.writer = .idle
  queue : c.queue.length ≤ load
  accepted : h.accepted = bodies.map Frame.ofBody

namespace Served

variable {s : Service} {i load : Nat} {h : History} {bodies : List Octets} {c : Connection}
  {m : Move}

/-- When nobody is ready the queue is empty. -/
theorem queue_eq_nil (hc : Served load h bodies c) (hs : s.connections[i]? = some c)
    (hw : s.Watched) (hr : s.ready = []) : c.queue = [] := by
  have resting : c.awaited = .pending := (hw i c hs).resolve_left (by simp [hr])
  simpa [Connection.awaited, hc.idle, hc.thriving.signalled] using resting

theorem perform (hc : Served load h bodies c) (hs : s.connections[i]? = some c) (hw : s.Watched)
    (hf : s.Favours i m) (hl : s.loadAfter i load m ≤ s.tuning.capacity) :
    Served (s.loadAfter i load m) (h ++ s.incidents i m)
      (bodies ++ s.entries (fun _ => Connection.matching) i m)
      (c.acts s.tuning (s.acts i c m)) := by
  have hd := Service.getElem?_perform hs m
  have he : s.entries (fun _ => Connection.matching) i m =
      c.journal Connection.matching s.tuning (s.acts i c m) := by simp [Service.entries, hs]
  have queue : c.queue.length ≤ if s.ready = [] then 0 else load := by
    split
    · next hr => simp [hc.queue_eq_nil hs hw hr]
    · exact hc.queue
  rw [Service.loadAfter, he] at hl ⊢
  rw [Service.incidents_eq hs]
  by_cases ht : m = .turn (.writer i)
  · subst ht
    have writes : s.acts i c (.turn (.writer i)) = List.replicate c.effort (.write s.now) := by
      simp [Service.acts]
    have quiet : c.journal Connection.matching s.tuning (s.acts i c (.turn (.writer i))) = [] := by
      rw [writes]
      refine Connection.journal_eq_nil (fun a ha c => ?_) c
      rw [List.eq_of_mem_replicate ha]
      rfl
    have driven : c.acts s.tuning (s.acts i c (.turn (.writer i))) =
        c.drive s.tuning.writeTimeout s.now := by rw [writes, Connection.drive_eq_acts]
    have serves := hf.2 _ hd
    rw [driven] at serves ⊢
    obtain ⟨thriving, idle, empty⟩ := hc.thriving.drive hc.idle serves
    refine ⟨thriving, idle, by simp [empty], ?_⟩
    rw [quiet, writes, History.accepted_append, Connection.accepted_history_write, hc.accepted]
    simp
  · have calm : ∀ a ∈ s.acts i c m, a.isCalm ∧ ∀ now, a ≠ .write now := by
      intro a ha
      refine ⟨Service.isCalm_of_mem_acts hf.1 ha, ?_⟩
      rintro now rfl
      exact ht (Service.of_write_mem_acts ha).1
    obtain ⟨thriving, hq, accepted⟩ := hc.thriving.acts (t := s.tuning) calm (by omega)
    refine ⟨thriving, ?_, by omega, ?_⟩
    · exact (Connection.writer_acts (fun a ha => (calm a ha).2) c).trans hc.idle
    · rw [History.accepted_append, accepted, hc.accepted, List.map_append]

/-- A connection that is served goes on to be served. -/
theorem after {moves : List Move} (hc : Served load h bodies c) (hs : s.connections[i]? = some c)
    (hw : s.Watched) (hm : s.Meets (Service.Favours i) moves)
    (hp : s.Paced s.tuning.capacity i load moves) :
    ∃ load' d, (s.after moves).connections[i]? = some d ∧
      Served load' (h ++ s.history i moves)
        (bodies ++ s.journal (fun _ => Connection.matching) i moves) d := by
  induction moves generalizing s load h bodies c with
  | nil => exact ⟨load, c, hs, by simpa [Service.history, Service.journal] using hc⟩
  | cons m rest ih =>
    obtain ⟨hle, hp⟩ := hp
    rw [← s.tuning_perform m] at hp
    obtain ⟨load', d, hd, hserved⟩ := ih (hc.perform hs hw hm.1 hle)
      (Service.getElem?_perform hs m) (hw.perform m) hm.2 hp
    refine ⟨load', d, hd, ?_⟩
    rwa [Service.history, Service.journal, ← List.append_assoc, ← List.append_assoc]

/-- A connection is served from its registration on. -/
theorem of_absent {moves : List Move} (hn : s.connections[i]? = none) (hw : s.Watched)
    (hm : s.Meets (Service.Favours i) moves) (hp : s.Paced s.tuning.capacity i load moves)
    (hc : (s.after moves).connections[i]? = some c) :
    ∃ load', Served load' (s.history i moves)
      (s.journal (fun _ => Connection.matching) i moves) c := by
  induction moves generalizing s load with
  | nil => simp [Service.after, hn] at hc
  | cons m rest ih =>
    have hh : s.incidents i m = [] := by simp [Service.incidents, hn]
    have he : s.entries (fun _ => Connection.matching) i m = [] := by simp [Service.entries, hn]
    obtain ⟨-, hp⟩ := hp
    rw [← s.tuning_perform m] at hp
    rw [Service.history, Service.journal, hh, he, List.nil_append, List.nil_append]
    cases hb : (s.perform m).connections[i]? with
    | none => exact ih hb (hw.perform m) hm.2 hp hc
    | some d =>
      obtain ⟨-, -, who, sink, reads, -, rfl⟩ := Service.registered_of_perform hn hb
      have fresh := Thriving.new who sink reads s.connections.length
      have served : Served (Service.loadAfter i s load m) [] [] _ := ⟨fresh, rfl, Nat.zero_le _, rfl⟩
      obtain ⟨load', d', hd', hserved⟩ := served.after hb (hw.perform m) hm.2 hp
      obtain rfl := Option.some.inj (hd'.symm.trans hc)
      exact ⟨load', hserved⟩

end Served

/-- A client whose sink takes every frame at once and lets it through at once, that is not removed,
not delivered to directly and does not leave, and whose queue has room for the bodies meant for it
between one point at which nobody is ready and the next, stays registered; and whenever nobody is
ready, its sink has been given the frames of just the bodies meant for it since its registration, in
their order. What the other connections do makes no difference. -/
theorem delivered_in_full (t : Tuning) (moves : List Move) (i : Nat) (c : Connection)
    (hm : (Service.start t).Meets (Service.Favours i) moves)
    (hp : (Service.start t).Paced t.capacity i 0 moves)
    (hc : ((Service.start t).after moves).connections[i]? = some c) :
    c.registered ∧
      (((Service.start t).after moves).ready = [] →
        let bodies := (Service.start t).journal (fun _ => Connection.matching) i moves
        ((Service.start t).history i moves).put = bodies.map Frame.ofBody ∧
          ∀ p, c.sink = .probe p → p.taken = bodies.map Frame.ofBody) := by
  have watched := Service.watched_start t
  obtain ⟨load, hs⟩ := Served.of_absent rfl watched hm hp hc
  refine ⟨hs.thriving.registered, ?_⟩
  intro hr bodies
  have empty := hs.queue_eq_nil hc (watched.after moves) hr
  have ledger := Ledger.of_run hc
  have looping : c.writer.isLooping := by rw [hs.idle]; rfl
  have put : ((Service.start t).history i moves).put = bodies.map Frame.ofBody := by
    have unclosed := ledger.unclosed (Writer.mayHaveLeft_of_isLooping looping)
    have passed := ledger.passed looping
    have whole := ledger.whole looping
    simp only [hs.idle, Writer.taken, Writer.current, empty, List.append_nil] at passed whole
    calc ((Service.start t).history i moves).put
      _ = ((Service.start t).history i moves).taken := unclosed
      _ = ((Service.start t).history i moves).accepted := passed.trans whole.symm
      _ = bodies.map Frame.ofBody := hs.accepted
  refine ⟨put, ?_⟩
  intro p hsink
  exact (ledger.kept p.taken (by simp [hsink, Sink.taken?, Sink.probe?])).trans put

/-- A queue of one: three bodies come one at a time. The client next to it takes nothing and is
evicted by the third. -/
theorem delivered_in_full_beside_stalled :
    let who : Bearer := ⟨"u", ⟨"acme"⟩, .agent⟩
    let body := fun s => Octets.ofText s
    let settle : List Move := [.turn (.writer 0), .turn (.writer 1)]
    let moves : List Move :=
      [.register who (.probe {}) false, .register who (.probe { accept := some 0 }) false,
        .broadcast (body "a") who.tenant] ++ settle ++ [.broadcast (body "b") who.tenant] ++
        settle ++ [.broadcast (body "c") who.tenant] ++ settle ++ [.turn (.reader 1)]
    let s := (Service.start ⟨100, 1⟩).after moves
    let c : Connection :=
      { bearer := who, sink := .probe { taken := [.text "a", .text "b", .text "c"] } }
    (Service.start ⟨100, 1⟩).Meets (Service.Favours 0) moves ∧
      (Service.start ⟨100, 1⟩).Paced 1 0 0 moves ∧ s.connections[0]? = some c ∧
      s.connections.map (·.registered) = [true, false] ∧ s.ready = [] ∧ c.registered ∧
      ((Service.start ⟨100, 1⟩).history 0 moves).put =
        ((Service.start ⟨100, 1⟩).journal (fun _ => Connection.matching) 0 moves).map
          Frame.ofBody := by
  intro who body settle moves s c
  have hm : (Service.start ⟨100, 1⟩).Meets (Service.Favours 0) moves := by decide +kernel
  have hp : (Service.start ⟨100, 1⟩).Paced 1 0 0 moves := by decide +kernel
  have hc : s.connections[0]? = some c := by decide +kernel
  have hl : s.connections.map (·.registered) = [true, false] := by decide +kernel
  have hr : s.ready = [] := by decide +kernel
  obtain ⟨registered, full⟩ := delivered_in_full ⟨100, 1⟩ moves 0 c hm hp hc
  exact ⟨hm, hp, hc, hl, hr, registered, (full hr).1⟩

end Fanout.Live
