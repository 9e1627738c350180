import Mathlib.Data.List.Basic
import Fanout.Proofs.Live.Listen
import Fanout.Proofs.Live.Order
import Fanout.Proofs.Live.Outbound
import Fanout.Proofs.Live.Removal

/-!
The end of delivery. Of a connection three kinds of things are noted in the order in which they
happen: what is noticed of it, what its writer does with its sink, and who calls for its removal. From
the call on that takes it off the registry no frame is accepted and none is offered to the sink. Only
a frame that was offered before and that the sink has not taken yet may still be taken.
-/

namespace Fanout.Live

/-- The frame that the sink is offered. -/
def Operation.frame? : Operation → Option Frame
  | offer f => some f
  | fault | farewell | close => none

namespace Writer

/-- The frame being sent, as long as the sink has not taken it. -/
def pending : Writer → List Frame
  | sending f false _ => [f]
  | _ => []

theorem length_pending_le (w : Writer) : w.pending.length ≤ 1 := by
  rcases w with _ | ⟨f, _ | _, d⟩ | _ | _ | _ <;> simp [pending]

theorem current_eq (w : Writer) : w.current = w.taken ++ w.pending := by
  rcases w with _ | ⟨f, _ | _, d⟩ | _ | _ | _ <;> rfl

theorem pending_of_not_isLooping {w : Writer} (h : w.isLooping = false) : w.pending = [] := by
  cases w <;> simp [isLooping, pending] at h ⊢

end Writer

/-! ### Notes -/

/-- What is noted of a connection. -/
inductive Note where
  | incident (x : Incident)
  | operation (x : Operation)
  | removal (x : Removal)
deriving DecidableEq, Repr

namespace Note

def incident? : Note → Option Incident
  | incident x => some x
  | _ => none

def offered? : Note → Option Frame
  | operation x => x.frame?
  | _ => none

/-- What was noticed, without the rest. -/
def history (g : List Note) : History := g.filterMap incident?

/-- The frames that the sink was offered. -/
def offered (g : List Note) : List Frame := g.filterMap offered?

@[simp] theorem history_nil : history [] = [] := rfl

@[simp] theorem offered_nil : offered [] = [] := rfl

@[simp] theorem history_append (g k : List Note) : history (g ++ k) = history g ++ history k :=
  List.filterMap_append

@[simp] theorem history_removal (x : Removal) (g : List Note) :
    history (.removal x :: g) = history g :=
  List.filterMap_cons_none rfl

@[simp] theorem offered_removal (x : Removal) (g : List Note) :
    offered (.removal x :: g) = offered g :=
  List.filterMap_cons_none rfl

@[simp] theorem offered_append (g k : List Note) : offered (g ++ k) = offered g ++ offered k :=
  List.filterMap_append

end Note

namespace Connection

variable {t : Tuning} {i : Nat} {c d : Connection} {a : Act}

/-- What an act does that calls for a removal comes before the call. -/
def notes (t : Tuning) (i : Nat) (c : Connection) (a : Act) : List Note :=
  ((c.incidents t a).map .incident ++ (c.operations t a).map .operation) ++
    (c.removals t i a).map .removal

@[simp] theorem history_notes (t : Tuning) (i : Nat) (c : Connection) (a : Act) :
    Note.history (c.notes t i a) = c.incidents t a := by
  simp [notes, Note.history, List.filterMap_map, Function.comp_def, Note.incident?]

@[simp] theorem offered_notes (t : Tuning) (i : Nat) (c : Connection) (a : Act) :
    Note.offered (c.notes t i a) = (c.operations t a).filterMap Operation.frame? := by
  have silent {α : Type} (l : List α) : l.filterMap (fun _ => (none : Option Frame)) = [] := by simp
  simp [notes, Note.offered, List.filterMap_map, Function.comp_def, Note.offered?, silent]

/-- A call for a removal is the last thing noted of an act. -/
theorem notes_eq_append_removal {k after : List Note} {x : Removal}
    (h : c.notes t i a = k ++ .removal x :: after) :
    c.notes t i a = k ++ [.removal x] ∧ after = [] ∧ c.removals t i a = [x] := by
  have other (k after : List Note) :
      (c.incidents t a).map Note.incident ++ (c.operations t a).map .operation ≠
        k ++ .removal x :: after := by
    intro he
    have hx : .removal x ∈ k ++ .removal x :: after := by simp
    rw [← he] at hx
    simp at hx
  obtain hn | ⟨origin, hn⟩ := removals_cases (t := t) (i := i) (c := c) a
  · rw [notes, hn, List.map_nil, List.append_nil] at h
    exact absurd h (other k after)
  · have hl := h
    rw [notes, hn, List.map_singleton] at hl
    obtain rfl | ⟨rest, z, rfl⟩ := List.eq_nil_or_concat' after
    · obtain ⟨-, hx⟩ := List.append_inj' hl rfl
      obtain rfl : _ = x := Note.removal.inj (List.singleton_inj.mp hx)
      exact ⟨h, rfl, hn⟩
    · rw [← List.cons_append, ← List.append_assoc] at hl
      exact absurd (List.append_inj' hl rfl).1 (other k rest)

/-! ### The queue -/

theorem queue_offer (body : Octets) (tag : Tenant) :
    (c.offer t body tag).queue = c.queue ++ (c.offering t body tag).accepted := by
  unfold offer offering acceptance
  split
  · obtain ⟨-, hd⟩ | ⟨-, e, hd⟩ := deliver_cases t.capacity (Frame.ofBody body) c
    · simp [receive, hd]
    · simp [receive, hd, History.accepted]
  · simp [History.accepted]

/-- But for its writer, a queue only grows, by the frames that are accepted. -/
theorem queue_act_of_ne_write (ha : ∀ now, a ≠ .write now) :
    (c.act t a).queue = c.queue ++ (c.incidents t a).accepted := by
  have still : c.queue = c.queue ++ History.accepted [] := (List.append_nil _).symm
  cases a with
  | deliver f =>
    obtain ⟨-, hd⟩ | ⟨-, e, hd⟩ := deliver_cases t.capacity f c
    · simp [act, enqueue, incidents, acceptance, hd]
    · simpa [act, enqueue, incidents, acceptance, hd] using still
  | broadcast body tag => exact queue_offer body tag
  | hand b body =>
    have heard : History.accepted (if c.registered then [.heard b body] else []) = [] := by
      split <;> rfl
    simp only [act, hand, incidents, handing, History.accepted_append, heard, List.nil_append]
    cases b.audience? body with
    | none => exact still
    | some tag => exact queue_offer body tag
  | remove => exact c.queue_remove.trans still
  | write now => exact absurd rfl (ha now)
  | read =>
    obtain ⟨sink, watch, -, ⟨hr, -⟩ | ⟨hr, -⟩⟩ := c.read_cases
    · simpa [act, hr, incidents] using still
    · simpa [act, hr, incidents] using still
  | behave _ | receive _ | cut | fetch => exact still

theorem queue_stride {timeout now : Nat} (h : Strides timeout now c d) :
    c.queue = (c.writer.operations d.writer).filterMap Operation.frame? ++ d.queue := by
  cases h with
  | begin f rest hw hs hq => simp [hw, hq, Writer.operations, Operation.frame?]
  | fail f taken e hw ha =>
    cases taken <;> simp [hw, startClosing, Writer.operations, Operation.frame?]
  | leave taken e hw =>
    cases taken <;> simp [hw, startClosing, Writer.operations, Operation.frame?]
  | finish sink ending e hw hs => cases ending <;> simp [hw, finish, Writer.operations]
  | _ => simp [*, Writer.operations, Operation.frame?]

/-- What is accepted goes to the end of the queue, and what is offered comes from its head. -/
theorem queue_act (t : Tuning) (c : Connection) (a : Act) :
    c.queue ++ (c.incidents t a).accepted =
      (c.operations t a).filterMap Operation.frame? ++ (c.act t a).queue := by
  by_cases hw : ∃ now, a = .write now
  · obtain ⟨now, rfl⟩ := hw
    have none : (c.incidents t (.write now)).accepted = [] := accepted_writing now
    rw [none, List.append_nil]
    obtain ⟨-, hs⟩ | hs := c.write_cases t now
    · have same : c.act t (.write now) = c := hs
      simp [operations, same]
    · exact queue_stride hs
  · have ha (now : Nat) : a ≠ .write now := fun hn => hw ⟨now, hn⟩
    rw [operations_of_ne_write ha, queue_act_of_ne_write ha]
    rfl

/-! ### Told to close -/

/-- A connection that was told to close accepts nothing, and of frames its sink takes at most the one
that was being sent. -/
theorem taken_of_signalled {h : History} (hr : Rules t c h d) (hc : Coherent c) (hs : c.signalled) :
    d.signalled ∧ h.accepted = [] ∧ h.taken ++ d.writer.pending <+: c.writer.pending := by
  refine (hr.keep (P := fun g d => Coherent d ∧ d.signalled ∧ g.accepted = [] ∧
    g.taken ++ d.writer.pending <+: c.writer.pending) ?_ (g := [])
    ⟨hc, hs, rfl, List.prefix_rfl⟩).2
  intro g c' h' d' hr ⟨hc', hs', quiet, short⟩
  refine ⟨.rule hr hc', (Forward.rule hr).signalled hs', ?_⟩
  have silent : c'.accepts t.capacity = false := by
    have left := hc'.registered_eq_false hs'
    have closed : c'.stage ≠ .active := fun ha => by simp [hc'.active.mpr ha] at left
    simp [accepts, closed]
  cases hr with
  | accept f ha => simp [silent] at ha
  | begin f rest d hw hs hq => simp [hs] at hs'
  | take f d hw => simpa [quiet, hw, Writer.pending] using short
  | fail f taken d d' hw =>
    refine ⟨by simpa using quiet, ?_⟩
    have less : g.taken <+: g.taken ++ c'.writer.pending := List.prefix_append _ _
    simpa [startClosing, Writer.pending] using less.trans short
  | remove => simpa [quiet] using short
  | _ => simpa [quiet, startClosing, Writer.pending, *] using short

theorem offered_of_signalled (hs : c.signalled) :
    (c.operations t a).filterMap Operation.frame? = [] := by
  have stride {timeout now : Nat} {d : Connection} (h : Strides timeout now c d) :
      d.queue = c.queue := by
    cases h with
    | begin f rest hw hn hq => simp [hs] at hn
    | finish sink ending e hw hsink => cases ending <;> simp [finish]
    | _ => rfl
  by_cases hw : ∃ now, a = .write now
  · obtain ⟨now, rfl⟩ := hw
    obtain ⟨-, hd⟩ | hd := c.write_cases t now
    · have same : c.act t (.write now) = c := hd
      simp [operations, same]
    · have hq := queue_stride hd
      rw [stride hd] at hq
      exact List.self_eq_append_left.mp hq
  · rw [operations_of_ne_write fun now hn => hw ⟨now, hn⟩]
    rfl

end Connection

/-- What was noted before a call that took the connection off, what was noted since, and the connection
now. Since then its sink took a part of what it had been offered before and had not taken yet. -/
structure Parted (before after : List Note) (c : Connection) : Prop where
  signalled : c.signalled
  accepted : (Note.history after).accepted = []
  offered : Note.offered after = []
  taken : ∃ rest : List Frame, rest.length ≤ 1 ∧
    (rest = [] ∨ Note.offered before = (Note.history before).taken ++ rest) ∧
    (Note.history after).taken ++ c.writer.pending <+: rest

/-- All that is accepted is offered in its turn, until the connection is taken off. -/
structure Noted (g : List Note) (c : Connection) : Prop where
  coherent : Coherent c
  ledger : Ledger (Note.history g) c
  queued : (Note.history g).accepted = Note.offered g ++ c.queue
  parted : ∀ before x after, g = before ++ .removal x :: after → x.done → Parted before after c

variable {t : Tuning} {i : Nat} {before after g : List Note} {c : Connection}

/-- Nothing is offered to a connection's sink any more, whatever befalls it. -/
theorem Parted.act (a : Act) (hp : Parted before after c) (hc : Coherent c) :
    Parted before (after ++ c.notes t i a) (c.act t a) := by
  obtain ⟨signalled, quiet, short⟩ := Connection.taken_of_signalled (c.rules_act t a) hc hp.signalled
  obtain ⟨rest, length, owed, taken⟩ := hp.taken
  refine ⟨signalled, by simp [hp.accepted, quiet], ?_, rest, length, owed, ?_⟩
  · simp [hp.offered, Connection.offered_of_signalled hp.signalled]
  · obtain ⟨late, hl⟩ := short
    obtain ⟨later, hr⟩ := taken
    exact ⟨late ++ later, by simp [← hr, ← hl]⟩

/-- The frame that the sink has not taken yet is the last one that it was offered. -/
theorem offered_of_pending (hl : Ledger (Note.history g) c)
    (hq : (Note.history g).accepted = Note.offered g ++ c.queue) (hp : c.writer.pending ≠ []) :
    Note.offered g = (Note.history g).taken ++ c.writer.pending := by
  have looping : c.writer.isLooping := by
    cases h : c.writer.isLooping with
    | true => rfl
    | false => exact absurd (Writer.pending_of_not_isLooping h) hp
  have whole := hl.whole looping
  rw [hq, Writer.current_eq, ← List.append_assoc, ← hl.passed looping] at whole
  exact List.append_cancel_right whole

namespace Noted

theorem new (who : Bearer) (sink : Sink) (watch : Option Watch) :
    Noted [] { bearer := who, sink := sink.fresh, watch := watch } where
  coherent := .new who sink watch
  ledger := .new who sink watch
  queued := rfl
  parted := fun before x after h => by simp at h

theorem act (a : Act) (hn : Noted g c) : Noted (g ++ c.notes t i a) (c.act t a) := by
  have coherent : Coherent (c.act t a) := hn.coherent.act t a
  have ledger : Ledger (Note.history (g ++ c.notes t i a)) (c.act t a) := by
    simpa using (c.rules_act t a).keep Ledger.rule hn.ledger
  have queued : (Note.history (g ++ c.notes t i a)).accepted =
      Note.offered (g ++ c.notes t i a) ++ (c.act t a).queue := by
    simp [hn.queued, Connection.queue_act]
  refine ⟨coherent, ledger, queued, ?_⟩
  intro before x after h hx
  -- The call was made by this act, or by an earlier one.
  have fresh {k : List Note} (hb : before = g ++ k)
      (hk : c.notes t i a = k ++ .removal x :: after) : Parted before after (c.act t a) := by
    obtain ⟨hk, rfl, hr⟩ := Connection.notes_eq_append_removal hk
    have left : (c.act t a).registered = false := by
      simp [Connection.registered_act t i c a, hr]
    have signalled : (c.act t a).signalled := by
      simpa [left] using coherent.signalled
    refine ⟨signalled, rfl, rfl, _, Writer.length_pending_le _, ?_, List.prefix_rfl⟩
    rw [Classical.or_iff_not_imp_left]
    intro hp
    have owed := offered_of_pending ledger queued hp
    rw [hk, ← List.append_assoc, ← hb] at owed
    simpa using owed
  obtain ⟨k, hb, hk⟩ | ⟨k, hg, hk⟩ := List.append_eq_append_iff.mp h
  · exact fresh hb hk
  · cases k with
    | nil => exact fresh (k := []) (by simpa using hg.symm) hk.symm
    | cons y k =>
      obtain ⟨rfl, rfl⟩ := List.cons_eq_cons.mp hk
      exact (hn.parted before x k hg hx).act a hn.coherent

theorem of_run {moves : List Move} (hc : ((Service.start t).after moves).connections[i]? = some c) :
    Noted ((Service.start t).journal (fun _ => Connection.notes t i) i moves) c :=
  Service.run_journal_keep (P := Noted) new (fun _ _ _ a _ hn => hn.act a)
    (Service.allows_any moves) hc

end Noted

/-- In every run, whoever makes the call that takes a connection off the registry, and whatever happens
afterwards: no frame is accepted any more and none is offered to the sink, so what stands in the queue
stays there. The sink takes at most one frame more, which then is the one frame that it was offered and
had not taken at the time of the call. The signal to close is not lost, not even on tasks that have not
run yet: whenever nobody is ready, the writer does not wait for frames, and the reader has ended. -/
theorem closing_stops_delivery (t : Tuning) (moves : List Move) (i : Nat) (c : Connection)
    (hc : ((Service.start t).after moves).connections[i]? = some c) (before after : List Note)
    (x : Removal)
    (hx : (Service.start t).journal (fun _ => Connection.notes t i) i moves =
      before ++ .removal x :: after) (hd : x.done) :
    (Note.history after).accepted = [] ∧ Note.offered after = [] ∧
      (Note.history before).accepted = Note.offered before ++ c.queue ∧
      ((Note.history after).taken = [] ∨ ∃ f, (Note.history after).taken = [f] ∧
        Note.offered before = (Note.history before).taken ++ [f]) ∧
      (((Service.start t).after moves).ready = [] →
        c.writer ≠ .idle ∧ ∀ w, c.watch = some w → w.ended.isSome) := by
  have noted := Noted.of_run hc
  have parted := noted.parted before x after hx hd
  refine ⟨parted.accepted, parted.offered, ?_, ?_, ?_⟩
  · have queued := noted.queued
    rw [hx] at queued
    simpa [parted.accepted, parted.offered] using queued
  · obtain ⟨rest, length, owed, taken⟩ := parted.taken
    have taken := (List.prefix_append _ _).trans taken
    cases hl : (Note.history after).taken with
    | nil => exact .inl rfl
    | cons f l =>
      rw [hl] at taken
      obtain ⟨last, rfl⟩ := taken
      have none : l = [] ∧ last = [] := by
        simpa using length
      obtain ⟨rfl, rfl⟩ := none
      exact .inr ⟨f, rfl, by simpa using owed⟩
  · intro hr
    have idle := ((Service.watched_start t).after moves i c hc).resolve_left (by simp [hr])
    constructor
    · intro hw
      simp [Connection.awaited, hw, parted.signalled] at idle
    · intro w hw
      exact ((Service.heard_start t).after moves).ended hr hc parted.signalled hw

/-- The connection is removed while its sink does not take the first of two frames, and before its
reader had a turn. The sink takes this frame later on, but not the second one. -/
theorem closing_stops_delivery_sending :
    let who : Bearer := ⟨"u", ⟨"acme"⟩, .agent⟩
    let moves : List Move :=
      [.register who (.probe { accept := some 0 }) true, .deliver 0 (.text "a"),
        .deliver 0 (.text "b"), .turn (.writer 0), .remove 0, .behave 0 {}, .deliver 0 (.text "c"),
        .turn (.writer 0), .turn (.reader 0), .turn (.writer 0)]
    let before : List Note :=
      [.incident (.accepted (.text "a")), .incident (.accepted (.text "b")),
        .operation (.offer (.text "a"))]
    let after : List Note :=
      [.incident (.took (.text "a")), .incident (.sent (.text "a")), .operation .farewell,
        .incident .farewell, .operation .close, .removal ⟨some 0, .reader, false⟩]
    let c : Connection :=
      { bearer := who, stage := .closed, registered := false, signalled := true,
        queue := [.text "b"], writer := .finished .asked,
        sink := .probe { taken := [.text "a", .close none], closed := true },
        watch := some { attempt := ⟨0, some 0, .closed⟩, ended := some .dropped } }
    let s := (Service.start ⟨100, 16⟩).after moves
    s.ready = [] ∧ s.connections[0]? = some c ∧
      (Service.start ⟨100, 16⟩).journal (fun _ => Connection.notes ⟨100, 16⟩ 0) 0 moves =
        before ++ .removal ⟨some 0, .caller, true⟩ :: after ∧
      Note.offered after = [] ∧ c.writer ≠ .idle ∧ ∀ w, c.watch = some w → w.ended.isSome := by
  intro who moves before after c s
  have hr : s.ready = [] := by decide +kernel
  have hc : s.connections[0]? = some c := by decide +kernel
  have hx : (Service.start ⟨100, 16⟩).journal (fun _ => Connection.notes ⟨100, 16⟩ 0) 0 moves =
      before ++ .removal ⟨some 0, .caller, true⟩ :: after := by decide +kernel
  obtain ⟨-, offered, -, -, ended⟩ :=
    closing_stops_delivery ⟨100, 16⟩ moves 0 c hc before after ⟨some 0, .caller, true⟩ hx rfl
  exact ⟨hr, hc, hx, offered, ended hr⟩

end Fanout.Live
