import Fanout.Proofs.Live.Act

/-!
The rules by which connections change. Each rule says what must hold before, what is noticed and
what the connection becomes. Every act is a chain of rules, so what every rule keeps every act
keeps.
-/

namespace Fanout.Live

/-- One rule takes a connection to the next and is noticed as a history. Whatever happens on the far
side of the sink, or to the reader, falls under `outside`: of it the rules keep only that a sink
does not forget what it took. -/
inductive Rule (t : Tuning) : Connection → History → Connection → Prop where
  | hear (c : Connection) (b : Bridge) (body : Octets) (hr : c.registered) :
      Rule t c [.heard b body] c
  | accept (c : Connection) (f : Frame) (ha : c.accepts t.capacity) :
      Rule t c [.accepted f] { c with queue := c.queue ++ [f] }
  | remove (c : Connection) : Rule t c [] c.remove
  | outside (c : Connection) (sink : Sink) (watch : Option Watch)
      (hs : sink.taken? = c.sink.taken?) : Rule t c [] { c with sink := sink, watch := watch }
  | begin (c : Connection) (f : Frame) (rest : List Frame) (d : Nat) (hw : c.writer = .idle)
      (hs : c.signalled = false) (hq : c.queue = f :: rest) :
      Rule t c [] { c with queue := rest, writer := .sending f false d }
  | take (c : Connection) (f : Frame) (d : Nat) (hw : c.writer = .sending f false d) :
      Rule t c [.took f] { c with sink := c.sink.take f, writer := .sending f true d }
  | send (c : Connection) (f : Frame) (d : Nat) (hw : c.writer = .sending f true d) :
      Rule t c [.sent f] { c with writer := .idle }
  | fail (c : Connection) (f : Frame) (taken : Bool) (d d' : Nat)
      (hw : c.writer = .sending f taken d) : Rule t c [] (c.startClosing .failed d')
  | heed (c : Connection) (d : Nat) (hw : c.writer = .idle) (hs : c.signalled) :
      Rule t c [] { c with writer := .farewell false d }
  | bid (c : Connection) (d : Nat) (hw : c.writer = .farewell false d) :
      Rule t c [.farewell]
        { c with sink := c.sink.take (.close none), writer := .farewell true d }
  | leave (c : Connection) (taken : Bool) (d d' : Nat) (hw : c.writer = .farewell taken d) :
      Rule t c [] (c.startClosing .asked d')
  | finish (c : Connection) (ending : Ending) (d : Nat) (hw : c.writer = .closing ending d) :
      Rule t c [] (c.finish ending)

/-- Rules one after another. -/
inductive Rules (t : Tuning) : Connection → History → Connection → Prop where
  | nil (c : Connection) : Rules t c [] c
  | cons {c d e : Connection} {h k : History} (first : Rule t c h d) (rest : Rules t d k e) :
      Rules t c (h ++ k) e

variable {t : Tuning} {c d e : Connection} {h k : History}

namespace Rules

theorem single (hr : Rule t c h d) : Rules t c h d := by
  simpa using Rules.cons hr (.nil d)

theorem trans (hc : Rules t c h d) (hd : Rules t d k e) : Rules t c (h ++ k) e := by
  induction hc with
  | nil c => exact hd
  | cons first _ ih =>
    rw [List.append_assoc]
    exact .cons first (ih hd)

/-- What every rule keeps, a chain of rules keeps. -/
theorem keep {P : History → Connection → Prop}
    (rule : ∀ g c h d, Rule t c h d → P g c → P (g ++ h) d) {g : History}
    (hr : Rules t c h d) (hp : P g c) : P (g ++ h) d := by
  induction hr generalizing g with
  | nil c => simpa using hp
  | cons first _ ih =>
    rw [← List.append_assoc]
    exact ih (rule _ _ _ _ first hp)

end Rules

namespace Connection

/-! ### Removing and finishing leave most of a connection alone -/

@[simp] theorem sink_remove (c : Connection) : c.remove.sink = c.sink := by
  unfold remove; split <;> rfl

@[simp] theorem bearer_remove (c : Connection) : c.remove.bearer = c.bearer := by
  unfold remove; split <;> rfl

@[simp] theorem watch_remove (c : Connection) : c.remove.watch = c.watch := by
  unfold remove; split <;> rfl

@[simp] theorem writer_finish (ending : Ending) (c : Connection) :
    (c.finish ending).writer = .finished ending := by
  cases ending <;> simp [finish]

@[simp] theorem sink_finish (ending : Ending) (c : Connection) :
    (c.finish ending).sink = c.sink := by
  cases ending <;> simp [finish]

@[simp] theorem bearer_finish (ending : Ending) (c : Connection) :
    (c.finish ending).bearer = c.bearer := by
  cases ending <;> simp [finish]

/-! ### Every act is a chain of rules -/

theorem deliver_cases (capacity : Nat) (f : Frame) (c : Connection) :
    (c.accepts capacity ∧ c.deliver capacity f = .ok { c with queue := c.queue ++ [f] }) ∨
      (c.accepts capacity = false ∧ ∃ e, c.deliver capacity f = .error e) := by
  cases ha : c.accepts capacity with
  | true => exact .inl ⟨rfl, (accepts_iff capacity f c).mp ha⟩
  | false =>
    refine .inr ⟨rfl, ?_⟩
    cases hd : c.deliver capacity f with
    | error e => exact ⟨e, rfl⟩
    | ok c' =>
      have hc : c' = { c with queue := c.queue ++ [f] } := by
        unfold deliver at hd
        split at hd
        · cases hd
        · split at hd
          · cases hd
          · exact (Except.ok.inj hd).symm
      subst hc
      have := (accepts_iff capacity f c).mpr hd
      simp [ha] at this

theorem rules_enqueue (t : Tuning) (f : Frame) (c : Connection) :
    Rules t c (c.acceptance t f) (c.enqueue t f) := by
  obtain ⟨ha, hd⟩ | ⟨-, e, hd⟩ := deliver_cases t.capacity f c
  · simp only [acceptance, enqueue, hd]
    exact .single (.accept c f ha)
  · simp only [acceptance, enqueue, hd]
    exact .nil c

theorem rules_offer (t : Tuning) (body : Octets) (tag : Tenant) (c : Connection) :
    Rules t c (c.offering t body tag) (c.offer t body tag) := by
  unfold offering offer
  split
  · obtain ⟨ha, hd⟩ | ⟨-, e, hd⟩ := deliver_cases t.capacity (Frame.ofBody body) c
    · simp only [acceptance, receive, hd]
      exact .single (.accept c _ ha)
    · simp only [acceptance, receive, hd]
      exact .single (.remove c)
  · exact .nil c

theorem rules_hand (t : Tuning) (b : Bridge) (body : Octets) (c : Connection) :
    Rules t c (c.handing t b body) (c.hand t b body) := by
  have heard : Rules t c (if c.registered then [.heard b body] else []) c := by
    split
    · next hr => exact .single (.hear c b body hr)
    · exact .nil c
  refine heard.trans ?_
  unfold hand
  cases b.audience? body with
  | none => exact .nil c
  | some tag => exact rules_offer t body tag c

/-- The writer's actions, one rule for each answer that the sink may give. -/
theorem rules_write (t : Tuning) (now : Nat) (c : Connection) :
    Rules t c (c.writing now) (c.write t now) := by
  rcases hw : c.writer with _ | ⟨f, _ | _, d⟩ | ⟨_ | _, d⟩ | ⟨ending, d⟩ | ending
  · simp only [writing, write, step?_idle hw, hw]
    split
    · next hs => exact .single (.heed c _ hw hs)
    · next hs =>
      cases hq : c.queue with
      | nil => exact .nil c
      | cons f rest => exact .single (.begin c f rest _ hw (by simpa using hs) hq)
  · simp only [writing, write, step?, hw]
    cases c.sink.ready.until d now with
    | pending => exact .nil c
    | ready => exact .single (.take c f d hw)
    | failed => exact .single (.fail c f false d _ hw)
  · simp only [writing, write, step?, hw]
    cases c.sink.flush.until d now with
    | pending => exact .nil c
    | ready => exact .single (.send c f d hw)
    | failed => exact .single (.fail c f true d _ hw)
  · simp only [writing, write, step?, hw]
    cases c.sink.ready.until d now with
    | pending => exact .nil c
    | ready => exact .single (.bid c d hw)
    | failed => exact .single (.leave c false d _ hw)
  · simp only [writing, write, step?, hw]
    cases c.sink.flush.until d now with
    | pending => exact .nil c
    | ready => exact .single (.leave c true d _ hw)
    | failed => exact .single (.leave c true d _ hw)
  · have closed (sink : Sink) (hs : sink.taken? = c.sink.taken?) :
        Rules t c [] ({ c with sink := sink }.finish ending) :=
      Rules.cons (.outside c sink c.watch hs) (.single (.finish _ ending d hw))
    simp only [writing, write, step?, hw]
    cases c.sink.close with
    | ready => exact closed _ (Sink.taken?_endClose _)
    | failed => exact closed _ (Sink.taken?_endClose _)
    | pending =>
      show Rules t c [] ((if d ≤ now then some (c.finish ending) else none).getD c)
      split
      · exact .single (.finish c ending d hw)
      · exact .nil c
  · simp only [writing, write, step?, hw]
    exact .nil c

/-- The reader changes the far side of the sink and its own watch. When it ends it removes the
connection, and only then. -/
theorem read_cases (c : Connection) :
    ∃ sink watch, sink.taken? = c.sink.taken? ∧
      (c.read = { c with sink := sink, watch := watch } ∧ watch.bind Watch.ended = c.readEnd? ∨
        c.read = remove { c with sink := sink, watch := watch } ∧ c.readEnd? = none ∧
          (watch.bind Watch.ended).isSome) := by
  have items (w : Watch) (hw : w.ended = none) (l : List Inbound) (c : Connection) :
      ∃ sink watch, sink.taken? = c.sink.taken? ∧
        (readItems w l c = { c with sink := sink, watch := watch } ∧
            watch.bind Watch.ended = none ∨
          readItems w l c = remove { c with sink := sink, watch := watch } ∧
            (watch.bind Watch.ended).isSome) := by
    induction l generalizing c with
    | nil => exact ⟨c.sink, _, rfl, .inl ⟨rfl, hw⟩⟩
    | cons item rest ih =>
      have ha : ∃ sink, sink.taken? = c.sink.taken? ∧ c.answer item = { c with sink := sink } := by
        cases item with
        | ping b => exact ⟨_, Sink.taken?_mapLink _ _, rfl⟩
        | close reason => exact ⟨_, Sink.taken?_mapLink _ _, rfl⟩
        | text s => exact ⟨_, rfl, rfl⟩
        | binary b => exact ⟨_, rfl, rfl⟩
        | pong b => exact ⟨_, rfl, rfl⟩
        | error => exact ⟨_, rfl, rfl⟩
        | finish => exact ⟨_, rfl, rfl⟩
      obtain ⟨sink, hs, ha⟩ := ha
      unfold readItems
      split
      · exact ⟨c.sink, _, rfl, .inr ⟨rfl, rfl⟩⟩
      · split
        · exact ⟨sink, _, hs, .inr ⟨by rw [ha]; rfl, rfl⟩⟩
        · obtain ⟨sink', watch, hs', hr⟩ := ih (c.answer item)
          rw [ha] at hs' hr
          exact ⟨sink', watch, hs'.trans hs, by simpa [ha] using hr⟩
  unfold read
  cases hw : c.watch with
  | none => exact ⟨c.sink, none, rfl, .inl ⟨by simp [← hw], by simp [readEnd?, hw]⟩⟩
  | some w =>
    have hr : c.readEnd? = w.ended := by simp [readEnd?, hw]
    simp only
    split
    · exact ⟨c.sink, some w, rfl, .inl ⟨by simp [← hw], hr.symm⟩⟩
    · next he =>
      have hn : w.ended = none := by simpa using he
      split
      · exact ⟨c.sink, _, rfl, .inr ⟨rfl, hr.trans hn, rfl⟩⟩
      · obtain ⟨sink, watch, hs, h | h⟩ := items w hn w.inbound c
        · exact ⟨sink, watch, hs, .inl ⟨h.1, h.2.trans (hr.trans hn).symm⟩⟩
        · exact ⟨sink, watch, hs, .inr ⟨h.1, hr.trans hn, h.2⟩⟩

theorem rules_read (t : Tuning) (c : Connection) : Rules t c [] c.read := by
  obtain ⟨sink, watch, hs, ⟨hr, -⟩ | ⟨hr, -⟩⟩ := read_cases c
  · rw [hr]
    exact .single (.outside c sink watch hs)
  · rw [hr]
    exact Rules.cons (.outside c sink watch hs) (.single (.remove _))

theorem rules_act (t : Tuning) (c : Connection) (a : Act) :
    Rules t c (c.incidents t a) (c.act t a) := by
  cases a with
  | deliver f => exact rules_enqueue t f c
  | broadcast body tag => exact rules_offer t body tag c
  | hand b body => exact rules_hand t b body c
  | remove => exact .single (.remove c)
  | write now => exact rules_write t now c
  | read => exact rules_read t c
  | behave q => exact .single (.outside c _ c.watch (Sink.taken?_like q c.sink))
  | receive item => exact .single (.outside c c.sink _ rfl)
  | cut => exact .single (.outside c _ c.watch (Sink.taken?_mapLink _ _))
  | fetch => exact .single (.outside c _ c.watch (Sink.taken?_mapLink _ _))

/-- A connection stays with its bearer. -/
theorem bearer_of_rules {t : Tuning} {c d : Connection} {h : History} (hr : Rules t c h d) :
    d.bearer = c.bearer := by
  refine hr.keep (P := fun _ d => d.bearer = c.bearer) ?_ (g := []) rfl
  intro _ _ _ _ hr hb
  cases hr <;> simpa [startClosing] using hb

theorem bearer_acts (t : Tuning) (l : List Act) (c : Connection) :
    (c.acts t l).bearer = c.bearer := by
  induction l generalizing c with
  | nil => rfl
  | cons a rest ih => exact (ih (c.act t a)).trans (bearer_of_rules (rules_act t c a))

/-- Only the writer's own acts move it on. -/
theorem writer_act {t : Tuning} {a : Act} (ha : ∀ now, a ≠ .write now) (c : Connection) :
    (c.act t a).writer = c.writer := by
  have enqueued (f : Frame) : (c.enqueue t f).writer = c.writer := by
    obtain ⟨-, hd⟩ | ⟨-, e, hd⟩ := deliver_cases t.capacity f c <;> simp [enqueue, hd]
  have offered (body : Octets) (tag : Tenant) : (c.offer t body tag).writer = c.writer := by
    unfold offer
    split
    · obtain ⟨-, hd⟩ | ⟨-, e, hd⟩ := deliver_cases t.capacity (Frame.ofBody body) c <;>
        simp [receive, hd]
    · rfl
  cases a with
  | deliver f => exact enqueued f
  | broadcast body tag => exact offered body tag
  | hand b body =>
    simp only [act, hand]
    split
    · rfl
    · exact offered body _
  | remove => exact writer_remove c
  | write now => exact absurd rfl (ha now)
  | read =>
    obtain ⟨sink, watch, -, ⟨hr, -⟩ | ⟨hr, -⟩⟩ := read_cases c <;> simp [act, hr]
  | behave p => rfl
  | receive item => rfl
  | cut => rfl
  | fetch => rfl

theorem writer_acts {t : Tuning} {l : List Act} (hl : ∀ a ∈ l, ∀ now, a ≠ .write now)
    (c : Connection) : (c.acts t l).writer = c.writer := by
  induction l generalizing c with
  | nil => rfl
  | cons a rest ih =>
    have first := writer_act (t := t) (hl a List.mem_cons_self) c
    exact (ih (fun b hb => hl b (List.mem_cons_of_mem a hb)) _).trans first

/-- The writer accepts nothing. -/
theorem accepted_history_write (t : Tuning) (now n : Nat) (c : Connection) :
    (c.history t (List.replicate n (.write now))).accepted = [] := by
  induction n generalizing c with
  | zero => rfl
  | succ n ih =>
    have first : (c.writing now).accepted = [] := by
      unfold writing
      split
      · split <;> rfl
      · split <;> rfl
      · split <;> rfl
      · rfl
    rw [List.replicate_succ, history, History.accepted_append, ih, List.append_nil]
    exact first

end Connection

end Fanout.Live
