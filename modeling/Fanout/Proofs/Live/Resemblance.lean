import Fanout.Proofs.Live.Surplus

/-!
Connections that resemble each other but for harmless items that one client has sent on top. Whatever
befalls both of them leads to the same on both, as long as the pipe has room for the answers to pings or
the link is cut; and so does what befalls one of them alone, a further harmless item or a turn of a reader
that otherwise has nothing before it.
-/

namespace Fanout.Live

/-- A watch, and the same watch with further harmless items before it. When the link was cut, only
whether the reader has ended matters. -/
structure Watch.Resembles (pinged whole : Bool) (w w' : Watch) : Prop where
  attempt : w'.attempt = w.attempt
  halted : w'.ended.isSome = w.ended.isSome
  reason : whole → w'.ended = w.ended
  inbound : whole → w.ended = none →
    Padded (fun x => x.isHarmless ∧ ∀ b, x = .ping b → pinged) w.inbound w'.inbound

theorem Watch.Resembles.refl (pinged whole : Bool) (w : Watch) : Resembles pinged whole w w where
  attempt := rfl
  halted := rfl
  reason _ := rfl
  inbound _ _ := .refl w.inbound

namespace Connection

/-- The connection with another sink and another watch. -/
def refit (s : Sink) (w : Option Watch) (c : Connection) : Connection := { c with sink := s, watch := w }

/-- A connection, and the same one after further harmless items. -/
inductive Resembles (pinged : Bool) (c : Connection) : Connection → Prop where
  | refit {s : Sink} {w : Option Watch} (sink : Sink.Resembles pinged c.sink s)
      (watch : Option.Rel (Watch.Resembles pinged c.sink.isWhole) c.watch w) :
      Resembles pinged c (c.refit s w)

/-- Whoever's link was cut has something before it that ends reading, if it still reads. -/
def Warned (c : Connection) : Prop :=
  c.sink.isWhole = false → ∀ w, c.watch = some w → w.ended = none →
    ∃ x ∈ w.inbound, x.isHarmless = false

variable {pinged : Bool} {c c' : Connection} {s : Sink} {w : Option Watch} {t : Tuning}

theorem Resembles.refl (pinged : Bool) (c : Connection) : Resembles pinged c c := by
  refine .refit (s := c.sink) (w := c.watch) (.refl pinged c.sink) ?_
  cases c.watch with
  | none => exact .none
  | some w => exact .some (.refl pinged _ w)

theorem Resembles.signalled (h : Resembles pinged c c') : c'.signalled = c.signalled := by
  obtain ⟨-, -⟩ := h
  rfl

/-! ### What looks neither at the sink nor at the watch -/

/-- A change that has to do neither with the sink nor with the watch. -/
def Ignores (f : Connection → Connection) : Prop := ∀ c s w, f (c.refit s w) = (f c).refit s w

theorem Resembles.ignore {f : Connection → Connection} (hf : Ignores f) (h : Resembles pinged c c') :
    Resembles pinged (f c) (f c') := by
  obtain ⟨sink, watch⟩ := h
  have own : f c = (f c).refit c.sink c.watch := hf c c.sink c.watch
  have sink_own : (f c).sink = c.sink := (congrArg Connection.sink own).trans rfl
  have watch_own : (f c).watch = c.watch := (congrArg Connection.watch own).trans rfl
  rw [hf]
  exact .refit (sink_own ▸ sink) (by rwa [sink_own, watch_own])

theorem ignores_remove : Ignores remove := by
  intro c s w
  rw [remove, remove, refit]
  dsimp only
  split <;> rfl

theorem deliver_refit (capacity : Nat) (f : Frame) :
    (c.refit s w).deliver capacity f = (c.deliver capacity f).map (Connection.refit s w) := by
  rw [deliver, deliver, refit]
  dsimp only
  split
  · rfl
  · split <;> rfl

theorem ignores_enqueue (t : Tuning) (f : Frame) : Ignores (enqueue t f) := by
  intro c s w
  rw [enqueue, deliver_refit, enqueue]
  cases c.deliver t.capacity f <;> rfl

theorem ignores_offer (t : Tuning) (body : Octets) (tag : Tenant) : Ignores (offer t body tag) := by
  have received (f : Frame) : Ignores (receive t.capacity f) := by
    intro c s w
    rw [receive, deliver_refit, receive]
    cases c.deliver t.capacity f with
    | ok d => rfl
    | error e => exact ignores_remove c s w
  intro c s w
  have meant : (c.refit s w).isTarget tag = c.isTarget tag := rfl
  rw [offer, meant, offer]
  split
  · exact received _ c s w
  · rfl

theorem ignores_hand (t : Tuning) (b : Bridge) (body : Octets) : Ignores (hand t b body) := by
  intro c s w
  rw [hand, hand]
  cases b.audience? body with
  | none => rfl
  | some tag => exact ignores_offer t body tag c s w

theorem ignores_finish (ending : Ending) : Ignores (finish ending) := by
  intro c s w
  cases ending with
  | asked => rfl
  | failed => exact ignores_remove { c with stage := .closed, writer := .finished .failed } s w

/-! ### The writer -/

/-- Another sink on either side that is as whole as the one before. -/
theorem Resembles.resink {d : Connection} {s' : Sink} (sink : Sink.Resembles pinged d.sink s')
    (watch : Option.Rel (Watch.Resembles pinged c.sink.isWhole) c.watch w)
    (same : d.watch = c.watch) (whole : d.sink.isWhole = c.sink.isWhole) :
    Resembles pinged d (d.refit s' w) := by
  refine .refit sink ?_
  rwa [same, whole]

/-- The writer acts on both sides or on neither. -/
theorem Resembles.step? {timeout now : Nat} (h : Resembles pinged c c')
    (room : pinged → c'.sink.hasRoom) :
    Option.Rel (Resembles pinged) (c.step? timeout now) (c'.step? timeout now) := by
  obtain ⟨sink, watch⟩ := h
  rename_i s w
  have ready := sink.ready
  have flush := sink.flush room
  have close := sink.close room
  have closing (ending : Ending) :
      Resembles pinged (c.startClosing ending (now + timeout))
        ((c.refit s w).startClosing ending (now + timeout)) :=
    .resink (d := c.startClosing ending (now + timeout)) sink.beginClose watch rfl
      c.sink.isWhole_beginClose
  have done (ending : Ending) : Resembles pinged (c.finish ending) ((c.refit s w).finish ending) :=
    Resembles.ignore (ignores_finish ending) (.refit sink watch)
  have closed (ending : Ending) : Resembles pinged ({ c with sink := c.sink.endClose }.finish ending)
      ({ c.refit s w with sink := s.endClose }.finish ending) :=
    Resembles.ignore (ignores_finish ending)
      (.resink (d := { c with sink := c.sink.endClose }) sink.endClose watch rfl c.sink.isWhole_endClose)
  have taken (f : Frame) (next : Writer) :
      Resembles pinged { c with sink := c.sink.take f, writer := next }
        { c.refit s w with sink := s.take f, writer := next } :=
    .resink (d := { c with sink := c.sink.take f, writer := next }) (sink.take f) watch rfl
      (c.sink.isWhole_take f)
  have moved (next : Writer) (queue : List Frame) :
      Resembles pinged { c with queue := queue, writer := next }
        { c.refit s w with queue := queue, writer := next } :=
    .resink (d := { c with queue := queue, writer := next }) sink watch rfl rfl
  rcases hw : c.writer with _ | ⟨f, _ | _, d⟩ | ⟨_ | _, d⟩ | ⟨ending, d⟩ | ending
  all_goals have hw' : (c.refit s w).writer = _ := hw
  · have signalled : (c.refit s w).signalled = c.signalled := rfl
    have queue : (c.refit s w).queue = c.queue := rfl
    rw [Connection.step?_idle hw, Connection.step?_idle hw', signalled, queue]
    split
    · exact .some (moved _ _)
    · cases c.queue with
      | nil => exact .none
      | cons f rest => exact .some (moved _ _)
  · have ready : (c.refit s w).sink.ready = c.sink.ready := ready
    simp only [Connection.step?, hw, hw', ready]
    cases c.sink.ready.until d now with
    | pending => exact .none
    | ready => exact .some (taken _ _)
    | failed => exact .some (closing _)
  · have flush : (c.refit s w).sink.flush = c.sink.flush := flush
    simp only [Connection.step?, hw, hw', flush]
    cases c.sink.flush.until d now with
    | pending => exact .none
    | ready => exact .some (moved _ _)
    | failed => exact .some (closing _)
  · have ready : (c.refit s w).sink.ready = c.sink.ready := ready
    simp only [Connection.step?, hw, hw', ready]
    cases c.sink.ready.until d now with
    | pending => exact .none
    | ready => exact .some (taken _ _)
    | failed => exact .some (closing _)
  · have flush : (c.refit s w).sink.flush = c.sink.flush := flush
    simp only [Connection.step?, hw, hw', flush]
    cases c.sink.flush.until d now with
    | pending => exact .none
    | ready => exact .some (closing _)
    | failed => exact .some (closing _)
  · have close : (c.refit s w).sink.close = c.sink.close := close
    simp only [Connection.step?, hw, hw', close]
    cases c.sink.close with
    | pending =>
      dsimp only
      split
      · exact .some (done _)
      · exact .none
    | ready => exact .some (closed _)
    | failed => exact .some (closed _)
  · simp only [Connection.step?, hw, hw']
    exact .none

theorem Resembles.write (h : Resembles pinged c c') (room : pinged → c'.sink.hasRoom) (now : Nat) :
    Resembles pinged (c.write t now) (c'.write t now) := by
  have acts : Option.Rel (Resembles pinged) (c.step? t.writeTimeout now) (c'.step? t.writeTimeout now) :=
    h.step? room
  rw [Connection.write, Connection.write]
  generalize c.step? t.writeTimeout now = next at acts
  generalize c'.step? t.writeTimeout now = next' at acts
  cases acts with
  | none => exact h
  | some h' => exact h'

theorem Resembles.writing (h : Resembles pinged c c') (room : pinged → c'.sink.hasRoom) (now : Nat) :
    c'.writing now = c.writing now := by
  obtain ⟨sink, watch⟩ := h
  rename_i s w
  have writer : (c.refit s w).writer = c.writer := rfl
  have ready : (c.refit s w).sink.ready = c.sink.ready := sink.ready
  have flush : (c.refit s w).sink.flush = c.sink.flush := sink.flush room
  rw [Connection.writing, Connection.writing, writer, ready, flush]

/-- What a writer does to a link only adds to it. -/
theorem hasRoom_of_write {now : Nat} (room : (c.write t now).sink.hasRoom) : c.sink.hasRoom := by
  have take (s : Sink) (f : Frame) (h : (s.take f).hasRoom) : s.hasRoom := by
    cases s with
    | probe p => rfl
    | link l =>
      obtain ⟨cut, -, more⟩ := l.take_eq f
      simp only [Sink.hasRoom, Sink.link?, Sink.take, Option.all_some, Link.hasRoom, Bool.or_eq_true,
        decide_eq_true_eq, cut] at h ⊢
      exact h.imp_right more.trans
  have begin (s : Sink) (h : s.beginClose.hasRoom) : s.hasRoom := by
    cases s with
    | probe p => rfl
    | link l =>
      rw [Sink.beginClose, Link.beginClose] at h
      split at h
      · exact h
      · exact take (.link l) _ h
  obtain ⟨-, same⟩ | strides := c.write_cases t now
  · rwa [same] at room
  · generalize c.write t now = d at strides room
    cases strides with
    | take f e hw hr => exact take _ _ room
    | bid e hw hr => exact take _ _ room
    | fail f taken e hw ha => exact begin _ room
    | leave taken e hw => exact begin _ room
    | finish sink ending e hw hs =>
      rw [sink_finish] at room
      rcases hs with rfl | rfl
      · exact room
      · cases hs : c.sink with
        | probe p => rfl
        | link l => rwa [hs] at room
    | begin f rest hw hs hq => exact room
    | send f e hw hf => exact room
    | heed hw hs => exact room

/-- A turn of the writer, if the pipe has room at the end of it. -/
theorem Resembles.writes (n now : Nat) (h : Resembles pinged c c')
    (room : pinged → (c'.acts t (List.replicate n (.write now))).sink.hasRoom) :
    Resembles pinged (c.acts t (List.replicate n (.write now)))
        (c'.acts t (List.replicate n (.write now))) ∧
      c'.history t (List.replicate n (.write now)) = c.history t (List.replicate n (.write now)) := by
  have before (n : Nat) (c : Connection) (h : (c.acts t (List.replicate n (.write now))).sink.hasRoom) :
      c.sink.hasRoom := by
    induction n generalizing c with
    | zero => exact h
    | succ n ih => exact hasRoom_of_write (ih (c.write t now) h)
  induction n generalizing c c' with
  | zero => exact ⟨h, rfl⟩
  | succ n ih =>
    have now_room : pinged → c'.sink.hasRoom := fun hp => before (n + 1) c' (room hp)
    obtain ⟨rest, history⟩ := ih (h.write now_room now) room
    refine ⟨rest, ?_⟩
    rw [List.replicate_succ, Connection.history, Connection.history]
    exact congrArg₂ _ (h.writing now_room now) history

/-! ### The reader -/

theorem answer_refit (item : Inbound) :
    (c.refit s w).answer item = c.refit (s.reply item) w := by
  cases item <;> rfl

theorem stopReading_refit (watch : Watch) (reason : ReadEnd) :
    stopReading watch reason (c.refit s w) = c.remove.refit s
      (some { watch with ended := some reason, attempt := watch.attempt.moveThrough [.closing, .closed] }) :=
  ignores_remove c s _

/-- The reader ends on both sides, for the same reason if the links are whole. -/
theorem Resembles.stop {v v' : Watch} {d : Connection} {s s' : Sink} {reason reason' : ReadEnd}
    (sink : Sink.Resembles pinged s s') (attempt : v'.attempt = v.attempt)
    (same : s.isWhole → reason' = reason) (w w' : Option Watch) :
    Resembles pinged (stopReading v reason (d.refit s w)) (stopReading v' reason' (d.refit s' w')) := by
  rw [stopReading_refit, stopReading_refit]
  refine .resink (c := d.remove.refit s _) sink ?_ rfl rfl
  refine .some ⟨by rw [attempt], rfl, fun whole => congrArg some (same whole), fun _ => nofun⟩

theorem cannotAnswer_eq_false (whole : c.sink.isWhole) : c.cannotAnswer = false := by
  cases broken : c.cannotAnswer with
  | false => rfl
  | true => exact absurd (whole.symm.trans (isWhole_of_cannotAnswer broken)) nofun

/-- Readers look at items, on one side with harmless ones on top. -/
theorem Resembles.readItems {items items' : List Inbound}
    (padded : Padded (fun x => x.isHarmless ∧ ∀ b, x = .ping b → pinged) items items') {v v' : Watch}
    (attempt : v'.attempt = v.attempt) (on : v.ended = none) (on' : v'.ended = none) {d : Connection}
    {s s' : Sink} (sink : Sink.Resembles pinged s s') (whole : s.isWhole) (w w' : Option Watch) :
    Resembles pinged (Connection.readItems v items (d.refit s w))
      (Connection.readItems v' items' (d.refit s' w')) := by
  induction padded generalizing s s' with
  | nil =>
    refine .resink (c := d.refit s (some { v with inbound := [] })) sink (.some ?_) rfl rfl
    exact ⟨attempt, by rw [on, on'], fun _ => on'.trans on.symm, fun _ _ => .nil⟩
  | @both x left left' _ ih =>
    have answers : (d.refit s w).cannotAnswer = false := cannotAnswer_eq_false whole
    have answers' : (d.refit s' w').cannotAnswer = false :=
      cannotAnswer_eq_false (sink.isWhole.trans whole)
    rw [Connection.readItems, Connection.readItems, answers, answers']
    simp only [Bool.false_eq_true, if_false]
    cases x.readEnd? with
    | none =>
      simp only [answer_refit]
      exact ih (sink.reply x) ((s.isWhole_reply x).trans whole)
    | some reason =>
      simp only [answer_refit]
      refine Resembles.stop (sink.reply x) ?_ (fun _ => rfl) w w'
      exact attempt
  | @extra x hx _ rest' _ ih =>
    have answers' : (d.refit s' w').cannotAnswer = false :=
      cannotAnswer_eq_false (sink.isWhole.trans whole)
    have passed : Connection.readItems v' (x :: rest') (d.refit s' w') =
        Connection.readItems v' rest' (d.refit (s'.reply x) w') := by
      rw [Connection.readItems, answers', Inbound.isHarmless_iff.mp hx.1, ← answer_refit]
      rfl
    rw [passed]
    exact ih (sink.replyFurther hx.1 hx.2) whole

/-- A reader whose link was cut ends at its turn. -/
theorem Warned.read (h : c.Warned) (cut : c.sink.isWhole = false) {v : Watch} (hw : c.watch = some v)
    (he : v.ended = none) :
    ∃ rest reason sink, sink.isWhole = false ∧
      c.read = stopReading { v with inbound := rest } reason (c.refit sink c.watch) := by
  have reads := c.reads
  generalize c.read = d at reads
  cases reads with
  | idle hn =>
    rw [hw, readEnd?_of_watch hw, he] at hn
    rcases hn with hn | hn <;> cases hn
  | goOn w sink hw' _ _ quiet =>
    obtain rfl := Option.some.inj (hw'.symm.trans hw)
    obtain ⟨x, hx, harm⟩ := h cut w hw he
    rw [Inbound.isHarmless_iff.mpr (quiet x hx)] at harm
    cases harm
  | stop w sink rest reason hw' _ _ whole =>
    obtain rfl := Option.some.inj (hw'.symm.trans hw)
    exact ⟨rest, reason, sink, whole.trans cut, rfl⟩

theorem read_of_none (hw : c.watch = none) : c.read = c := by
  rw [Connection.read, hw]

theorem read_of_ended {v : Watch} (hw : c.watch = some v) (he : v.ended.isSome) : c.read = c := by
  simp only [Connection.read, hw, he, if_true]

theorem read_of_signalled {v : Watch} (hw : c.watch = some v) (he : v.ended = none)
    (hs : c.signalled) : c.read = stopReading v .dropped c := by
  simp [Connection.read, hw, he, hs]

theorem read_of_listens {v : Watch} (hw : c.watch = some v) (he : v.ended = none)
    (hs : c.signalled = false) : c.read = Connection.readItems v v.inbound c := by
  simp [Connection.read, hw, he, hs]

/-- A turn of the reader on both sides. -/
theorem Resembles.read (h : Resembles pinged c c') (warned : c.Warned) (warned' : c'.Warned) :
    Resembles pinged c.read c'.read := by
  have h₀ := h
  obtain ⟨sink, watch⟩ := h
  rename_i s w
  cases hw : c.watch with
  | none =>
    rw [hw] at watch
    cases watch
    rwa [read_of_none hw, read_of_none rfl]
  | some v =>
    rw [hw] at watch
    cases watch with
    | @some _ v' alike =>
      cases he : v.ended with
      | some r =>
        have halted : v.ended.isSome := by rw [he]; rfl
        rwa [read_of_ended hw halted,
          read_of_ended (c := c.refit s (some v')) rfl (alike.halted.trans halted)]
      | none =>
        have he' : v'.ended = none := by simpa [he] using alike.halted
        cases hs : c.signalled with
        | true =>
          rw [read_of_signalled hw he hs, read_of_signalled (c := c.refit s (some v')) rfl he' hs]
          exact .stop (d := c) sink alike.attempt (fun _ => rfl) c.watch (some v')
        | false =>
          cases whole : c.sink.isWhole with
          | true =>
            rw [read_of_listens hw he hs, read_of_listens (c := c.refit s (some v')) rfl he' hs]
            exact Resembles.readItems (alike.inbound whole he) alike.attempt he he' (d := c) sink whole
              c.watch (some v')
          | false =>
            have cut' : (c.refit s (some v')).sink.isWhole = false := sink.isWhole.trans whole
            obtain ⟨rest, reason, e, broken, left⟩ := warned.read whole hw he
            obtain ⟨rest', reason', e', broken', right⟩ := warned'.read cut' rfl he'
            rw [left, right]
            refine Resembles.stop (d := c) (.of_cut broken broken') ?_ (fun whole => ?_) _ _
            · exact alike.attempt
            · rw [broken] at whole
              cases whole

/-- A turn more of a reader that otherwise has nothing before it. -/
theorem Resembles.readFurther (h : Resembles pinged c c') (listens : c.Listens) (warned : c.Warned) :
    Resembles pinged c c'.read := by
  have h₀ := h
  obtain ⟨sink, watch⟩ := h
  rename_i s w
  cases hw : c.watch with
  | none =>
    rw [hw] at watch
    cases watch
    rwa [read_of_none rfl]
  | some v =>
    rw [hw] at watch
    cases watch with
    | @some _ v' alike =>
      cases he : v.ended with
      | some r =>
        have halted : v.ended.isSome := by rw [he]; rfl
        rwa [read_of_ended (c := c.refit s (some v')) rfl (alike.halted.trans halted)]
      | none =>
        have he' : v'.ended = none := by simpa [he] using alike.halted
        obtain ⟨hs, empty⟩ := listens v hw he
        cases whole : c.sink.isWhole with
        | true =>
          have still : Connection.readItems v v.inbound (c.refit c.sink c.watch) = c := by
            have same : { v with inbound := [] } = v := by rw [← empty]
            rw [empty, Connection.readItems, same, ← hw]
            rfl
          have turn := Resembles.readItems (alike.inbound whole he) alike.attempt he he' (d := c) sink
            whole c.watch (some v')
          rw [read_of_listens (c := c.refit s (some v')) rfl he' hs]
          rwa [still] at turn
        | false =>
          obtain ⟨x, hx, -⟩ := warned whole v hw he
          rw [empty] at hx
          cases hx

/-! ### The client -/

theorem Resembles.hear (h : Resembles pinged c c') (item : Inbound) :
    Resembles pinged (c.hear item) (c'.hear item) := by
  obtain ⟨sink, watch⟩ := h
  rename_i s w
  refine .refit (c := c.hear item) (s := s) (w := w.map _) sink ?_
  change Option.Rel _ (c.watch.map _) _
  generalize c.watch = v at watch
  cases watch with
  | none => exact .none
  | some alike =>
    exact .some ⟨alike.attempt, alike.halted, alike.reason, fun whole on =>
      (alike.inbound whole on).append (.refl [item])⟩

/-- A harmless item on top. -/
theorem Resembles.hearFurther (h : Resembles pinged c c') {item : Inbound} (harmless : item.isHarmless)
    (ping : ∀ b, item = .ping b → pinged) : Resembles pinged c (c'.hear item) := by
  obtain ⟨sink, watch⟩ := h
  rename_i s w
  refine .refit (s := s) (w := w.map _) sink ?_
  generalize c.watch = v at watch
  cases watch with
  | none => exact .none
  | some alike =>
    exact .some ⟨alike.attempt, alike.halted, alike.reason, fun whole on =>
      (alike.inbound whole on).snoc ⟨harmless, ping⟩⟩

theorem Resembles.behave (h : Resembles pinged c c') (g : Probe → Probe) :
    Resembles pinged { c with sink := c.sink.mapProbe g } { c' with sink := c'.sink.mapProbe g } := by
  obtain ⟨sink, watch⟩ := h
  exact .resink (d := { c with sink := c.sink.mapProbe g }) (sink.mapProbe g) watch rfl
    (c.sink.isWhole_mapProbe g)

theorem Resembles.cutOff (h : Resembles pinged c c') :
    Resembles pinged { c with sink := c.sink.mapLink fun l => { l with cut := true } }
      { c' with sink := c'.sink.mapLink fun l => { l with cut := true } } := by
  obtain ⟨sink, watch⟩ := h
  rename_i s w
  let d : Connection := { c with sink := c.sink.mapLink fun l => { l with cut := true } }
  refine .refit (c := d) (sink.mapLink fun l l' _ => .of_cut rfl rfl) ?_
  have less : d.sink.isWhole → c.sink.isWhole := by
    intro whole
    cases before : c.sink.isWhole with
    | true => rfl
    | false => exact (c.sink.isWhole_cut before).symm.trans whole
  change Option.Rel _ c.watch _
  generalize c.watch = v at watch
  cases watch with
  | none => exact .none
  | some alike =>
    exact .some ⟨alike.attempt, alike.halted, fun whole => alike.reason (less whole),
      fun whole => alike.inbound (less whole)⟩

theorem Resembles.isSome_readEnd? (h : Resembles pinged c c') :
    c'.readEnd?.isSome = c.readEnd?.isSome := by
  obtain ⟨-, watch⟩ := h
  rw [readEnd?, readEnd?, Connection.refit]
  generalize c.watch = v at watch
  cases watch with
  | none => rfl
  | some alike => exact alike.halted

theorem Resembles.isGone (h : Resembles pinged c c') : c'.isGone = c.isGone := by
  rw [Connection.isGone, Connection.isGone, h.isSome_readEnd?]
  obtain ⟨-, -⟩ := h
  rfl

theorem Resembles.fetch (h : Resembles pinged c c') (room : pinged → c'.sink.hasRoom) :
    Resembles pinged c.fetch c'.fetch := by
  have gone := h.isGone
  obtain ⟨sink, watch⟩ := h
  rename_i s w
  have read {l l' : Link} (hl : Link.Resembles pinged l l') (room : pinged → l'.hasRoom) :
      Link.Resembles pinged (Service.readOnce c l).2 (Service.readOnce (c.refit s w) l').2 := by
    refine ⟨hl.cut, hl.closeSent, hl.peerClosed, fun whole => ?_⟩
    have left : (Service.readOnce (c.refit s w) l').2.unread = (if c.isGone then []
        else (Link.read (min l'.pending Link.capacity) l'.unread).2) := by
      rw [← gone]
      rfl
    change Padded _ (if c.isGone then [] else (Link.read (min l.pending Link.capacity) l.unread).2) _
    rw [left]
    split
    · exact .nil
    · exact hl.read room whole
  refine .resink (d := c.fetch) ?_ watch rfl (c.sink.isWhole_mapLink fun l => rfl)
  change Sink.Resembles pinged (c.sink.mapLink _) (s.mapLink _)
  generalize c.sink = e at sink
  cases sink with
  | probe p => exact .probe p
  | link hl => exact .link (read hl room)

/-! ### Any act -/

theorem acceptance_refit (f : Frame) : (c.refit s w).acceptance t f = c.acceptance t f := by
  rw [acceptance, acceptance, deliver_refit]
  cases c.deliver t.capacity f <;> rfl

theorem offering_refit (body : Octets) (tag : Tenant) :
    (c.refit s w).offering t body tag = c.offering t body tag := by
  rw [offering, offering, acceptance_refit]
  rfl

theorem handing_refit (b : Bridge) (body : Octets) :
    (c.refit s w).handing t b body = c.handing t b body := by
  simp only [handing, offering_refit]
  rfl

/-- What befalls both leads to the same on both, and the same is noticed of it. -/
theorem Resembles.act (h : Resembles pinged c c') (a : Act) (room : pinged → c'.sink.hasRoom)
    (warned : c.Warned) (warned' : c'.Warned) :
    Resembles pinged (c.act t a) (c'.act t a) ∧ c'.incidents t a = c.incidents t a := by
  cases a with
  | deliver f =>
    refine ⟨h.ignore (ignores_enqueue t f), ?_⟩
    obtain ⟨-, -⟩ := h
    exact acceptance_refit f
  | broadcast body tag =>
    refine ⟨h.ignore (ignores_offer t body tag), ?_⟩
    obtain ⟨-, -⟩ := h
    exact offering_refit body tag
  | hand b body =>
    refine ⟨h.ignore (ignores_hand t b body), ?_⟩
    obtain ⟨-, -⟩ := h
    exact handing_refit b body
  | remove => exact ⟨h.ignore ignores_remove, rfl⟩
  | write now => exact ⟨h.write room now, h.writing room now⟩
  | read => exact ⟨h.read warned warned', rfl⟩
  | behave p => exact ⟨h.behave _, rfl⟩
  | receive item => exact ⟨h.hear item, rfl⟩
  | cut => exact ⟨h.cutOff, rfl⟩
  | fetch => exact ⟨h.fetch room, rfl⟩

/-- Bodies handed over one after another. -/
theorem Resembles.hands (h : Resembles pinged c c') (b : Bridge) (bodies : List Octets) :
    Resembles pinged (c.acts t (bodies.map (.hand b))) (c'.acts t (bodies.map (.hand b))) ∧
      c'.history t (bodies.map (.hand b)) = c.history t (bodies.map (.hand b)) := by
  induction bodies generalizing c c' with
  | nil => exact ⟨h, rfl⟩
  | cons body rest ih =>
    have handed : c'.handing t b body = c.handing t b body := by
      obtain ⟨-, -⟩ := h
      exact handing_refit b body
    obtain ⟨later, history⟩ := ih (h.ignore (ignores_hand t b body))
    exact ⟨later, congrArg₂ (· ++ ·) handed history⟩

end Connection

end Fanout.Live
