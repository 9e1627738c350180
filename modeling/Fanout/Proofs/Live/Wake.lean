import Mathlib.Order.Defs.Unbundled
import Fanout.Proofs.Live.Run
import Fanout.Proofs.Live.Stride

/-!
Whoever has something to do is ready. An operation that gives a writer something to do wakes it, so
a writer that is not ready waits for its sink or for its deadline, in every run and however the
turns are taken.
-/

namespace Fanout.Live

/-! ### What does not concern a writer -/

/-- The sink is no nearer to what a writer may wait for. -/
structure Sink.Hesitates (s s' : Sink) : Prop where
  ready : s.ready = .pending → s'.ready = .pending
  flush : s.flush = .pending → s'.flush = .pending
  close : s.close = .pending → s'.close = .pending

theorem Sink.Hesitates.refl (s : Sink) : s.Hesitates s := ⟨id, id, id⟩

namespace Link

theorem pending_push (l : Link) (f : Frame) : (l.push f).pending = l.pending + f.wireSize := by
  change ((l.unread ++ [(f, f.wireSize)]).map Prod.snd).sum = (l.unread.map Prod.snd).sum + f.wireSize
  simp

theorem flush_eq_pending_iff {l : Link} :
    l.flush = .pending ↔ l.cut = false ∧ capacity < l.pending := by
  unfold flush
  cases l.cut <;> cases l.peerClosed <;> by_cases h : capacity < l.pending <;> simp [h]

theorem close_eq_pending_iff {l : Link} :
    l.close = .pending ↔ l.cut = false ∧ capacity < l.pending := by
  unfold close
  cases l.cut <;> by_cases h : capacity < l.pending <;> simp [h]

theorem cut_answerPing (b : Octets) (l : Link) : (l.answerPing b).cut = l.cut := by
  unfold answerPing
  split <;> rfl

theorem ready_answerPing (b : Octets) (l : Link) : (l.answerPing b).ready = l.ready := by
  unfold answerPing
  split <;> rfl

/-- An answer to a ping only adds to what is not read yet. -/
theorem pending_le_answerPing (b : Octets) (l : Link) : l.pending ≤ (l.answerPing b).pending := by
  unfold answerPing
  split
  · exact Nat.le_refl _
  · exact Nat.le.intro (l.pending_push (.pong b)).symm

theorem hesitates_answerPing (b : Octets) (l : Link) :
    (Sink.link l).Hesitates (.link (l.answerPing b)) where
  ready := (l.ready_answerPing b).trans
  flush := by
    intro h
    obtain ⟨hc, hp⟩ := flush_eq_pending_iff.mp h
    have := l.pending_le_answerPing b
    exact flush_eq_pending_iff.mpr ⟨(l.cut_answerPing b).trans hc, by omega⟩
  close := by
    intro h
    obtain ⟨hc, hp⟩ := close_eq_pending_iff.mp h
    have := l.pending_le_answerPing b
    exact close_eq_pending_iff.mpr ⟨(l.cut_answerPing b).trans hc, by omega⟩

end Link

namespace Connection

/-- The writer goes on as before, and if there was nothing for it to do, there is nothing now. -/
structure Spares (c d : Connection) : Prop where
  writer : d.writer = c.writer
  awaited : c.awaited = .pending → d.awaited = .pending

namespace Spares

variable {c d e : Connection}

theorem refl (c : Connection) : Spares c c := ⟨rfl, id⟩

theorem trans (h : Spares c d) (h' : Spares d e) : Spares c e :=
  ⟨h'.writer.trans h.writer, h'.awaited ∘ h.awaited⟩

theorem of_watch (c : Connection) (watch : Option Watch) : Spares c { c with watch := watch } :=
  ⟨rfl, id⟩

theorem of_sink {sink : Sink} (h : c.sink.Hesitates sink) : Spares c { c with sink := sink } := by
  refine ⟨rfl, ?_⟩
  unfold Connection.awaited
  rcases c.writer with _ | ⟨f, _ | _, d⟩ | ⟨_ | _, d⟩ | ⟨ending, d⟩ | ending
  · exact id
  · exact h.ready
  · exact h.flush
  · exact h.ready
  · exact h.flush
  · exact h.close
  · exact id

theorem waits {now : Nat} (h : Spares c d) (hc : c.Waits now) : d.Waits now :=
  ⟨h.awaited hc.awaited, by rw [h.writer]; exact hc.early⟩

theorem answer {item : Inbound} (hi : item.readEnd? = none) (c : Connection) :
    Spares c (c.answer item) := by
  cases item with
  | ping b =>
    refine of_sink ?_
    cases c.sink with
    | probe p => exact .refl _
    | link l => exact l.hesitates_answerPing b
  | close reason => cases hi
  | error => cases hi
  | finish => cases hi
  | text s => exact refl c
  | binary b => exact refl c
  | pong b => exact refl c

instance : IsPreorder Connection Spares where
  refl := refl
  trans _ _ _ := trans

end Spares

/-- A reader that goes on does not concern the writer. -/
theorem read_spares (c : Connection) :
    Spares c c.read ∨ c.readEnd? = none ∧ c.read.readEnd?.isSome := by
  have items (w : Watch) (l : List Inbound) (c : Connection) :
      Spares c (readItems w l c) ∨ (readItems w l c).readEnd?.isSome := by
    have stopped (w : Watch) (reason : ReadEnd) (c : Connection) :
        (c.stopReading w reason).readEnd?.isSome := by
      simp [stopReading, readEnd?]
    induction l generalizing c with
    | nil => exact .inl (.of_watch c _)
    | cons item rest ih =>
      unfold readItems
      split
      · exact .inr (stopped _ _ _)
      · split
        · exact .inr (stopped _ _ _)
        · next hi => exact (ih (c.answer item)).imp_left (Spares.answer hi c).trans
  unfold read
  cases hw : c.watch with
  | none => exact .inl (.refl c)
  | some w =>
    simp only
    split
    · exact .inl (.refl c)
    · next he =>
      have hn : c.readEnd? = none := by simpa [readEnd?, hw] using he
      split
      · exact .inr ⟨hn, by simp [stopReading, readEnd?]⟩
      · exact (items w w.inbound c).imp_right fun h => ⟨hn, h⟩

end Connection

namespace Service

theorem mem_ready_wake {s : Service} {tasks : List Task} {t : Task} :
    t ∈ (s.wake tasks).ready ↔ t ∈ s.ready ∨ t ∈ tasks := by
  have go (ready : List Task) : t ∈ tasks.foldl
      (fun ready t => if t ∈ ready then ready else ready ++ [t]) ready ↔ t ∈ ready ∨ t ∈ tasks := by
    induction tasks generalizing ready with
    | nil => simp
    | cons a rest ih =>
      rw [List.foldl_cons, ih]
      split
      · next ha =>
        constructor
        · rintro (h | h)
          · exact .inl h
          · exact .inr (List.mem_cons_of_mem a h)
        · rintro (h | h)
          · exact .inl h
          · rcases List.mem_cons.mp h with rfl | h
            · exact .inl ha
            · exact .inr h
      · simp [or_assoc]
  exact go s.ready

/-- Nobody who was ready is forgotten, and of each connection a certain task is ready or the
connection stands in a certain relation to what it was. -/
structure Rousing (task : Nat → Task) (R : Connection → Connection → Prop) (s s' : Service) :
    Prop where
  ready : s.ready ⊆ s'.ready
  roused : ∀ i c, s.connections[i]? = some c → ∃ d, s'.connections[i]? = some d ∧
    (task i ∈ s'.ready ∨ R c d)

namespace Rousing

variable {task : Nat → Task} {R : Connection → Connection → Prop} {s s' s'' : Service}

/-- An operation on all connections alike. -/
theorem of_map {f : Connection → Connection}
    (hc : s'.connections = s.connections.map f) (hr : s.ready ⊆ s'.ready)
    (hf : ∀ i c, s.connections[i]? = some c → task i ∈ s'.ready ∨ R c (f c)) :
    Rousing task R s s' where
  ready := hr
  roused := fun i c h => ⟨f c, by simp [hc, h], hf i c h⟩

variable [IsPreorder Connection R]

theorem trans (h : Rousing task R s s') (h' : Rousing task R s' s'') : Rousing task R s s'' where
  ready := fun _ ht => h'.ready (h.ready ht)
  roused := by
    intro i c hc
    obtain ⟨d, hd, hr⟩ := h.roused i c hc
    obtain ⟨e, he, hr'⟩ := h'.roused i d hd
    refine ⟨e, he, ?_⟩
    rcases hr with hr | hr
    · exact .inl (h'.ready hr)
    · exact hr'.imp_right (IsTrans.trans c d e hr)

theorem of_eq (hc : s'.connections = s.connections) (hr : s.ready ⊆ s'.ready) :
    Rousing task R s s' where
  ready := hr
  roused := fun _ c h => ⟨c, hc ▸ h, .inr (Std.Refl.refl c)⟩

theorem refl (s : Service) : Rousing task R s s := of_eq rfl (List.Subset.refl _)

theorem wake (s : Service) (tasks : List Task) : Rousing task R s (s.wake tasks) :=
  of_eq rfl fun _ h => mem_ready_wake.mpr (.inl h)

/-- An operation on one connection. -/
theorem of_modify {j : Nat} {f : Connection → Connection}
    (hc : s'.connections = s.connections.modify j f) (hr : s.ready ⊆ s'.ready)
    (hj : ∀ c, s.connections[j]? = some c → task j ∈ s'.ready ∨ R c (f c)) :
    Rousing task R s s' where
  ready := hr
  roused := by
    intro i c h
    rw [hc, List.getElem?_modify, h]
    by_cases hi : j = i
    · subst hi
      exact ⟨f c, by simp, hj c h⟩
    · exact ⟨c, by simp [hi], .inr (Std.Refl.refl c)⟩

end Rousing

/-- A writer that is given something to do is ready. -/
abbrev Alert : Service → Service → Prop := Rousing .writer Connection.Spares

/-! ### The operations -/

variable (s : Service)

theorem ready_subset_wake (tasks : List Task) : s.ready ⊆ (s.wake tasks).ready :=
  fun _ h => mem_ready_wake.mpr (.inl h)

theorem ready_subset_remove (i : Nat) : s.ready ⊆ (s.remove i).2.ready := by
  unfold remove
  split
  · split
    · exact ready_subset_wake _ _
    · exact List.Subset.refl _
  · exact List.Subset.refl _

theorem ready_subset_deliver (i : Nat) (f : Frame) : s.ready ⊆ (s.deliver i f).2.ready := by
  unfold deliver
  split
  · exact List.Subset.refl _
  · split
    · exact List.Subset.refl _
    · exact ready_subset_wake _ _

theorem ready_subset_runWriter (i : Nat) : s.ready ⊆ (s.runWriter i).ready := by
  unfold runWriter
  split
  · exact List.Subset.refl _
  · simp only
    split
    · exact ready_subset_wake _ _
    · exact List.Subset.refl _

theorem ready_subset_runReader (i : Nat) : s.ready ⊆ (s.runReader i).ready := by
  unfold runReader
  split
  · exact List.Subset.refl _
  · simp only
    split
    · exact ready_subset_wake _ _
    · exact List.Subset.refl _

theorem alert_remove (i : Nat) : Alert s (s.remove i).2 := by
  refine Rousing.of_modify (s.connections_remove i) (s.ready_subset_remove i) ?_
  intro c hc
  cases hr : c.registered with
  | true =>
    left
    simp only [remove, hc, hr, if_true]
    exact mem_ready_wake.mpr (.inr List.mem_cons_self)
  | false =>
    right
    rw [Connection.remove_of_not_registered hr]
    exact .refl c

theorem alert_deliver (i : Nat) (f : Frame) : Alert s (s.deliver i f).2 := by
  refine Rousing.of_modify (s.connections_deliver i f) (s.ready_subset_deliver i f) ?_
  intro c hc
  cases hd : c.deliver s.tuning.capacity f with
  | error e =>
    right
    simp only [Connection.enqueue, hd]
    exact .refl c
  | ok d =>
    left
    simp only [deliver, hc, hd]
    exact mem_ready_wake.mpr (.inr List.mem_cons_self)

theorem alert_broadcast (body : Octets) (tag : Tenant) : Alert s (s.broadcast body tag).2 := by
  refine Rousing.of_map (s.connections_broadcast body tag)
    (ready_subset_wake _ _) ?_
  intro i c hc
  unfold Connection.offer
  split
  · next ht =>
    left
    refine mem_ready_wake.mpr (.inr (List.mem_append_left _ ?_))
    exact List.mem_map_of_mem (mem_numbers.mpr ⟨c, hc, ht⟩)
  · exact .inr (.refl c)

theorem spreading_alert : Spreading Alert where
  still := fun hc hr => .of_eq hc (hr ▸ List.Subset.refl _)
  trans := Rousing.trans
  broadcast := alert_broadcast

theorem ready_subset_feed (i : Nat) (item : Option Delivery) (last : Bool) :
    s.ready ⊆ (s.feed i item last).2.ready := by
  unfold feed
  split
  · exact List.Subset.refl _
  · exact ready_subset_wake _ _

theorem alert_feed (i : Nat) (item : Option Delivery) (last : Bool) :
    Alert s (s.feed i item last).2 :=
  .of_eq (s.feed_spec i item last).2 (s.ready_subset_feed i item last)

theorem alert_runReader (i : Nat) : Alert s (s.runReader i) := by
  refine Rousing.of_modify (s.connections_runReader i) (s.ready_subset_runReader i) ?_
  intro c hc
  obtain h | ⟨hn, he⟩ := c.read_spares
  · exact .inr h
  · left
    obtain ⟨reason, he⟩ := Option.isSome_iff_exists.mp he
    simp only [runReader, hc, hn, he]
    exact mem_ready_wake.mpr (.inr (by simp))

/-- What wakes the writer of a connection may do with it what it likes. -/
theorem alert_modify_wake (i : Nat) (f : Connection → Connection) {tasks : List Task}
    (ht : .writer i ∈ tasks) : Alert s ((s.modify i f).wake tasks) :=
  .of_modify rfl (ready_subset_wake _ _)
    fun _ _ => .inl (mem_ready_wake.mpr (.inr ht))

theorem alert_receive (i : Nat) (item : Inbound) : Alert s (s.receive i item) :=
  .of_modify rfl (ready_subset_wake _ _) fun c _ => .inr (.of_watch c _)

theorem alert_register (who : Bearer) (sink : Sink) (reads : Bool) :
    Alert s (s.perform (.register who sink reads)) := by
  rw [perform_register]
  split
  · exact .refl s
  · refine ⟨ready_subset_wake _ _, fun i c hc => ⟨c, ?_, .inr (.refl c)⟩⟩
    have hi : i < s.connections.length := (List.getElem?_eq_some_iff.mp hc).1
    rw [connections_wake, List.getElem?_append_left hi, hc]

/-- Every move but a writer's turn. -/
theorem alert_perform {m : Move} (hm : ∀ task, m ≠ .turn task) : Alert s (s.perform m) := by
  cases m with
  | register who sink reads => exact s.alert_register who sink reads
  | remove i => exact s.alert_remove i
  | deliver i f => exact s.alert_deliver i f
  | broadcast body tag => exact s.alert_broadcast body tag
  | hand b body => exact spreading_alert.dispatch s b body
  | play b broker => exact spreading_alert.playBridge s b broker
  | spawn b broker => exact .of_eq rfl (ready_subset_wake _ _)
  | feed run item last => exact s.alert_feed run item last
  | behave i p => exact s.alert_modify_wake i _ (by simp)
  | receive i item => exact s.alert_receive i item
  | cutOff i =>
    refine Rousing.of_modify (j := i) (f := fun c => (c.act s.tuning .cut).act s.tuning
      (.receive .error)) ?_ (fun _ h => ?_) fun _ _ => .inl (mem_ready_wake.mpr (.inr (by simp)))
    · exact List.modify_modify_eq _ _ _ _
    · exact mem_ready_wake.mpr (.inl (mem_ready_wake.mpr (.inl h)))
  | fetch i => exact s.alert_modify_wake i _ (by simp)
  | turn task => exact absurd rfl (hm task)
  | wake tasks => exact .wake s tasks
  | tick ms => exact .of_eq rfl (List.Subset.refl _)
  | setStatus status => exact .of_eq rfl (List.Subset.refl _)

variable {s}

/-- A new connection's writer is ready. -/
theorem ready_of_new {i : Nat} {c : Connection} {m : Move} (hn : s.connections[i]? = none)
    (hc : (s.perform m).connections[i]? = some c) : .writer i ∈ (s.perform m).ready := by
  obtain ⟨rfl, hl, who, sink, reads, rfl, -⟩ := registered_of_perform hn hc
  rw [perform_register, if_neg (Nat.not_lt.mpr hl)]
  refine mem_ready_wake.mpr (.inr ?_)
  cases reads <;> simp

/-! ### Runs -/

/-- Of every connection a certain task is ready or the connection is at rest, in one sense or
another. -/
def Rested (task : Nat → Task) (P : Connection → Prop) (s : Service) : Prop :=
  ∀ i c, s.connections[i]? = some c → task i ∈ s.ready ∨ P c

section Rested

variable {task : Nat → Task} {R : Connection → Connection → Prop} {P : Connection → Prop}
  {s' : Service}

theorem Rested.rouse (hs : s.Rested task P) (ha : Rousing task R s s')
    (spare : ∀ c d, R c d → P c → P d)
    (new : ∀ i c, s.connections[i]? = none → s'.connections[i]? = some c →
      task i ∈ s'.ready ∨ P c) : s'.Rested task P := by
  intro i d hd
  cases hc : s.connections[i]? with
  | none => exact new i d hc hd
  | some c =>
    obtain ⟨d', hd', h⟩ := ha.roused i c hc
    obtain rfl : d' = d := Option.some.inj (hd'.symm.trans hd)
    rcases h with h | h
    · exact .inl h
    · exact (hs i c hc).imp (fun hr => ha.ready hr) (spare c d' h)

theorem Rested.erase (hs : s.Rested task P) {other : Task} (ht : ∀ i, other ≠ task i) :
    Rested task P { s with ready := s.ready.erase other } := by
  intro i c hc
  refine (hs i c hc).imp_left fun hr => ?_
  exact (List.mem_erase_of_ne (ht i).symm).mpr hr

/-- After a turn of such a task its connection is at rest. -/
theorem Rested.turn (hs : s.Rested task P) (inj : Function.Injective task) {j : Nat}
    {f : Connection → Connection} (hc : s'.connections = s.connections.modify j f)
    (hr : s.ready.erase (task j) ⊆ s'.ready) (hp : ∀ c, P (f c)) : s'.Rested task P := by
  intro i d hd
  rw [hc, List.getElem?_modify, Option.map_eq_map, Option.map_eq_some_iff] at hd
  obtain ⟨c, hc, rfl⟩ := hd
  by_cases hj : j = i
  · rw [if_pos hj]
    exact .inr (hp c)
  · rw [if_neg hj]
    refine (hs i c hc).imp_left fun ht => hr ?_
    exact (List.mem_erase_of_ne fun h => hj (inj h).symm).mpr ht

end Rested

variable {P : Connection → Prop}

/-- Writers go on to be ready or at rest if they are at rest after their turns. -/
theorem Rested.perform (hs : s.Rested .writer P) (spare : ∀ c d, c.Spares d → P c → P d)
    (driven : ∀ c : Connection, P (c.drive s.tuning.writeTimeout s.now)) (m : Move) :
    (s.perform m).Rested .writer P := by
  have others {m : Move} (ha : Alert s (s.perform m)) : (s.perform m).Rested .writer P :=
    hs.rouse ha spare fun i c hn hc => .inl (ready_of_new hn hc)
  cases m with
  | turn task =>
    cases task with
    | writer j =>
      exact hs.turn (fun _ _ => Task.writer.inj) (connections_runWriter _ j)
        (ready_subset_runWriter { s with ready := s.ready.erase (.writer j) } j) driven
    | reader j =>
      exact (hs.erase (by simp)).rouse (alert_runReader _ j) spare
        fun i c hn hc => .inl (ready_of_new (m := .turn (.reader j)) hn hc)
    | bridge j =>
      exact (hs.erase (by simp)).rouse (spreading_alert.runBridge _ j) spare
        fun i c hn hc => .inl (ready_of_new (m := .turn (.bridge j)) hn hc)
  | _ => exact others (s.alert_perform nofun)

/-- Writers that are not ready have nothing to do before their deadlines. -/
def Watched (s : Service) : Prop := s.Rested .writer fun c => c.awaited = .pending

theorem Watched.perform (hs : s.Watched) (m : Move) : (s.perform m).Watched :=
  Rested.perform hs (fun _ _ h => h.awaited)
    (fun c => (Connection.waits_drive s.tuning.writeTimeout s.now c).awaited) m

theorem watched_start (t : Tuning) : (start t).Watched := by
  intro i c hc
  simp [start] at hc

theorem Watched.after (hs : s.Watched) (moves : List Move) : (s.after moves).Watched := by
  induction moves generalizing s with
  | nil => exact hs
  | cons m rest ih => exact ih (hs.perform m)

/-- Nobody is ready, and no deadline has come. -/
def Settled (s : Service) : Prop := s.ready = [] ∧ s.due = []

instance (s : Service) : Decidable s.Settled := inferInstanceAs (Decidable (_ ∧ _))

theorem early_of_due {i : Nat} {c : Connection} (hs : s.due = [])
    (hc : s.connections[i]? = some c) : ∀ d, c.writer.deadline? = some d → s.now < d := by
  intro d hd
  have hn : i ∉ s.numbers fun c => c.writer.deadline?.any (· ≤ s.now) := by
    rw [List.map_eq_nil_iff.mp hs]
    exact List.not_mem_nil
  rw [mem_numbers] at hn
  have hl : ¬ d ≤ s.now := fun hl => hn ⟨c, hc, by simp [hd, hl]⟩
  omega

/-- At a settled point every writer waits. -/
theorem Watched.waits (hw : s.Watched) (hs : s.Settled) {i : Nat} {c : Connection}
    (hc : s.connections[i]? = some c) : c.Waits s.now where
  awaited := (hw i c hc).resolve_left (by simp [hs.1])
  early := early_of_due hs.2 hc

/-- Writers that are not ready have nothing to do now. -/
def Poised (s : Service) : Prop := s.Rested .writer (Connection.Waits s.now)

end Service

end Fanout.Live
