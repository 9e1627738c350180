import Fanout.Proofs.Live.Settling

/-!
Readers do not miss anything either. Whatever gives a reader something to look at wakes it, a signal
to close as well as an item from the client, and at its turn it looks at all there is. So a reader
that is not ready and has not ended saw everything that came so far, and was not told to close.
-/

namespace Fanout.Live

namespace Connection

/-- A reader that goes on has nothing before it, neither a signal nor an item. -/
def Listens (c : Connection) : Prop :=
  ∀ w, c.watch = some w → w.ended = none → c.signalled = false ∧ w.inbound = []

/-- The reader is given nothing to look at. -/
def LeavesAlone (c d : Connection) : Prop := c.Listens → d.Listens

namespace LeavesAlone

variable {c d : Connection}

instance : IsPreorder Connection LeavesAlone where
  refl _ := id
  trans _ _ _ h h' := h' ∘ h

theorem of_eq (hw : d.watch = c.watch) (hs : d.signalled = c.signalled) : LeavesAlone c d := by
  intro hc w
  rw [hw, hs]
  exact hc w

theorem enqueue (t : Tuning) (f : Frame) (c : Connection) : LeavesAlone c (c.enqueue t f) := by
  obtain ⟨-, hd⟩ | ⟨-, e, hd⟩ := deliver_cases t.capacity f c
  · exact of_eq (by simp [Connection.enqueue, hd]) (by simp [Connection.enqueue, hd])
  · simp only [Connection.enqueue, hd]
    exact id

/-- A frame that the connection does not miss is nothing to its reader. -/
theorem offer {t : Tuning} {body : Octets} {tag : Tenant} {c : Connection}
    (h : c.isTarget tag → c.accepts t.capacity) : LeavesAlone c (c.offer t body tag) := by
  unfold Connection.offer
  split
  · next ht =>
    have taken := (accepts_iff t.capacity (Frame.ofBody body) c).mp (h ht)
    simp only [receive, taken]
    exact of_eq rfl rfl
  · exact id

end LeavesAlone

theorem listens_of_ended {c : Connection} (h : c.readEnd?.isSome) : c.Listens := by
  intro w hw he
  simp [readEnd?, hw, he] at h

/-- After its turn a reader has nothing before it. -/
theorem listens_read (c : Connection) : c.read.Listens := by
  have stopped (w : Watch) (reason : ReadEnd) (c : Connection) :
      (c.stopReading w reason).Listens :=
    listens_of_ended (by simp [stopReading, readEnd?])
  have items (w : Watch) (l : List Inbound) (c : Connection) (hs : c.signalled = false) :
      (readItems w l c).Listens := by
    induction l generalizing c with
    | nil =>
      intro w' hw _
      obtain rfl := Option.some.inj hw
      exact ⟨hs, rfl⟩
    | cons item rest ih =>
      unfold readItems
      split
      · exact stopped _ _ _
      · split
        · exact stopped _ _ _
        · refine ih _ ?_
          cases item <;> exact hs
  unfold read
  cases hw : c.watch with
  | none => simp [Listens, hw]
  | some w =>
    simp only
    split
    · next he => exact listens_of_ended (by simpa [readEnd?, hw] using he)
    · split
      · exact stopped _ _ _
      · next hs => exact items w w.inbound c (by simpa using hs)

end Connection

namespace Service

/-- A reader that is given something to look at is ready. -/
abbrev Attentive : Service → Service → Prop := Rousing .reader Connection.LeavesAlone

variable (s : Service)

theorem attentive_remove (i : Nat) : Attentive s (s.remove i).2 := by
  refine Rousing.of_modify (s.connections_remove i) (s.ready_subset_remove i) ?_
  intro c hc
  cases hr : c.registered with
  | true =>
    left
    simp only [remove, hc, hr, if_true]
    exact mem_ready_wake.mpr (.inr (by simp))
  | false =>
    right
    rw [Connection.remove_of_not_registered hr]
    exact id

/-- Those whom a broadcast removes learn of it. -/
theorem attentive_broadcast (body : Octets) (tag : Tenant) :
    Attentive s (s.broadcast body tag).2 := by
  refine Rousing.of_map (s.connections_broadcast body tag) (ready_subset_wake _ _) ?_
  intro i c hc
  by_cases he : c.isTarget tag ∧ c.accepts s.tuning.capacity = false
  · left
    refine mem_ready_wake.mpr (.inr (List.mem_append_right _ (List.mem_map_of_mem ?_)))
    exact mem_numbers.mpr ⟨c, hc, by simp [he.1, he.2]⟩
  · exact .inr (.offer fun ht => by simpa [ht] using he)

theorem spreading_attentive : Spreading Attentive where
  still := fun hc hr => .of_eq hc (hr ▸ List.Subset.refl _)
  trans := Rousing.trans
  broadcast := attentive_broadcast

/-- A writer that removes its connection tells the reader. -/
theorem attentive_runWriter (i : Nat) : Attentive s (s.runWriter i) := by
  refine Rousing.of_modify (s.connections_runWriter i) (s.ready_subset_runWriter i) ?_
  intro c hc
  obtain ⟨kept, watch⟩ := Connection.drive_spec s.tuning.writeTimeout s.now c
  by_cases hs : (c.drive s.tuning.writeTimeout s.now).signalled ∧ c.signalled = false
  · left
    simp only [runWriter, hc, hs, Bool.not_false, Bool.and_self, if_true]
    exact mem_ready_wake.mpr (.inr (by simp))
  · right
    refine .of_eq watch ?_
    cases h : c.signalled with
    | true => exact kept h
    | false => simpa [h] using hs

theorem attentive_perform {m : Move} (hm : ∀ task, m ≠ .turn task) :
    Attentive s (s.perform m) := by
  cases m with
  | register who sink reads =>
    rw [perform_register]
    split
    · exact .refl s
    · refine ⟨ready_subset_wake _ _, fun i c hc => ⟨c, ?_, .inr id⟩⟩
      have hi : i < s.connections.length := (List.getElem?_eq_some_iff.mp hc).1
      rw [connections_wake, List.getElem?_append_left hi, hc]
  | remove i => exact s.attentive_remove i
  | deliver i f =>
    exact .of_modify (s.connections_deliver i f) (s.ready_subset_deliver i f)
      fun c _ => .inr (.enqueue s.tuning f c)
  | broadcast body tag => exact s.attentive_broadcast body tag
  | hand b body => exact spreading_attentive.dispatch s b body
  | play b broker => exact spreading_attentive.playBridge s b broker
  | spawn b broker => exact .of_eq rfl (ready_subset_wake _ _)
  | feed run item last => exact .of_eq (s.feed_spec run item last).2 (s.ready_subset_feed run item last)
  | behave i p => exact .of_modify rfl (ready_subset_wake _ _) fun c _ => .inr (.of_eq rfl rfl)
  | receive i item =>
    exact .of_modify rfl (ready_subset_wake _ _) fun c _ => .inl (mem_ready_wake.mpr (.inr (by simp)))
  | cutOff i =>
    refine Rousing.of_modify (j := i) (f := fun c => (c.act s.tuning .cut).act s.tuning
      (.receive .error)) ?_ (fun _ h => ?_) fun _ _ => .inl ?_
    · exact List.modify_modify_eq _ _ _ _
    · exact mem_ready_wake.mpr (.inl (mem_ready_wake.mpr (.inl h)))
    · exact mem_ready_wake.mpr (.inl (mem_ready_wake.mpr (.inr (by simp))))
  | fetch i => exact .of_modify rfl (ready_subset_wake _ _) fun c _ => .inr (.of_eq rfl rfl)
  | turn task => exact absurd rfl (hm task)
  | wake tasks => exact .wake s tasks
  | tick ms => exact .of_eq rfl (List.Subset.refl _)
  | setStatus status => exact .of_eq rfl (List.Subset.refl _)

/-- A new reader is ready. -/
theorem listens_of_new {i : Nat} {c : Connection} {m : Move} (hn : s.connections[i]? = none)
    (hc : (s.perform m).connections[i]? = some c) :
    .reader i ∈ (s.perform m).ready ∨ c.Listens := by
  obtain ⟨rfl, hl, who, sink, reads, rfl, rfl⟩ := registered_of_perform hn hc
  cases reads with
  | true =>
    left
    rw [perform_register, if_neg (Nat.not_lt.mpr hl)]
    exact mem_ready_wake.mpr (.inr (by simp))
  | false => exact .inr nofun

/-- Readers that are not ready have nothing to look at. -/
def Heard (s : Service) : Prop := s.Rested .reader Connection.Listens

variable {s}

theorem Heard.perform (hs : s.Heard) (m : Move) : (s.perform m).Heard := by
  have spare (c d : Connection) (h : c.LeavesAlone d) : c.Listens → d.Listens := h
  cases m with
  | turn task =>
    cases task with
    | writer j =>
      exact (Rested.erase hs (by simp)).rouse (attentive_runWriter _ j) spare
        fun i c hn hc => listens_of_new s (m := .turn (.writer j)) hn hc
    | reader j =>
      exact Rested.turn hs (fun _ _ => Task.reader.inj) (connections_runReader _ j)
        (ready_subset_runReader { s with ready := s.ready.erase (.reader j) } j)
        Connection.listens_read
    | bridge j =>
      exact (Rested.erase hs (by simp)).rouse (spreading_attentive.runBridge _ j) spare
        fun i c hn hc => listens_of_new s (m := .turn (.bridge j)) hn hc
  | _ =>
    exact Rested.rouse hs (s.attentive_perform nofun) spare fun i c hn hc => listens_of_new s hn hc

theorem heard_start (t : Tuning) : (start t).Heard := by
  intro i c hc
  simp [start] at hc

theorem Heard.after (hs : s.Heard) (moves : List Move) : (s.after moves).Heard := by
  induction moves generalizing s with
  | nil => exact hs
  | cons m rest ih => exact ih (hs.perform m)

/-- When nobody is ready, the readers of connections that were told to close have ended. -/
theorem Heard.ended (hs : s.Heard) (hr : s.ready = []) {i : Nat} {c : Connection}
    (hc : s.connections[i]? = some c) (hsig : c.signalled) {w : Watch} (hw : c.watch = some w) :
    w.ended.isSome := by
  have listens : c.Listens := (hs i c hc).resolve_left (by simp [hr])
  cases he : w.ended with
  | some reason => rfl
  | none => simp [(listens w hw he).1] at hsig

end Service

end Fanout.Live
