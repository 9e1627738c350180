import Mathlib.Algebra.GroupWithZero.Nat
import Fanout.Proofs.Live.Agreement
import Fanout.Proofs.Live.Wake

/-!
Settling comes to an end. A turn of a writer or of a reader wakes somebody only if its connection is
signalled or stops reading by it, which happens once; a turn of a bridge wakes every writer and every
reader at most once. So the turns ahead can be counted, and the bound that settling relies on is
large enough.
-/

namespace Fanout.Live

/-! ### Sums over connections -/

section Sum

variable {l l' : List Connection} {w : Connection → Nat}

theorem sum_map_le (hl : l'.length = l.length)
    (h : ∀ (i : Nat) c d, l[i]? = some c → l'[i]? = some d → w d ≤ w c) :
    (l'.map w).sum ≤ (l.map w).sum := by
  induction l generalizing l' with
  | nil =>
    obtain rfl := List.length_eq_zero_iff.mp hl
    exact Nat.le_refl _
  | cons c rest ih =>
    cases l' with
    | nil => cases hl
    | cons d rest' =>
      have first : w d ≤ w c := h 0 c d rfl rfl
      have others := ih (Nat.succ.inj hl) fun i c d hc hd => h (i + 1) c d hc hd
      simp only [List.map_cons, List.sum_cons]
      omega

/-- One that is lighter makes the sum lighter. -/
theorem sum_map_lt (hl : l'.length = l.length)
    (h : ∀ (i : Nat) c d, l[i]? = some c → l'[i]? = some d → w d ≤ w c) {i : Nat} {c d : Connection}
    {n : Nat} (hc : l[i]? = some c) (hd : l'[i]? = some d) (hw : w d + n ≤ w c) :
    (l'.map w).sum + n ≤ (l.map w).sum := by
  induction l generalizing l' i with
  | nil => simp at hc
  | cons c₀ rest ih =>
    cases l' with
    | nil => cases hl
    | cons d₀ rest' =>
      have first : w d₀ ≤ w c₀ := h 0 c₀ d₀ rfl rfl
      have shifted : ∀ (i : Nat) c d, rest[i]? = some c → rest'[i]? = some d → w d ≤ w c :=
        fun i c d hc hd => h (i + 1) c d hc hd
      simp only [List.map_cons, List.sum_cons]
      cases i with
      | zero =>
        obtain rfl := Option.some.inj hc
        obtain rfl := Option.some.inj hd
        have others := sum_map_le (Nat.succ.inj hl) shifted
        omega
      | succ i =>
        have others := ih (Nat.succ.inj hl) shifted hc hd
        omega

theorem sum_map_le_mul {n : Nat} (h : ∀ c, w c ≤ n) : (l.map w).sum ≤ n * l.length := by
  induction l with
  | nil => simp
  | cons c rest ih =>
    have := h c
    simp only [List.map_cons, List.sum_cons, List.length_cons, Nat.mul_succ]
    omega

end Sum

/-! ### What a connection may still announce -/

namespace Connection

/-- How often a connection may still wake its own tasks: it may be signalled, and its reader may
end. -/
def slack (c : Connection) : Nat := (!c.signalled).toNat + c.readEnd?.isNone.toNat

theorem slack_le (c : Connection) : c.slack ≤ 2 := by
  unfold slack
  have := Bool.toNat_le (!c.signalled)
  have := Bool.toNat_le c.readEnd?.isNone
  omega

variable {c d : Connection}

theorem slack_mono (hs : c.signalled → d.signalled) (hr : c.readEnd?.isSome → d.readEnd?.isSome) :
    d.slack ≤ c.slack := by
  unfold slack
  cases hcs : c.signalled <;> cases hds : d.signalled <;> cases hcr : c.readEnd? <;>
    cases hdr : d.readEnd? <;> simp [hcs, hds, hcr, hdr] at hs hr ⊢

theorem slack_signalled (hs : c.signalled = false) (hd : d.signalled)
    (hr : d.readEnd? = c.readEnd?) : d.slack + 1 = c.slack := by
  simp only [slack, hs, hd, hr]
  simp
  omega

theorem slack_ended (hs : c.signalled → d.signalled) (hr : c.readEnd? = none)
    (hd : d.readEnd?.isSome) : d.slack + 1 ≤ c.slack := by
  obtain ⟨reason, hd⟩ := Option.isSome_iff_exists.mp hd
  unfold slack
  cases hcs : c.signalled <;> cases hds : d.signalled <;> simp [hcs, hds, hr, hd] at hs ⊢

/-- The writer does not meddle with the reader. -/
theorem Strides.watch {timeout now : Nat} (h : Strides timeout now c d) : d.watch = c.watch := by
  cases h with
  | finish sink ending e _ _ => cases ending <;> simp [Connection.finish]
  | _ => rfl

theorem Strides.signalled {timeout now : Nat} (h : Strides timeout now c d) (hs : c.signalled) :
    d.signalled := by
  cases h with
  | finish sink ending e _ _ =>
    cases ending with
    | asked => exact hs
    | failed =>
      simp only [Connection.finish, remove]
      split
      · rfl
      · exact hs
  | _ => exact hs

theorem drive_spec (timeout now : Nat) (c : Connection) :
    (c.signalled → (c.drive timeout now).signalled) ∧ (c.drive timeout now).watch = c.watch :=
  drive_keep_of_strides timeout now
    (P := fun d => (c.signalled → d.signalled) ∧ d.watch = c.watch)
    (fun _ _ h hp => ⟨fun hs => h.signalled (hp.1 hs), h.watch.trans hp.2⟩) ⟨id, rfl⟩

theorem signalled_act (t : Tuning) (a : Act) (hs : c.signalled) : (c.act t a).signalled :=
  (Forward.act t a c).signalled hs

theorem watch_hand (t : Tuning) (b : Bridge) (body : Octets) (c : Connection) :
    (c.hand t b body).watch = c.watch := by
  unfold hand
  split
  · rfl
  · unfold offer
    split
    · obtain ⟨-, hd⟩ | ⟨-, e, hd⟩ := deliver_cases t.capacity (Frame.ofBody body) c <;>
        simp [receive, hd]
    · rfl

theorem slack_hands (t : Tuning) (b : Bridge) (l : List Octets) (c : Connection) :
    (c.acts t (l.map (.hand b))).slack ≤ c.slack := by
  induction l generalizing c with
  | nil => exact Nat.le_refl _
  | cons body rest ih =>
    have first : (c.hand t b body).slack ≤ c.slack :=
      slack_mono (signalled_act t (.hand b body)) fun hr => by rwa [readEnd?, watch_hand, ← readEnd?]
    exact Nat.le_trans (ih (c.hand t b body)) first

end Connection

/-! ### Who is woken -/

def Task.isBridge : Task → Bool
  | .bridge _ => true
  | _ => false

/-- The writers and the readers of so many connections. -/
def crew (n : Nat) : List Task := (List.range n).map .writer ++ (List.range n).map .reader

theorem length_crew (n : Nat) : (crew n).length = 2 * n := by
  simp only [crew, List.length_append, List.length_map, List.length_range]
  omega

theorem mem_crew {n : Nat} {t : Task} :
    t ∈ crew n ↔ ∃ i < n, t = .writer i ∨ t = .reader i := by
  simp only [crew, List.mem_append, List.mem_map, List.mem_range]
  constructor
  · rintro (⟨i, hi, rfl⟩ | ⟨i, hi, rfl⟩)
    · exact ⟨i, hi, .inl rfl⟩
    · exact ⟨i, hi, .inr rfl⟩
  · rintro ⟨i, hi, rfl | rfl⟩
    · exact .inl ⟨i, hi, rfl⟩
    · exact .inr ⟨i, hi, rfl⟩

namespace Service

/-- The connections are as many as before, and of their tasks some are made ready, each once. -/
structure Rouses (s s' : Service) : Prop where
  length : s'.connections.length = s.connections.length
  called : ∃ called, s'.ready = s.ready ++ called ∧ called.Nodup ∧
    ∀ t ∈ called, t ∉ s.ready ∧ t ∈ crew s.connections.length

namespace Rouses

variable {s s' s'' : Service}

theorem of_eq (hc : s'.connections.length = s.connections.length) (hr : s'.ready = s.ready) :
    Rouses s s' :=
  ⟨hc, [], by simp [hr]⟩

theorem trans (h : Rouses s s') (h' : Rouses s' s'') : Rouses s s'' := by
  obtain ⟨first, hf, nodup, new⟩ := h.called
  obtain ⟨second, hs, nodup', new'⟩ := h'.called
  refine ⟨h'.length.trans h.length, first ++ second, by rw [hs, hf, List.append_assoc], ?_, ?_⟩
  · refine List.nodup_append.mpr ⟨nodup, nodup', ?_⟩
    rintro t ht t' ht' rfl
    exact (new' t ht').1 (hf ▸ List.mem_append_right _ ht)
  · intro t ht
    rcases List.mem_append.mp ht with ht | ht
    · exact new t ht
    · obtain ⟨hn, hc⟩ := new' t ht
      rw [h.length] at hc
      exact ⟨fun hr => hn (hf ▸ List.mem_append_left _ hr), hc⟩

/-- Hence they are not many, and no bridge is among them. -/
theorem bounds (h : Rouses s s') :
    s'.ready.length ≤ s.ready.length + 2 * s.connections.length ∧
      s'.ready.countP Task.isBridge = s.ready.countP Task.isBridge := by
  obtain ⟨called, hr, nodup, new⟩ := h.called
  have few : called.length ≤ (crew s.connections.length).length :=
    nodup.length_le_of_subset fun t ht => (new t ht).2
  have none : called.countP Task.isBridge = 0 := by
    rw [List.countP_eq_zero]
    intro t ht
    obtain ⟨i, -, rfl | rfl⟩ := mem_crew.mp (new t ht).2 <;> simp [Task.isBridge]
  rw [length_crew] at few
  rw [hr, List.length_append, List.countP_append, none]
  exact ⟨by omega, rfl⟩

end Rouses

theorem ready_wake (s : Service) (tasks : List Task) :
    ∃ called, (s.wake tasks).ready = s.ready ++ called ∧ called.Nodup ∧
      ∀ t ∈ called, t ∉ s.ready ∧ t ∈ tasks := by
  have go (ready : List Task) : ∃ called,
      tasks.foldl (fun ready t => if t ∈ ready then ready else ready ++ [t]) ready =
        ready ++ called ∧ called.Nodup ∧ ∀ t ∈ called, t ∉ ready ∧ t ∈ tasks := by
    induction tasks generalizing ready with
    | nil => exact ⟨[], by simp⟩
    | cons a rest ih =>
      rw [List.foldl_cons]
      split
      · obtain ⟨called, hr, nodup, new⟩ := ih ready
        exact ⟨called, hr, nodup, fun t ht => ⟨(new t ht).1, List.mem_cons_of_mem a (new t ht).2⟩⟩
      · next ha =>
        obtain ⟨called, hr, nodup, new⟩ := ih (ready ++ [a])
        refine ⟨a :: called, by simp [hr], ?_, ?_⟩
        · refine List.nodup_cons.mpr ⟨fun hm => (new a hm).1 (by simp), nodup⟩
        · intro t ht
          rcases List.mem_cons.mp ht with rfl | ht
          · exact ⟨ha, List.mem_cons_self⟩
          · obtain ⟨hn, hm⟩ := new t ht
            exact ⟨fun h => hn (List.mem_append_left _ h), List.mem_cons_of_mem a hm⟩
  exact go s.ready

variable (s : Service)

theorem lt_of_mem_numbers {s : Service} {p : Connection → Bool} {i : Nat} (h : i ∈ s.numbers p) :
    i < s.connections.length := by
  obtain ⟨c, hc, -⟩ := mem_numbers.mp h
  exact (List.getElem?_eq_some_iff.mp hc).1

theorem rouses_broadcast (body : Octets) (tag : Tenant) : Rouses s (s.broadcast body tag).2 := by
  refine ⟨by simp [connections_broadcast], ?_⟩
  obtain ⟨called, hr, nodup, new⟩ := ready_wake
    { s with connections := s.connections.map (Connection.offer s.tuning body tag) }
    ((s.numbers (·.isTarget tag)).map Task.writer ++
      (s.numbers fun c => c.isTarget tag && ! c.accepts s.tuning.capacity).map Task.reader)
  refine ⟨called, hr, nodup, fun t ht => ⟨(new t ht).1, ?_⟩⟩
  rcases List.mem_append.mp (new t ht).2 with hm | hm
  · obtain ⟨i, hi, rfl⟩ := List.mem_map.mp hm
    exact mem_crew.mpr ⟨i, lt_of_mem_numbers hi, .inl rfl⟩
  · obtain ⟨i, hi, rfl⟩ := List.mem_map.mp hm
    exact mem_crew.mpr ⟨i, lt_of_mem_numbers hi, .inr rfl⟩

theorem spreading_rouses : Spreading Rouses where
  still := fun hc hr => .of_eq (congrArg List.length hc) hr
  trans := Rouses.trans
  broadcast := rouses_broadcast

/-! ### The turns ahead -/

/-- A bound on the turns ahead. -/
def labour (s : Service) : Nat :=
  s.ready.length + 2 * s.connections.length * s.ready.countP Task.isBridge +
    (s.connections.map Connection.slack).sum

/-- Waking one task that is not a bridge. -/
theorem wake_single_le {t : Task} (ht : t.isBridge = false) :
    (s.wake [t]).ready.length ≤ s.ready.length + 1 ∧
      (s.wake [t]).ready.countP Task.isBridge = s.ready.countP Task.isBridge := by
  simp only [wake, List.foldl_cons, List.foldl_nil]
  split
  · exact ⟨by omega, rfl⟩
  · simp [ht]

/-- A turn that changes one connection, and wakes a task if that connection becomes lighter. -/
theorem labour_modify_le {s' : Service} {i : Nat} {c : Connection} {f : Connection → Connection}
    (hi : s.connections[i]? = some c) (hc : s'.connections = s.connections.modify i f)
    (hw : (f c).slack ≤ c.slack)
    (hr : s'.ready = s.ready ∨ (f c).slack + 1 ≤ c.slack ∧
      ∃ t : Task, t.isBridge = false ∧ s'.ready = (s.wake [t]).ready) :
    s'.labour ≤ s.labour := by
  have length : s'.connections.length = s.connections.length := by rw [hc, List.length_modify]
  have lighter (j : Nat) (d d' : Connection) (hd : s.connections[j]? = some d)
      (hd' : s'.connections[j]? = some d') : d'.slack ≤ d.slack := by
    rw [hc, List.getElem?_modify, hd] at hd'
    by_cases hj : i = j
    · subst hj
      obtain rfl := Option.some.inj (hi.symm.trans hd)
      have : f c = d' := by simpa using hd'
      exact this ▸ hw
    · have : d = d' := by simpa [hj] using hd'
      exact this ▸ Nat.le_refl _
  rcases hr with hr | ⟨hlt, t, ht, hr⟩
  · have sum := sum_map_le length lighter
    simp only [labour, length, hr]
    omega
  · have hi' : s'.connections[i]? = some (f c) := by
      rw [hc, List.getElem?_modify, hi]
      simp
    have sum := sum_map_lt length lighter hi hi' hlt
    obtain ⟨one, same⟩ := s.wake_single_le ht
    simp only [labour, length, hr, same]
    omega

theorem labour_runWriter_le (i : Nat) : (s.runWriter i).labour ≤ s.labour := by
  cases hi : s.connections[i]? with
  | none =>
    simp only [runWriter, hi]
    exact Nat.le_refl _
  | some c =>
    obtain ⟨hs, hw⟩ := c.drive_spec s.tuning.writeTimeout s.now
    have hr : (c.drive s.tuning.writeTimeout s.now).readEnd? = c.readEnd? :=
      congrArg (·.bind Watch.ended) hw
    have less := Connection.slack_mono hs fun h => by rwa [hr]
    refine s.labour_modify_le hi (s.connections_runWriter i) less ?_
    simp only [runWriter, hi]
    split
    · next h =>
      right
      simp only [Bool.and_eq_true, Bool.not_eq_true'] at h
      exact ⟨Nat.le_of_eq (Connection.slack_signalled h.2 h.1 hr), .reader i, rfl, rfl⟩
    · exact .inl rfl

theorem labour_runReader_le (i : Nat) : (s.runReader i).labour ≤ s.labour := by
  cases hi : s.connections[i]? with
  | none =>
    simp only [runReader, hi]
    exact Nat.le_refl _
  | some c =>
    have signalled : c.signalled → c.read.signalled := Connection.signalled_act s.tuning .read
    have ended : c.readEnd?.isSome → c.read.readEnd?.isSome := by
      obtain ⟨sink, watch, -, ⟨hr, he⟩ | ⟨hr, -, he⟩⟩ := c.read_cases
      · have same : c.read.readEnd? = c.readEnd? := by rw [hr, ← he]; rfl
        exact fun h => same ▸ h
      · have same : c.read.readEnd? = watch.bind Watch.ended := by simp [hr, Connection.readEnd?]
        exact fun _ => same ▸ he
    refine s.labour_modify_le hi (s.connections_runReader i)
      (Connection.slack_mono signalled ended) ?_
    simp only [runReader, hi]
    cases he : c.readEnd? with
    | some reason => exact .inl rfl
    | none =>
      cases hr : c.read.readEnd? with
      | none => exact .inl rfl
      | some reason =>
        exact .inr ⟨Connection.slack_ended signalled he (by simp [hr]), .writer i, rfl, rfl⟩

theorem labour_runBridge_le (i : Nat) :
    (s.runBridge i).labour ≤ s.labour + 2 * s.connections.length := by
  have rouses := spreading_rouses.runBridge s i
  obtain ⟨hl, hb⟩ := rouses.bounds
  have slack : ((s.runBridge i).connections.map Connection.slack).sum ≤
      (s.connections.map Connection.slack).sum := by
    refine sum_map_le rouses.length ?_
    intro j c d hc hd
    rw [(s.runBridge_spec i).2, List.getElem?_map, hc] at hd
    obtain rfl := Option.some.inj hd
    cases s.bridges[i]? with
    | none => exact Nat.le_refl _
    | some r => exact c.slack_hands s.tuning r.bridge r.handed
  simp only [labour, hb, rouses.length]
  omega

/-- Every turn of a ready task is one less ahead. -/
theorem labour_turn {s : Service} {task : Task} {rest : List Task} (hr : s.ready = task :: rest) :
    ({ s with ready := rest }.run task).labour < s.labour := by
  have popped : s.labour = { s with ready := rest }.labour + 1 +
      2 * s.connections.length * (if task.isBridge then 1 else 0) := by
    simp only [labour, hr, List.length_cons, List.countP_cons, Nat.mul_add]
    omega
  cases task with
  | writer i =>
    have := labour_runWriter_le { s with ready := rest } i
    simp only [run]
    omega
  | reader i =>
    have := labour_runReader_le { s with ready := rest } i
    simp only [run]
    omega
  | bridge i =>
    have := labour_runBridge_le { s with ready := rest } i
    simp only [run, Task.isBridge, if_true] at this popped ⊢
    omega

theorem ready_turns {n : Nat} (h : s.labour ≤ n) : (turns n s).ready = [] := by
  induction n generalizing s with
  | zero =>
    have : s.ready.length ≤ s.labour := by simp only [labour]; omega
    exact List.length_eq_zero_iff.mp (by simp only [turns]; omega)
  | succ n ih =>
    unfold turns
    cases hr : s.ready with
    | nil => exact hr
    | cons task rest =>
      have := labour_turn hr
      exact ih _ (by omega)

theorem labour_le_workload : s.labour ≤ s.workload := by
  have slack : (s.connections.map Connection.slack).sum ≤ 2 * s.connections.length :=
    sum_map_le_mul Connection.slack_le
  have bridges : 2 * s.connections.length * s.ready.countP Task.isBridge ≤
      2 * s.connections.length * s.ready.length :=
    Nat.mul_le_mul_left _ List.countP_le_length
  have expand : s.workload =
      2 * s.connections.length * s.ready.length + s.ready.length + 2 * s.connections.length + 1 := by
    simp only [workload, Nat.mul_add, Nat.add_mul, Nat.mul_comm]
    omega
  simp only [labour]
  omega

/-- When settling is over nobody is ready. -/
theorem ready_settle : s.settle.ready = [] := s.ready_turns s.labour_le_workload

end Service

end Fanout.Live
