import Mathlib.Algebra.GroupWithZero.Nat
import Fanout.Proofs.Live.Deadline
import Fanout.Proofs.Live.Matched

/-!
The clock stops at every deadline on its way. A writer can miss two deadlines in a row and no more,
and a deadline that is missed concerns one connection only, so the bound on the stops is large
enough: when the clock has arrived, nobody is ready and no deadline was passed over.
-/

namespace Fanout.Live

/-! ### Missed deadlines -/

/-- How many deadlines a writer may miss one after another. -/
def Writer.legs : Writer → Nat
  | idle | finished _ => 0
  | sending _ _ _ | farewell _ _ => 2
  | closing _ _ => 1

theorem Writer.legs_le (w : Writer) : w.legs ≤ 2 := by
  cases w <;> simp [legs]

namespace Connection

variable {timeout now : Nat} {c d : Connection}

theorem legs_stride (h : Strides timeout now c d) (hc : c.writer.hasClosed) :
    d.writer.hasClosed ∧ d.writer.legs ≤ c.writer.legs := by
  cases h with
  | finish sink ending e hw hs => simp [hw, Writer.hasClosed, Writer.legs]
  | begin f rest hw _ _ => simp [hw, Writer.hasClosed] at hc
  | take f e hw _ => simp [hw, Writer.hasClosed] at hc
  | send f e hw _ => simp [hw, Writer.hasClosed] at hc
  | fail f taken e hw _ => simp [hw, Writer.hasClosed] at hc
  | heed hw _ => simp [hw, Writer.hasClosed] at hc
  | bid e hw _ => simp [hw, Writer.hasClosed] at hc
  | leave taken e hw => simp [hw, Writer.hasClosed] at hc

/-- A writer whose deadline comes while it waits goes on to close. -/
theorem legs_stride_of_late {e : Nat} (h : Strides timeout now c d) (ha : c.awaited = .pending)
    (he : c.writer.deadline? = some e) : d.writer.hasClosed ∧ d.writer.legs < c.writer.legs := by
  cases h with
  | begin f rest hw _ _ => simp [hw, Writer.deadline?] at he
  | heed hw _ => simp [hw, Writer.deadline?] at he
  | take f e hw hr => simp [awaited, hw, hr] at ha
  | send f e hw hf => simp [awaited, hw, hf] at ha
  | bid e hw hr => simp [awaited, hw, hr] at ha
  | fail f taken e hw _ => simp [hw, startClosing, Writer.hasClosed, Writer.legs]
  | leave taken e hw => simp [hw, startClosing, Writer.hasClosed, Writer.legs]
  | finish sink ending e hw _ => simp [hw, Writer.hasClosed, Writer.legs]

theorem legs_drive_of_late (timeout : Nat) {e : Nat} (ha : c.awaited = .pending)
    (he : c.writer.deadline? = some e) (hl : e ≤ now) :
    (c.drive timeout now).writer.hasClosed ∧
      (c.drive timeout now).writer.legs < c.writer.legs := by
  have driven := drive_keep_of_strides timeout now
    (P := fun d => d = c ∨ d.writer.hasClosed ∧ d.writer.legs < c.writer.legs)
    (fun d d' h hp => by
      rcases hp with rfl | ⟨hc, hlt⟩
      · exact .inr (legs_stride_of_late h ha he)
      · obtain ⟨hc', hle⟩ := legs_stride h hc
        exact .inr ⟨hc', Nat.lt_of_le_of_lt hle hlt⟩) (.inl rfl)
  rcases driven with same | h
  · have early := (waits_drive timeout now c).early e (by rw [same, he])
    omega
  · exact h

/-- A writer that has told its sink to close only goes on to finish. -/
theorem legs_acts (t : Tuning) (l : List Act) (hc : c.writer.hasClosed) :
    (c.acts t l).writer.hasClosed ∧ (c.acts t l).writer.legs ≤ c.writer.legs := by
  induction l generalizing c with
  | nil => exact ⟨hc, Nat.le_refl _⟩
  | cons a rest ih =>
    have first : (c.act t a).writer.hasClosed ∧ (c.act t a).writer.legs ≤ c.writer.legs := by
      by_cases hw : ∃ time, a = .write time
      · obtain ⟨time, rfl⟩ := hw
        rcases c.write_cases t time with ⟨-, same⟩ | h
        · have same : c.act t (.write time) = c := same
          exact ⟨by rwa [same], Nat.le_of_eq (by rw [same])⟩
        · exact legs_stride h hc
      · have same : (c.act t a).writer = c.writer := writer_act (fun time ht => hw ⟨time, ht⟩) c
        exact ⟨by rwa [same], Nat.le_of_eq (by rw [same])⟩
    obtain ⟨hc', hle⟩ := ih first.1
    exact ⟨hc', Nat.le_trans hle first.2⟩

end Connection

namespace Service

variable {s : Service} {i limit time : Nat} {c : Connection}

/-! ### Nobody has anything to do -/

/-- Nobody is ready, and every writer waits for its sink or for a later time. -/
structure Quiet (s : Service) : Prop where
  ready : s.ready = []
  waits : ∀ (i : Nat) (c : Connection), s.connections[i]? = some c → c.Waits s.now

theorem poised_start (t : Tuning) : (start t).Poised := by
  intro i c hc
  simp [start] at hc

/-- Writers go on to be ready or to wait as long as no time passes. -/
theorem Poised.perform (hs : s.Poised) {m : Move} (hm : m.elapsed = 0) : (s.perform m).Poised := by
  have same : (s.perform m).now = s.now := by rw [now_perform, hm, Nat.add_zero]
  unfold Poised
  rw [same]
  exact Rested.perform hs (fun _ _ h => h.waits) (fun c => c.waits_drive _ _) m

theorem Poised.after (hs : s.Poised) {moves : List Move} (hm : ∀ m ∈ moves, m.elapsed = 0) :
    (s.after moves).Poised := by
  induction moves generalizing s with
  | nil => exact hs
  | cons m rest ih =>
    exact ih (hs.perform (hm m List.mem_cons_self)) fun m' h' => hm m' (List.mem_cons_of_mem m h')

/-- After any time has passed it is enough to wake those whose deadline has come. -/
theorem Watched.poised (hs : s.Watched) (hd : ∀ task ∈ s.due, task ∈ s.ready) : s.Poised := by
  intro i c hc
  rcases hs i c hc with hr | ha
  · exact .inl hr
  · by_cases late : c.writer.deadline?.any (· ≤ s.now)
    · exact .inl (hd _ (List.mem_map_of_mem (mem_numbers.mpr ⟨c, hc, late⟩)))
    · refine .inr ⟨ha, ?_⟩
      intro d hd
      have : ¬ d ≤ s.now := by simpa [hd] using late
      omega

theorem Poised.watched (hs : s.Poised) : s.Watched :=
  fun i c hc => (hs i c hc).imp_right Connection.Waits.awaited

theorem Poised.quiet (hs : s.Poised) (hr : s.ready = []) : s.Quiet :=
  ⟨hr, fun i c hc => (hs i c hc).resolve_left (by simp [hr])⟩

theorem Quiet.poised (hs : s.Quiet) : s.Poised := fun i c hc => .inr (hs.waits i c hc)

theorem Poised.settle (hs : s.Poised) : s.settle.Quiet := by
  refine Poised.quiet ?_ s.ready_settle
  rw [← after_settleMoves]
  refine hs.after fun m hm => ?_
  obtain ⟨task, rfl⟩ := turn_of_mem_turnMoves hm
  rfl

/-! ### One deadline -/

theorem Quiet.fire (hs : s.Quiet) (time : Nat) : (s.fire time).Quiet := by
  have later : Watched { s with now := max s.now time } := hs.poised.watched
  refine Poised.settle (Watched.poised ?_ ?_)
  · exact Watched.perform later (.wake _)
  · intro task ht
    exact mem_ready_wake.mpr (.inr ht)

theorem Quiet.fireUntil (hs : s.Quiet) (limit n : Nat) : (Service.fireUntil limit n s).Quiet := by
  induction n generalizing s with
  | zero => exact hs
  | succ n ih =>
    cases hd : s.nextDeadline? limit with
    | none =>
      rw [(fireUntil_of_none hd _).1]
      exact hs
    | some d =>
      rw [(fireUntil_succ hd n).1]
      exact ih (hs.fire d)

/-- A deadline that is next belongs to a connection, and none comes before it. -/
theorem nextDeadline?_eq_some (h : s.nextDeadline? limit = some time) :
    (∃ i, s.deadlineOf? i = some time) ∧ ∀ i d, s.deadlineOf? i = some d → time ≤ d := by
  obtain ⟨hm, least⟩ := List.min?_eq_some_iff.mp h
  constructor
  · obtain ⟨c, hc, hd⟩ := List.mem_filterMap.mp (List.mem_filter.mp hm).1
    obtain ⟨i, hi⟩ := List.mem_iff_getElem?.mp hc
    exact ⟨i, (deadlineOf?_eq hi).trans hd⟩
  · intro i d hd
    obtain ⟨c, hc, hd⟩ := Option.bind_eq_some_iff.mp hd
    by_cases hl : d ≤ limit
    · refine least d (List.mem_filter.mpr ⟨?_, by simpa using hl⟩)
      exact List.mem_filterMap.mpr ⟨c, List.mem_of_getElem? hc, hd⟩
    · have := le_of_nextDeadline? h
      omega

theorem nextDeadline?_eq_none (h : s.nextDeadline? limit = none) {d : Nat}
    (hd : s.deadlineOf? i = some d) : limit < d := by
  obtain ⟨c, hc, hd⟩ := Option.bind_eq_some_iff.mp hd
  refine Nat.lt_of_not_le fun hl => ?_
  have hm : d ∈ (s.connections.filterMap fun c => c.writer.deadline?).filter (· ≤ limit) := by
    refine List.mem_filter.mpr ⟨?_, by simpa using hl⟩
    exact List.mem_filterMap.mpr ⟨c, List.mem_of_getElem? hc, hd⟩
  rw [List.min?_eq_none_iff.mp h] at hm
  cases hm

theorem Quiet.early (hs : s.Quiet) {d : Nat} (hd : s.deadlineOf? i = some d) : s.now < d := by
  obtain ⟨c, hc, hd⟩ := Option.bind_eq_some_iff.mp hd
  exact (hs.waits i c hc).early d hd

/-! ### The way of one writer -/

/-- In the turns after a deadline, the writer that missed it has its turn ahead or goes on to
close. -/
inductive Lapsing (i : Nat) (c : Connection) (s : Service) : Prop where
  | ahead (d : Connection) (hd : s.connections[i]? = some d) (same : d.bare = c.bare)
      (own : s.ready.filterMap (Task.place? i) = [.writer 0])
  | past (d : Connection) (hd : s.connections[i]? = some d) (closed : d.writer.hasClosed)
      (less : d.writer.legs < c.writer.legs)

theorem Lapsing.turn {e : Nat} (hl : Lapsing i c s) (ha : c.awaited = .pending)
    (he : c.writer.deadline? = some e) (hn : e ≤ s.now) {task : Task} {rest : List Task}
    (hr : s.ready = task :: rest) : Lapsing i c (s.perform (.turn task)) := by
  cases hl with
  | ahead d hd same own =>
    cases hp : task.place? i with
    | none =>
      have holder : ∀ d', s.connections[i]? = some d' → d'.bearer.tenant = d.bearer.tenant := by
        intro d' hd'
        rw [Option.some.inj (hd'.symm.trans hd)]
      have next := (Alike.refl holder).turn_other hp
      obtain ⟨d', hd', same'⟩ := next.symm.of_some hd
      exact .ahead d' hd' (same'.symm.trans same) (next.ready.trans own)
    | some task' =>
      rw [hr, List.filterMap_cons_some hp] at own
      obtain rfl : task' = .writer 0 := (List.cons.inj own).1
      obtain rfl : task = .writer i := Task.eq_of_place? hp (by simp [Task.place?])
      have awaited : d.awaited = c.awaited := (congrArg Connection.awaited same :)
      have writer : d.writer = c.writer := (congrArg Connection.writer same :)
      obtain ⟨closed, less⟩ := Connection.legs_drive_of_late s.tuning.writeTimeout
        (awaited.trans ha) (by rw [writer, he]) hn
      exact .past _ (getElem?_writer_turn hd) closed (writer ▸ less)
  | past d hd closed less =>
    obtain ⟨closed', less'⟩ := Connection.legs_acts s.tuning (s.acts i d (.turn task)) closed
    exact .past _ (getElem?_perform hd _) closed' (Nat.lt_of_le_of_lt less' less)

theorem Lapsing.turns {e : Nat} (hl : Lapsing i c s) (ha : c.awaited = .pending)
    (he : c.writer.deadline? = some e) (hn : e ≤ s.now) (n : Nat) : Lapsing i c (turns n s) := by
  induction n generalizing s with
  | zero => exact hl
  | succ n ih =>
    cases hr : s.ready with
    | nil =>
      rw [(turns_of_idle hr _).1]
      exact hl
    | cons task rest =>
      have now : (s.perform (.turn task)).now = s.now := s.now_perform _
      rw [(turns_succ hr n).1]
      exact ih (hl.turn ha he hn hr) (now.symm ▸ hn)

theorem Quiet.legs_due (hs : s.Quiet) (hc : s.connections[i]? = some c)
    (hd : c.writer.deadline? = some time) :
    ∃ d, (s.fire time).connections[i]? = some d ∧ d.writer.legs < c.writer.legs := by
  let late : Service := { s with now := max s.now time }
  have hl : time ≤ late.now := Nat.le_max_right s.now time
  have woken : Lapsing i c (late.wake late.due) := by
    have isDue : (late.deadlineOf? i).any (· ≤ late.now) := by
      simp [deadlineOf?_eq (s := late) hc, hd, hl]
    refine .ahead c hc rfl ?_
    show (enlist s.ready _).filterMap _ = _
    rw [hs.ready, filterMap_enlist, place_due, if_pos isDue]
    rfl
  cases woken.turns (hs.waits i c hc).awaited hd hl _ with
  | ahead d hd same own =>
    have none : (Service.turns (late.wake late.due).workload (late.wake late.due)).ready = [] :=
      ready_settle _
    rw [none] at own
    cases own
  | past d hd closed less => exact ⟨d, hd, less⟩

theorem Quiet.legs_other (hs : s.Quiet) (hc : s.connections[i]? = some c)
    (hd : ∀ d, s.deadlineOf? i = some d → time < d) :
    ∃ d, (s.fire time).connections[i]? = some d ∧ d.writer.legs = c.writer.legs := by
  have holder : ∀ d, s.connections[i]? = some d → d.bearer.tenant = c.bearer.tenant := by
    intro d hd
    rw [Option.some.inj (hd.symm.trans hc)]
  have other := (Alike.refl holder).fire_other hs.ready
    fun d hd' => Nat.max_lt.mpr ⟨hs.early hd', hd d hd'⟩
  have alike := other.alike
  rw [after_fireMoves] at alike
  obtain ⟨d, hd, same⟩ := alike.symm.of_some hc
  have writer : c.writer = d.writer := (congrArg Connection.writer same :)
  exact ⟨d, hd, by rw [writer]⟩

/-! ### All the deadlines on the way -/

/-- How many deadlines may still be missed, one after another. -/
def legs (s : Service) : Nat := (s.connections.map fun c => c.writer.legs).sum

theorem length_after_of_isInner {moves : List Move} (hm : ∀ m ∈ moves, m.isInner) :
    (s.after moves).connections.length = s.connections.length := by
  induction moves generalizing s with
  | nil => rfl
  | cons m rest ih =>
    have none : s.born m = [] := by
      have := hm m List.mem_cons_self
      cases m <;> first | rfl | cases this
    have first : (s.perform m).connections.length = s.connections.length := by
      rw [connections_perform, none, List.append_nil, List.length_mapIdx]
    exact (ih fun m' h' => hm m' (List.mem_cons_of_mem m h')).trans first

/-- Every deadline that is missed is one less to miss. -/
theorem Quiet.legs_fire (hs : s.Quiet) (hd : s.nextDeadline? limit = some time) :
    (s.fire time).legs < s.legs := by
  obtain ⟨⟨i, hi⟩, least⟩ := nextDeadline?_eq_some hd
  obtain ⟨c, hc, hdc⟩ := Option.bind_eq_some_iff.mp hi
  obtain ⟨d, hd, less⟩ := hs.legs_due hc hdc
  have length : (s.fire time).connections.length = s.connections.length := by
    rw [← after_fireMoves]
    exact length_after_of_isInner fun _ => isInner_of_mem_fireMoves
  refine sum_map_lt (w := fun c => c.writer.legs) (n := 1) length ?_ hc hd less
  intro k c d hc hd
  by_cases late : c.writer.deadline? = some time
  · obtain ⟨d', hd', less⟩ := hs.legs_due hc late
    obtain rfl := Option.some.inj (hd'.symm.trans hd)
    exact Nat.le_of_lt less
  · have later : ∀ e, s.deadlineOf? k = some e → time < e := by
      intro e he
      have hne : e ≠ time := by
        rintro rfl
        exact late ((deadlineOf?_eq hc).symm.trans he)
      have := least k e he
      omega
    obtain ⟨d', hd', same⟩ := hs.legs_other hc later
    obtain rfl := Option.some.inj (hd'.symm.trans hd)
    exact Nat.le_of_eq same

theorem Quiet.nextDeadline?_fireUntil (hs : s.Quiet) (limit : Nat) {n : Nat} (hn : s.legs ≤ n) :
    (Service.fireUntil limit n s).nextDeadline? limit = none := by
  induction n generalizing s with
  | zero =>
    cases hd : s.nextDeadline? limit with
    | none => exact hd
    | some d =>
      have := hs.legs_fire hd
      omega
  | succ n ih =>
    cases hd : s.nextDeadline? limit with
    | none => rwa [(fireUntil_of_none hd _).1]
    | some d =>
      have := hs.legs_fire hd
      rw [(fireUntil_succ hd n).1]
      exact ih (hs.fire d) (by omega)

theorem legs_le (s : Service) : s.legs ≤ 3 * s.connections.length :=
  sum_map_le_mul fun c => Nat.le_succ_of_le c.writer.legs_le

/-- When the clock has moved on, nobody has anything to do before a later time. -/
theorem Poised.advance (hs : s.Poised) (ms : Nat) : (s.advance ms).Quiet := by
  have arrived := hs.settle.fireUntil (s.settle.now + ms) (3 * s.settle.connections.length)
  have none := hs.settle.nextDeadline?_fireUntil (s.settle.now + ms) (legs_le _)
  refine ⟨arrived.ready, fun i c hc => ⟨(arrived.waits i c hc).awaited, ?_⟩⟩
  exact fun d hd => nextDeadline?_eq_none none ((deadlineOf?_eq hc).trans hd)

theorem Quiet.settled (hs : s.Quiet) : s.Settled := by
  refine ⟨hs.ready, ?_⟩
  rw [due, List.map_eq_nil_iff, List.eq_nil_iff_forall_not_mem]
  intro i hi
  obtain ⟨c, hc, late⟩ := mem_numbers.mp hi
  obtain ⟨d, hd, hl⟩ := Option.any_eq_true _ _ |>.mp late
  have := (hs.waits i c hc).early d hd
  have : d ≤ s.now := by simpa using hl
  omega

end Service

/-! ### The clock as a connection sees it -/

theorem Matched.of_fireMoves {h : Tenant} {i j time : Nat} {s u : Service} {moves : List Move}
    (hm : Matched h i s (s.fireMoves time) j u moves) :
    Alike h i (s.fire time) j (u.after moves) := by
  have alike := hm.alike
  rwa [Service.after_fireMoves] at alike

namespace Alike

variable {h : Tenant} {i j limit time : Nat} {s u : Service}

/-- The next deadline of all is not noticed by a connection whose own is another. -/
theorem fire_next_other (hs : Alike h i s j u) (qs : s.Quiet)
    (hd : s.nextDeadline? limit = some time) (own : s.deadlineOf? i ≠ some time) :
    Matched h i s (s.fireMoves time) j u [] := by
  refine hs.fire_other qs.ready fun d hds => ?_
  have early := qs.early hds
  have least := (Service.nextDeadline?_eq_some hd).2 i d hds
  have other : d ≠ time := fun he => own (he ▸ hds)
  omega

/-- As long as the connection has no deadline it does not notice how the clock moves. -/
theorem fireUntil_other (hs : Alike h i s j u) (qs : s.Quiet)
    (hd : ∀ d, u.deadlineOf? j = some d → limit < d) (n : Nat) :
    Matched h i s (Service.fireUntilMoves limit n s) j u [] := by
  induction n generalizing s with
  | zero => exact hs.matched
  | succ n ih =>
    cases hn : s.nextDeadline? limit with
    | none =>
      rw [(Service.fireUntil_of_none hn _).2]
      exact hs.matched
    | some time =>
      have other : Matched h i s (s.fireMoves time) j u [] := by
        refine hs.fire_next_other qs hn fun own => ?_
        have later := hd time (hs.deadlineOf?.symm.trans own)
        have reached := Service.le_of_nextDeadline? hn
        omega
      rw [(Service.fireUntil_succ hn n).2]
      refine other.before ?_
      rw [Service.after_fireMoves]
      exact ih other.of_fireMoves (qs.fire time)

/-- The clock moves to the same time on both sides. -/
theorem fireUntil (hs : Alike h i s j u) (qs : s.Quiet) (qu : u.Quiet) {n k : Nat}
    (hn : (Service.fireUntil limit n s).nextDeadline? limit = none)
    (hk : (Service.fireUntil limit k u).nextDeadline? limit = none) :
    Matched h i s (Service.fireUntilMoves limit n s) j u (Service.fireUntilMoves limit k u) := by
  have idle {s u : Service} {n k : Nat} (hs : Alike h i s j u) (qu : u.Quiet)
      (hd : s.nextDeadline? limit = none) :
      Matched h i s (Service.fireUntilMoves limit n s) j u (Service.fireUntilMoves limit k u) := by
    rw [(Service.fireUntil_of_none hd n).2]
    exact (hs.symm.fireUntil_other qu (fun d => Service.nextDeadline?_eq_none hd) k).symm
  induction n generalizing s u k with
  | zero => exact idle hs qu hn
  | succ n ih =>
    cases hd : s.nextDeadline? limit with
    | none => exact idle hs qu hd
    | some time =>
      rw [(Service.fireUntil_succ hd n).1] at hn
      rw [(Service.fireUntil_succ hd n).2]
      by_cases own : s.deadlineOf? i = some time
      · -- deadlines of others on the far side come first
        have own' : u.deadlineOf? j = some time := hs.deadlineOf?.symm.trans own
        induction k generalizing u with
        | zero =>
          have := Service.nextDeadline?_eq_none hk own'
          have := Service.le_of_nextDeadline? hd
          omega
        | succ k ihk =>
          cases hd' : u.nextDeadline? limit with
          | none =>
            have := Service.nextDeadline?_eq_none hd' own'
            have := Service.le_of_nextDeadline? hd
            omega
          | some time' =>
            rw [(Service.fireUntil_succ hd' k).1] at hk
            rw [(Service.fireUntil_succ hd' k).2]
            by_cases same : time' = time
            · subst same
              have early := qs.early own
              have early' := qu.early own'
              have fired : Matched h i s (s.fireMoves time') j u (u.fireMoves time') :=
                hs.fire (by omega)
              have alike := fired.of_fireMoves
              refine fired.append ?_
              rw [Service.after_fireMoves] at alike
              rw [Service.after_fireMoves, Service.after_fireMoves]
              exact ih alike (qs.fire time') (qu.fire time') hn hk
            · have other := hs.symm.fire_next_other qu hd' fun he =>
                same (Option.some.inj (he.symm.trans own'))
              have alike := other.of_fireMoves.symm
              have later := ihk alike (qu.fire time') hk (alike.deadlineOf?.symm.trans own)
              refine (other.before ?_).symm
              rw [Service.after_fireMoves]
              exact later.symm
      · have other := hs.fire_next_other qs hd own
        refine other.before ?_
        rw [Service.after_fireMoves]
        exact ih other.of_fireMoves (qs.fire time) qu hn hk

theorem advance (hs : Alike h i s j u) (hn : s.now = u.now) (ps : s.Poised) (pu : u.Poised)
    (ms : Nat) : Matched h i s (s.advanceMoves ms) j u (u.advanceMoves ms) := by
  have settled := hs.settle hn
  have alike := settled.alike
  rw [Service.after_settleMoves, Service.after_settleMoves] at alike
  have now : u.settle.now + ms = s.settle.now + ms := by
    rw [Service.now_settle, Service.now_settle, hn]
  have arrived := alike.fireUntil ps.settle pu.settle
    (ps.settle.nextDeadline?_fireUntil (s.settle.now + ms) (Service.legs_le _))
    (pu.settle.nextDeadline?_fireUntil (s.settle.now + ms) (Service.legs_le _))
  unfold Service.advanceMoves
  simp only [now]
  refine (settled.append ?_).append ?_
  · rw [Service.after_settleMoves, Service.after_settleMoves]
    exact arrived
  · rw [Service.after_append, Service.after_append, Service.after_settleMoves,
      Service.after_settleMoves]
    exact .apart nofun nofun
      (Alike.matched (arrived.alike.veiled rfl rfl))

end Alike

end Fanout.Live
