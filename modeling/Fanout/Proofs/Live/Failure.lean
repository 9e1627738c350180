import Fanout.Proofs.Live.Agreement

/-!
What becomes of a connection whose write has failed. Its writer begins to close the sink and removes
the connection only when that is over. Until then the connection stays on the registry, and if its
queue has room it accepts frames that nobody will ever send. So nothing more comes to it just in
case the failing turn leaves no such gap.
-/

namespace Fanout.Live

/-- A write has failed, or was not through by its deadline. -/
def Writer.hasFailed : Writer → Bool
  | closing .failed _ | finished .failed => true
  | _ => false

theorem Writer.hasFailed_iff (w : Writer) :
    w.hasFailed ↔ (∃ deadline, w = .closing .failed deadline) ∨ w = .finished .failed := by
  rcases w with _ | _ | _ | ⟨_ | _, deadline⟩ | _ | _ <;> simp [hasFailed]

namespace Service

/-! ### Recipients -/

/-- The connections that a broadcast under a tag counts as queued. -/
def recipients (s : Service) (tag : Tenant) : List Nat :=
  s.numbers fun c => c.isTarget tag && c.accepts s.tuning.capacity

/-- The report of a broadcast counts the recipients. -/
theorem queued_broadcast (s : Service) (body : Octets) (tag : Tenant) :
    (s.broadcast body tag).1.queued = (s.recipients tag).length := by
  have h := List.countP_eq_countP_filter_add s.connections (·.isTarget tag)
    (·.accepts s.tuning.capacity)
  simp only [List.countP_filter] at h
  simp only [broadcast, recipients, length_numbers]
  omega

/-- Nothing more comes to a connection, whatever happens: no frame delivered to it is accepted, and
no broadcast, be it a bridge's or not, has it among its recipients. -/
structure Deserted (s : Service) (i : Nat) : Prop where
  deliver : ∀ later f, ∃ e, ((s.after later).deliver i f).1 = .error e
  broadcast : ∀ later tag, i ∉ (s.after later).recipients tag
  accepted : ∀ later, (s.history i later).accepted = []

end Service

/-- The writer has failed and the queue takes nothing. -/
structure Barred (capacity : Nat) (h : History) (c : Connection) : Prop where
  failed : c.writer.hasFailed
  full : c.accepts capacity = false
  accepted : h.accepted = []

namespace Barred

variable {t : Tuning} {capacity : Nat} {g h : History} {c d : Connection}

/-- Going forward with the same queue, the connection takes no more than before. -/
theorem forward (hb : Barred capacity g c) (hf : Forward c d) (hw : d.writer.hasFailed)
    (hq : d.queue = c.queue) (hh : h.accepted = []) : Barred capacity (g ++ h) d where
  failed := hw
  full := by
    have hc := hb.full
    unfold Connection.accepts at hc ⊢
    rw [hq]
    by_cases hs : d.stage = .active
    · rw [hf.active hs] at hc
      rwa [hs]
    · simp [hs]
  accepted := by rw [History.accepted_append, hb.accepted, hh, List.nil_append]

/-- Every rule keeps it so. The rules that take a frame from the queue do not apply, as the writer
is out of its loop for good. -/
theorem rule (g : History) (c : Connection) (h : History) (d : Connection) (hr : Rule t c h d)
    (hb : Barred t.capacity g c) : Barred t.capacity (g ++ h) d := by
  have hf : Forward c d := .rule hr
  have hw := hb.failed
  cases hr with
  | hear b body _ => exact hb.forward hf hw rfl rfl
  | accept f ha =>
    rw [hb.full] at ha
    cases ha
  | remove => exact hb.forward hf (by simpa using hw) (by simp) rfl
  | outside sink watch hs => exact hb.forward hf hw rfl rfl
  | finish ending d hc =>
    cases ending with
    | asked => simp [hc, Writer.hasFailed] at hw
    | failed => exact hb.forward hf (by simp [Writer.hasFailed]) (by simp [Connection.finish]) rfl
  | begin f rest d hc _ _ => simp [hc, Writer.hasFailed] at hw
  | take f d hc => simp [hc, Writer.hasFailed] at hw
  | send f d hc => simp [hc, Writer.hasFailed] at hw
  | fail f taken d d' hc => simp [hc, Writer.hasFailed] at hw
  | heed d hc _ => simp [hc, Writer.hasFailed] at hw
  | bid d hc => simp [hc, Writer.hasFailed] at hw
  | leave taken d d' hc => simp [hc, Writer.hasFailed] at hw

end Barred

/-- Once a write has failed, nothing more comes to a connection just in case its queue takes nothing
now. -/
theorem Service.deserted_iff {s : Service} {i : Nat} {c : Connection}
    (hc : s.connections[i]? = some c) (hf : c.writer.hasFailed) :
    s.Deserted i ↔ c.accepts s.tuning.capacity = false := by
  constructor
  · intro hd
    obtain ⟨e, he⟩ := hd.deliver [] (.text "")
    cases ha : c.accepts s.tuning.capacity with
    | false => rfl
    | true =>
      have hok := (Connection.accepts_iff s.tuning.capacity (.text "") c).mp ha
      simp [after, Service.deliver, hc, hok] at he
  · intro ha
    have barred (later : List Move) :=
      after_keep_of_rule (P := Barred s.tuning.capacity) Barred.rule later (g := [])
        hc ⟨hf, ha, rfl⟩
    refine ⟨?_, ?_, ?_⟩
    · intro later f
      obtain ⟨d, hd, hb⟩ := barred later
      obtain ⟨ha, -⟩ | ⟨-, e, he⟩ := Connection.deliver_cases s.tuning.capacity f d
      · rw [hb.full] at ha
        cases ha
      · exact ⟨e, by simp [Service.deliver, hd, he]⟩
    · intro later tag hm
      obtain ⟨d, hd, hb⟩ := barred later
      obtain ⟨d', hd', hp⟩ := mem_numbers.mp hm
      rw [hd] at hd'
      cases hd'
      simp [hb.full] at hp
    · intro later
      obtain ⟨d, -, hb⟩ := barred later
      exact hb.accepted

/-! ### The failing turn -/

/-- What the writer's actions at one time make of a connection whose write had not failed before. -/
structure Failing (timeout now : Nat) (c d : Connection) : Prop where
  closing : ∀ deadline, d.writer = .closing .failed deadline → deadline = now + timeout
  finished : d.writer = .finished .failed → d.sink.close ≠ .pending ∨ timeout = 0
  registered : d.writer.isFinished = false → d.registered = c.registered

namespace Failing

variable {timeout now : Nat} {c d e : Connection}

theorem start (hn : c.writer.hasFailed = false) : Failing timeout now c c where
  closing := by
    intro deadline hw
    simp [hw, Writer.hasFailed] at hn
  finished := by
    intro hw
    simp [hw, Writer.hasFailed] at hn
  registered := fun _ => rfl

/-- The writer goes on without a failure. -/
theorem onward (hf : Failing timeout now c d) (hd : d.writer.isFinished = false)
    (hr : e.registered = d.registered) (hw : e.writer.hasFailed = false) :
    Failing timeout now c e where
  closing := by
    intro deadline he
    simp [he, Writer.hasFailed] at hw
  finished := by
    intro he
    simp [he, Writer.hasFailed] at hw
  registered := fun _ => hr.trans (hf.registered hd)

theorem fail (hf : Failing timeout now c d) (hd : d.writer.isFinished = false) :
    Failing timeout now c (d.startClosing .failed (now + timeout)) where
  closing := by
    intro deadline he
    cases he
    rfl
  finished := nofun
  registered := fun _ => hf.registered hd

theorem finish {ending : Ending}
    (hc : ending = .failed → d.sink.close ≠ .pending ∨ timeout = 0) :
    Failing timeout now c (d.finish ending) where
  closing := by simp
  finished := by simpa using hc
  registered := by simp [Writer.isFinished]

/-- Every action of the writer keeps this. -/
theorem step (hs : d.step? timeout now = some e) (hf : Failing timeout now c d) :
    Failing timeout now c e := by
  have hd : d.writer.isFinished = false := Connection.isFinished_of_step?_eq_some hs
  rcases hw : d.writer with
      _ | ⟨f, _ | _, deadline⟩ | ⟨_ | _, deadline⟩ | ⟨ending, deadline⟩ | ending
  · rw [Connection.step?_idle hw] at hs
    split at hs
    · cases hs
      exact hf.onward hd rfl rfl
    · obtain ⟨f, -, rfl⟩ := Option.map_eq_some_iff.mp hs
      exact hf.onward hd rfl rfl
  all_goals simp only [Connection.step?, hw] at hs
  · split at hs <;> cases hs
    · exact hf.onward hd rfl rfl
    · exact hf.fail hd
  · split at hs <;> cases hs
    · exact hf.onward hd rfl rfl
    · exact hf.fail hd
  · split at hs <;> cases hs
    · exact hf.onward hd rfl rfl
    · exact hf.onward hd rfl rfl
  · split at hs <;> cases hs <;> exact hf.onward hd rfl rfl
  · split at hs
    · next hc =>
      cases hs
      exact finish fun _ => .inl (by simp [hc])
    · next hc =>
      cases hs
      exact finish fun _ => .inl (by simp [hc])
    · split at hs <;> cases hs
      next hd =>
      refine finish fun he => .inr ?_
      have := hf.closing deadline (by rw [hw, he])
      omega
  · cases hs

theorem drive (hn : c.writer.hasFailed = false) : Failing timeout now c (c.drive timeout now) :=
  Connection.drive_keep (fun _ _ hs hf => step hs hf) (start hn)

end Failing

/-- A turn in which a write fails leaves the queue open just in case the connection was registered,
the sink's close hangs, its deadline is yet to come, and there is room. -/
theorem Connection.accepts_drive_eq_false_iff {timeout now capacity : Nat} {c : Connection}
    (hc : Coherent (c.drive timeout now)) (hn : c.writer.hasFailed = false)
    (hf : (c.drive timeout now).writer.hasFailed) :
    (c.drive timeout now).accepts capacity = false ↔
      c.registered = false ∨ (c.drive timeout now).sink.close ≠ .pending ∨ timeout = 0 ∨
        capacity ≤ (c.drive timeout now).queue.length := by
  have failing : Failing timeout now c (c.drive timeout now) := .drive hn
  have waits := Connection.step?_drive_eq_none timeout now c
  generalize c.drive timeout now = d at hc hf failing waits ⊢
  obtain ⟨deadline, hw⟩ | hw := d.writer.hasFailed_iff.mp hf
  · obtain rfl := failing.closing deadline hw
    have hr : d.registered = c.registered := failing.registered (by rw [hw]; rfl)
    have hclose : d.sink.close = .pending ∧ timeout ≠ 0 := by
      simp only [step?, hw] at waits
      split at waits
      · cases waits
      · cases waits
      · next h => exact ⟨h, by rintro rfl; simp at waits⟩
    have ha : d.stage = .active ↔ c.registered := by rw [← hr]; exact hc.active.symm
    cases hs : c.registered with
    | true => simp [accepts, ha.mpr hs, hclose]
    | false =>
      have hn : d.stage ≠ .active := by simp [ha, hs]
      simp [accepts, hn]
  · have hs : d.stage = .closed := hc.closed.mpr (by rw [hw]; rfl)
    rcases failing.finished hw with h | h
    · simp [accepts, hs, h]
    · simp [accepts, hs, h]

/-- A turn of its writer in which a write to a connection fails ends all delivery to it just in case
the connection was off the registry before, the sink's close does not hang, closing has no time at
all, or the queue is full. -/
theorem deserted_iff_of_failing_turn (t : Tuning) (moves : List Move) (i : Nat) (c d : Connection)
    (hc : ((Service.start t).after moves).connections[i]? = some c)
    (hd : ((Service.start t).after (moves ++ [.turn (.writer i)])).connections[i]? = some d)
    (hn : c.writer.hasFailed = false) (hf : d.writer.hasFailed) :
    ((Service.start t).after (moves ++ [.turn (.writer i)])).Deserted i ↔
      c.registered = false ∨ d.sink.close ≠ .pending ∨ t.writeTimeout = 0 ∨
        t.capacity ≤ d.queue.length := by
  have coherent := Coherent.of_run hd
  rw [Service.deserted_iff hd hf, Service.tuning_after]
  rw [Service.after_append] at hd
  obtain rfl : d = c.drive t.writeTimeout ((Service.start t).after moves).now := by
    have hturn := Service.getElem?_writer_turn hc
    rw [Service.tuning_after] at hturn
    exact Option.some.inj (hd.symm.trans hturn)
  exact Connection.accepts_drive_eq_false_iff coherent hn hf

/-- If the sink closes at once, a failing turn ends all delivery. -/
theorem deserted_of_failing_turn_closed :
    let who : Bearer := ⟨"u", ⟨"acme"⟩, .agent⟩
    let moves : List Move :=
      [.register who (.probe { failAfter := some 0 }) false, .deliver 0 (.text "a")]
    ((Service.start ⟨100, 16⟩).after (moves ++ [.turn (.writer 0)])).Deserted 0 := by
  intro who moves
  let probe : Probe := { failAfter := some 0 }
  let c : Connection := { bearer := who, queue := [.text "a"], sink := .probe probe }
  let d : Connection :=
    { bearer := who, stage := .closed, registered := false, signalled := true,
      writer := .finished .failed, sink := .probe { probe with closed := true } }
  exact (deserted_iff_of_failing_turn ⟨100, 16⟩ moves 0 c d rfl rfl rfl rfl).mpr (.inr (.inl nofun))

/-- If the sink's close hangs, the next frame is accepted and a broadcast counts the connection.
When closing is given up, the frame is lost. -/
theorem not_deserted_while_closing :
    let who : Bearer := ⟨"u", ⟨"acme"⟩, .agent⟩
    let probe : Probe := { failAfter := some 0, stallClose := true }
    let moves : List Move :=
      [.register who (.probe probe) false, .deliver 0 (.text "a"), .turn (.writer 0)]
    let s := (Service.start ⟨100, 16⟩).after moves
    let c : Connection := { bearer := who, writer := .closing .failed 100, sink := .probe probe }
    let d : Connection :=
      { bearer := who, stage := .closed, registered := false, signalled := true,
        queue := [.text "b"], writer := .finished .failed, sink := .probe probe }
    s.connections[0]? = some c ∧ c.writer.hasFailed ∧ ¬ s.Deserted 0 ∧
      (s.deliver 0 (.text "b")).1 = .ok () ∧ (s.broadcast [98] who.tenant).1.queued = 1 ∧
      (s.after [.deliver 0 (.text "b"), .tick 100, .turn (.writer 0)]).connections[0]? =
        some d := by
  intro who probe moves s c d
  have delivered : (s.deliver 0 (.text "b")).1 = .ok () := rfl
  refine ⟨by decide +kernel, rfl, ?_, delivered, by decide +kernel, by decide +kernel⟩
  intro hd
  obtain ⟨e, he⟩ := hd.deliver [] (.text "b")
  exact nomatch delivered.symm.trans he

end Fanout.Live
