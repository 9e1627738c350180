import Fanout.Proofs.Live.Interjection
import Fanout.Proofs.Live.Session

/-!
Sessions with interludes. When all tasks have run until they wait, a client says something harmless; its
reader looks at it, and nobody else is woken. Afterwards the same tasks are ready in the same order and wait
for the same deadlines, so the session goes on by the same moves.
-/

namespace Fanout.Live

namespace Service

variable {pinged : Nat → Bool} {s s' : Service} {t : Tuning}

/-! ### Who is ready -/

theorem ready_wake_congr (hr : s'.ready = s.ready) (tasks : List Task) :
    (s'.wake tasks).ready = (s.wake tasks).ready := by
  simp only [wake, hr]

/-- A writer that removes its connection wakes the reader. -/
theorem ready_runWriter (s : Service) {i : Nat} {c : Connection} (hc : s.connections[i]? = some c) :
    (s.runWriter i).ready =
      if (c.drive s.tuning.writeTimeout s.now).signalled && !c.signalled then (s.wake [.reader i]).ready
      else s.ready := by
  simp only [runWriter, hc]
  split <;> rfl

/-- A reader that ends wakes the writer. -/
theorem ready_runReader (s : Service) {i : Nat} {c : Connection} (hc : s.connections[i]? = some c) :
    (s.runReader i).ready =
      if !c.readEnd?.isSome && c.read.readEnd?.isSome then (s.wake [.writer i]).ready else s.ready := by
  simp only [runReader, hc]
  cases c.readEnd? <;> cases c.read.readEnd? <;> rfl

namespace Mirrors

theorem ready_broadcast (h : Mirrors pinged s s') (hr : s'.ready = s.ready) (body : Octets)
    (tag : Tenant) : (s'.broadcast body tag).2.ready = (s.broadcast body tag).2.ready := by
  obtain ⟨targets, evicted⟩ := h.audience tag
  simp only [Service.broadcast, h.tuning, targets, evicted]
  exact ready_wake_congr (s := { s with connections := _ }) hr _

theorem ready_dispatch (h : Mirrors pinged s s') (hr : s'.ready = s.ready) (b : Bridge)
    (body : Octets) : (s'.dispatch b body).2.ready = (s.dispatch b body).2.ready := by
  rw [Service.dispatch, Service.dispatch]
  cases Event.Scope.ofOctets body with
  | tenant tag => exact h.ready_broadcast hr body tag
  | untagged reason =>
    cases b.policy with
    | drop => exact hr
    | broadcast => exact (h.record _).ready_broadcast hr body Tenant.empty

theorem ready_handle (h : Mirrors pinged s s') (hr : s'.ready = s.ready) (b : Bridge)
    (bodies : List Octets) : (s'.handle b bodies).ready = (s.handle b bodies).ready := by
  induction bodies generalizing s s' with
  | nil => exact hr
  | cons body rest ih => exact ih (h.dispatch b body).2 (h.ready_dispatch hr b body)

theorem ready_playBridge (h : Mirrors pinged s s') (hr : s'.ready = s.ready) (b : Bridge)
    (broker : Broker) : (s'.playBridge b broker).2.2.ready = (s.playBridge b broker).2.2.ready := by
  cases hm : broker.perform (b.setup broker) with
  | mk made fault =>
    cases fault with
    | some e =>
      rw [playBridge_of_fault s b broker hm, playBridge_of_fault s' b broker hm]
      exact hr
    | none =>
      obtain hd | ⟨e, later, hd⟩ := Delivery.stream_cases broker.deliveries
      · rw [playBridge_of_end s b broker hm hd, playBridge_of_end s' b broker hm hd]
        exact h.ready_handle hr b _
      · rw [playBridge_of_failure s b broker hm hd, playBridge_of_failure s' b broker hm hd]
        exact h.ready_handle hr b _

theorem ready_runBridge (h : Mirrors pinged s s') (hr : s'.ready = s.ready) (j : Nat) :
    (s'.runBridge j).ready = (s.runBridge j).ready := by
  cases hj : s.bridges[j]? with
  | none =>
    have hj' : s'.bridges[j]? = none := by rw [h.bridges, hj]
    simp only [runBridge, hj, hj', hr]
  | some r =>
    have hj' : s'.bridges[j]? = some r := by rw [h.bridges, hj]
    obtain ⟨r₁, s₁, -, ran⟩ := s.runBridge_turn hj
    obtain ⟨r₂, s₂, -, ran'⟩ := s'.runBridge_turn hj'
    rw [ran, ran']
    exact h.ready_handle hr r.bridge r.handed

theorem ready_turn (h : Mirrors pinged s s') (hr : s'.ready = s.ready) (hs : Reached t s)
    (hs' : Reached t s') (task : Task) (room : s'.Roomy pinged)
    (roomy : (s'.perform (.turn task)).Roomy pinged) :
    (s'.perform (.turn task)).ready = (s.perform (.turn task)).ready := by
  have erased : s'.ready.erase task = s.ready.erase task := by rw [hr]
  cases task with
  | bridge j =>
    have aside : Mirrors pinged { s with ready := s.ready.erase (.bridge j) }
        { s' with ready := s'.ready.erase (.bridge j) } :=
      ⟨h.tuning, h.now, h.bridges, h.status, h.each⟩
    exact aside.ready_runBridge erased j
  | writer j =>
    let u : Service := { s with ready := s.ready.erase (.writer j) }
    let u' : Service := { s' with ready := s'.ready.erase (.writer j) }
    change (u'.runWriter j).ready = (u.runWriter j).ready
    obtain ⟨hn, hn'⟩ | ⟨c, c', hc, hc', alike⟩ := h.cases j
    · have absent : u.connections[j]? = none := hn
      have absent' : u'.connections[j]? = none := hn'
      simp only [runWriter, absent, absent']
      exact erased
    · have next := (h.perform hs hs' (.turn (.writer j)) room roomy).1.each j
      rw [getElem?_writer_turn hc, getElem?_writer_turn hc'] at next
      cases next with
      | some driven =>
        have told : (c'.drive s'.tuning.writeTimeout s'.now).signalled =
            (c.drive s.tuning.writeTimeout s.now).signalled := driven.signalled
        rw [ready_runWriter u hc, ready_runWriter u' hc']
        change (if (c'.drive s'.tuning.writeTimeout s'.now).signalled && !c'.signalled then _ else _) = _
        rw [told, alike.signalled]
        split
        · exact ready_wake_congr erased _
        · exact erased
  | reader j =>
    let u : Service := { s with ready := s.ready.erase (.reader j) }
    let u' : Service := { s' with ready := s'.ready.erase (.reader j) }
    change (u'.runReader j).ready = (u.runReader j).ready
    obtain ⟨hn, hn'⟩ | ⟨c, c', hc, hc', alike⟩ := h.cases j
    · have absent : u.connections[j]? = none := hn
      have absent' : u'.connections[j]? = none := hn'
      simp only [runReader, absent, absent']
      exact erased
    · have read := alike.read (hs.warned hc) (hs'.warned hc')
      rw [ready_runReader u hc, ready_runReader u' hc', alike.isSome_readEnd?, read.isSome_readEnd?]
      split
      · exact ready_wake_congr erased _
      · exact erased

/-- Who is ready after a move is the same if it was before. -/
theorem ready_perform (h : Mirrors pinged s s') (hr : s'.ready = s.ready) (hs : Reached t s)
    (hs' : Reached t s') (m : Move) (room : s'.Roomy pinged) (roomy : (s'.perform m).Roomy pinged) :
    (s'.perform m).ready = (s.perform m).ready := by
  cases m with
  | register who sink reads =>
    rw [perform_register, perform_register, h.tuning, h.length]
    split
    · exact hr
    · exact ready_wake_congr (s := { s with connections := _ }) hr _
  | remove i =>
    simp only [Service.perform, remove]
    obtain ⟨hn, hn'⟩ | ⟨c, c', hc, hc', alike⟩ := h.cases i
    · simp only [hn, hn']
      exact hr
    · obtain ⟨-, -⟩ := alike
      simp only [hc, hc', Connection.refit]
      split
      · exact ready_wake_congr (s := s.modify i _) hr _
      · exact hr
  | deliver i f =>
    simp only [Service.perform, deliver]
    obtain ⟨hn, hn'⟩ | ⟨c, c', hc, hc', alike⟩ := h.cases i
    · simp only [hn, hn']
      exact hr
    · obtain ⟨-, -⟩ := alike
      simp only [hc, hc', Connection.deliver_refit, h.tuning]
      cases c.deliver s.tuning.capacity f with
      | error e => exact hr
      | ok d => exact ready_wake_congr (s := { s with connections := _ }) hr _
  | broadcast body tag => exact h.ready_broadcast hr body tag
  | hand b body => exact h.ready_dispatch hr b body
  | play b broker => exact h.ready_playBridge hr b broker
  | spawn b broker =>
    simp only [Service.perform, addBridge, h.bridges]
    exact ready_wake_congr (s := { s with bridges := _ }) hr _
  | feed j item last =>
    simp only [Service.perform, feed, h.bridges]
    cases s.bridges[j]? with
    | none => exact hr
    | some r => exact ready_wake_congr (s := { s with bridges := _ }) hr _
  | behave i p => exact ready_wake_congr (s := s.modify i _) hr _
  | receive i item => exact ready_wake_congr (s := s.modify i _) hr _
  | cutOff i =>
    exact ready_wake_congr (s := (s.modify i _).receive i .error)
      (ready_wake_congr (s := (s.modify i _).modify i _) hr _) _
  | fetch i => exact ready_wake_congr (s := s.modify i _) hr _
  | turn task => exact h.ready_turn hr hs hs' task room roomy
  | wake tasks => exact ready_wake_congr hr tasks
  | tick ms => exact hr
  | setStatus status => exact hr

end Mirrors

/-! ### The same moves -/

/-- Two services that differ only in what clients have sent on top, in which the same tasks are ready. -/
structure InStep (t : Tuning) (pinged : Nat → Bool) (s s' : Service) : Prop where
  mirrors : Mirrors pinged s s'
  ready : s'.ready = s.ready
  plain : Reached t s
  further : Reached t s'
  room : s'.Roomy pinged

/-- The pipes have room after every move of a run. -/
def RoomyAlong (pinged : Nat → Bool) (s : Service) (moves : List Move) : Prop :=
  s.Meets (fun s m => (s.perform m).Roomy pinged) moves

instance {moves : List Move} : Decidable (s.RoomyAlong pinged moves) :=
  inferInstanceAs (Decidable (s.Meets _ moves))

namespace InStep

theorem perform (h : InStep t pinged s s') (m : Move) (roomy : (s'.perform m).Roomy pinged) :
    InStep t pinged (s.perform m) (s'.perform m) where
  mirrors := (h.mirrors.perform h.plain h.further m h.room roomy).1
  ready := h.mirrors.ready_perform h.ready h.plain h.further m h.room roomy
  plain := h.plain.perform m
  further := h.further.perform m
  room := roomy

theorem after (h : InStep t pinged s s') {moves : List Move} (rooms : s'.RoomyAlong pinged moves) :
    InStep t pinged (s.after moves) (s'.after moves) := by
  induction moves generalizing s s' with
  | nil => exact h
  | cons m rest ih => exact ih (h.perform m rooms.1) rooms.2

/-- The first moves are the same, and so are those that follow. -/
theorem append (h : InStep t pinged s s') {first second first' second' : List Move}
    (rooms : s'.RoomyAlong pinged (first' ++ second'))
    (begins : s'.RoomyAlong pinged first' → first' = first)
    (follows : InStep t pinged (s.after first) (s'.after first') →
      (s'.after first').RoomyAlong pinged second' → second' = second) :
    first' ++ second' = first ++ second := by
  obtain ⟨now, later⟩ := meets_append.mp rooms
  obtain rfl := begins now
  rw [follows (h.after now) later]

theorem turnMoves (h : InStep t pinged s s') (n : Nat)
    (rooms : s'.RoomyAlong pinged (turnMoves n s')) :
    Service.turnMoves n s' = Service.turnMoves n s := by
  induction n generalizing s s' with
  | zero => rfl
  | succ n ih =>
    cases hr : s.ready with
    | nil => rw [(turns_of_idle hr _).2, (turns_of_idle (h.ready.trans hr) _).2]
    | cons task rest =>
      rw [(turns_succ (h.ready.trans hr) n).2] at rooms ⊢
      rw [(turns_succ hr n).2, ih (h.perform _ rooms.1) rooms.2]

theorem settleMoves (h : InStep t pinged s s') (rooms : s'.RoomyAlong pinged s'.settleMoves) :
    s'.settleMoves = s.settleMoves := by
  have workload : s'.workload = s.workload := by
    rw [workload, workload, h.ready, h.mirrors.length]
  rw [Service.settleMoves, workload] at rooms ⊢
  exact h.turnMoves _ rooms

/-- The same writers wait for the same deadlines. -/
theorem writers (h : Mirrors pinged s s') :
    s'.connections.map Connection.writer = s.connections.map Connection.writer := by
  apply List.ext_getElem?
  intro i
  rw [List.getElem?_map, List.getElem?_map]
  obtain ⟨hn, hn'⟩ | ⟨c, c', hc, hc', alike⟩ := h.cases i
  · rw [hn, hn']
  · obtain ⟨-, -⟩ := alike
    rw [hc, hc']
    rfl

theorem nextDeadline? (h : Mirrors pinged s s') (limit : Nat) :
    s'.nextDeadline? limit = s.nextDeadline? limit := by
  have waits (s : Service) : s.connections.filterMap (fun c => c.writer.deadline?) =
      (s.connections.map Connection.writer).filterMap Writer.deadline? := by
    rw [List.filterMap_map]
    rfl
  rw [Service.nextDeadline?, Service.nextDeadline?, waits, waits, writers h]

theorem dueMoves (h : InStep t pinged s s') (deadline : Nat)
    (rooms : s'.RoomyAlong pinged (s'.dueMoves deadline)) :
    s'.dueMoves deadline = s.dueMoves deadline := by
  have now : s'.now = s.now := h.mirrors.now
  have late := (h.perform (.tick (deadline - s'.now)) rooms.1).mirrors
  have due : (s'.perform (.tick (deadline - s'.now))).due =
      (s.perform (.tick (deadline - s'.now))).due := by
    rw [due, due, late.now]
    exact congrArg _ (late.numbers fun _ _ _ => rfl)
  rw [Service.dueMoves, Service.dueMoves, due, now]

theorem fireMoves (h : InStep t pinged s s') (deadline : Nat)
    (rooms : s'.RoomyAlong pinged (s'.fireMoves deadline)) :
    s'.fireMoves deadline = s.fireMoves deadline := by
  obtain ⟨now, -⟩ := meets_append.mp rooms
  have due := h.dueMoves deadline now
  refine h.append rooms (fun _ => due) fun later rooms => ?_
  rw [due] at later rooms ⊢
  exact later.settleMoves rooms

theorem fireUntilMoves (h : InStep t pinged s s') (limit n : Nat)
    (rooms : s'.RoomyAlong pinged (fireUntilMoves limit n s')) :
    Service.fireUntilMoves limit n s' = Service.fireUntilMoves limit n s := by
  induction n generalizing s s' with
  | zero => rfl
  | succ n ih =>
    have next := nextDeadline? h.mirrors limit
    cases hd : s.nextDeadline? limit with
    | none => rw [(fireUntil_of_none hd _).2, (fireUntil_of_none (next.trans hd) _).2]
    | some d =>
      rw [(fireUntil_succ (next.trans hd) n).2] at rooms ⊢
      rw [(fireUntil_succ hd n).2]
      refine h.append rooms (h.fireMoves d) fun later rooms => ?_
      rw [after_fireMoves] at rooms
      rw [after_fireMoves, after_fireMoves] at later
      exact ih later rooms

theorem settle (h : InStep t pinged s s') (rooms : s'.RoomyAlong pinged s'.settleMoves) :
    InStep t pinged s.settle s'.settle := by
  have settled := h.after rooms
  rw [after_settleMoves, h.settleMoves rooms, after_settleMoves] at settled
  exact settled

theorem advanceMoves (h : InStep t pinged s s') (ms : Nat)
    (rooms : s'.RoomyAlong pinged (s'.advanceMoves ms)) :
    s'.advanceMoves ms = s.advanceMoves ms := by
  obtain ⟨first, -⟩ := meets_append.mp (meets_append.mp rooms).1
  have settled := h.settle first
  have limit : s'.settle.now = s.settle.now := settled.mirrors.now
  have length := settled.mirrors.length
  rw [Service.advanceMoves, limit, length] at rooms ⊢
  obtain ⟨before, -⟩ := meets_append.mp rooms
  obtain ⟨-, until'⟩ := meets_append.mp before
  rw [after_settleMoves] at until'
  have same := settled.fireUntilMoves _ _ until'
  have arrived := (settled.after until').mirrors.now
  rw [after_fireUntilMoves, same, after_fireUntilMoves] at arrived
  rw [Service.advanceMoves, h.settleMoves first, same, arrived]

theorem stepMoves (h : InStep t pinged s s') (x : Step)
    (rooms : s'.RoomyAlong pinged (s'.stepMoves x)) : s'.stepMoves x = s.stepMoves x := by
  cases x with
  | move m atOnce => rfl
  | settle => exact h.settleMoves rooms
  | advance ms => exact h.advanceMoves ms rooms

theorem step (h : InStep t pinged s s') (x : Step) (rooms : s'.RoomyAlong pinged (s'.stepMoves x)) :
    InStep t pinged (s.step x) (s'.step x) := by
  have next := h.after rooms
  rwa [after_stepMoves, h.stepMoves x rooms, after_stepMoves] at next

end InStep

/-! ### Interludes -/

/-- The same session with interludes: when nobody is ready, a client says something harmless and the tasks
are run until they wait. -/
inductive Interluded (pinged : Nat → Bool) : Service → List Step → List Step → Prop where
  | nil (s : Service) : Interluded pinged s [] []
  | step {s : Service} (x : Step) {steps steps' : List Step}
      (rest : Interluded pinged (s.step x) steps steps') :
      Interluded pinged s (x :: steps) (x :: steps')
  | interlude {s : Service} (i : Nat) {x : Inbound} (harmless : x.isHarmless)
      (ping : ∀ b, x = .ping b → pinged i) (settled : s.ready = []) {steps steps' : List Step}
      (rest : Interluded pinged s steps steps') :
      Interluded pinged s steps (.move (.receive i x) nofun :: .settle :: steps')

theorem Interjected.append {pinged : Nat → Bool} {s : Service} (first : List Move)
    {moves moves' : List Move} (rest : Interjected pinged (s.after first) moves moves') :
    Interjected pinged s (first ++ moves) (first ++ moves') := by
  induction first generalizing s with
  | nil => exact rest
  | cons m first ih => exact .move m (ih rest)

/-- Nobody but the reader has a turn in an interlude. -/
theorem InStep.interlude (h : InStep t pinged s s') {i : Nat} {x : Inbound} (harmless : x.isHarmless)
    (ping : ∀ b, x = .ping b → pinged i) (settled : s.ready = []) :
    (s'.perform (.receive i x)).settleMoves = [.turn (.reader i)] ∧
      (((s'.perform (.receive i x)).perform (.turn (.reader i))).Roomy pinged →
        InStep t pinged s ((s'.perform (.receive i x)).perform (.turn (.reader i)))) := by
  have heard := h.mirrors.item harmless ping
  have idle : .reader i ∉ s.ready := settled ▸ List.not_mem_nil
  have awake : (s'.perform (.receive i x)).ready = [.reader i] := by
    have empty : s'.ready = [] := h.ready.trans settled
    change (s'.wake [.reader i]).ready = _
    simp [wake, empty]
  have read := heard.turn h.plain idle
  have further := (h.further.perform (.receive i x)).perform (.turn (.reader i))
  generalize s'.perform (.receive i x) = u at *
  have done : (u.perform (.turn (.reader i))).ready = [] := by
    have erased : u.ready.erase (.reader i) = [] := by
      rw [awake]
      exact List.erase_cons_head _ _
    let u₀ : Service := { u with ready := u.ready.erase (.reader i) }
    change (u₀.runReader i).ready = []
    obtain ⟨hn, hn'⟩ | ⟨c, d, hc, hd, alike⟩ := heard.cases i
    · have absent : u₀.connections[i]? = none := hn'
      simp only [runReader, absent]
      exact erased
    · have still : d.read.readEnd?.isSome = d.readEnd?.isSome := by
        have later := alike.readFurther (h.plain.listens hc idle) (h.plain.warned hc)
        rw [later.isSome_readEnd?, alike.isSome_readEnd?]
      rw [ready_runReader u₀ hd, still, Bool.not_and_self]
      exact erased
  refine ⟨?_, fun roomy => ⟨read, done.trans settled.symm, h.plain, further, roomy⟩⟩
  have busy : 0 < u.workload := Nat.mul_pos (Nat.succ_pos _) (Nat.succ_pos _)
  obtain ⟨n, enough⟩ := Nat.exists_eq_succ_of_ne_zero (Nat.ne_of_gt busy)
  rw [Service.settleMoves, enough, (turns_succ awake n).2, (turns_of_idle done n).2]

/-- The moves of a session with interludes are those of the session, with harmless items and turns of
readers in them. -/
theorem Interluded.interjected {steps steps' : List Step} (h : Interluded pinged s steps steps')
    (both : InStep t pinged s s') (rooms : s'.RoomyAlong pinged (s'.sessionMoves steps')) :
    Interjected pinged s (s.sessionMoves steps) (s'.sessionMoves steps') ∧
      (s'.session steps').ready = (s.session steps).ready := by
  induction h generalizing s' with
  | nil s => exact ⟨.nil s, both.ready⟩
  | step x rest ih =>
    obtain ⟨now, later⟩ := meets_append.mp rooms
    rw [after_stepMoves] at later
    obtain ⟨runs, ready⟩ := ih (both.step x now) later
    refine ⟨?_, ready⟩
    rw [sessionMoves, sessionMoves, both.stepMoves x now]
    refine .append _ ?_
    rwa [after_stepMoves]
  | @interlude s i x harmless ping settled steps steps' rest ih =>
    obtain ⟨turn, again⟩ := both.interlude harmless ping settled
    let u := s'.perform (.receive i x)
    have read : u.settle = u.perform (.turn (.reader i)) := by
      rw [← after_settleMoves, turn]
      rfl
    have moves : s'.sessionMoves (.move (.receive i x) nofun :: .settle :: steps') =
        .receive i x :: .turn (.reader i) :: (u.perform (.turn (.reader i))).sessionMoves steps' := by
      change .receive i x :: (u.settleMoves ++ u.settle.sessionMoves steps') = _
      rw [turn, read]
      rfl
    rw [moves] at rooms ⊢
    obtain ⟨-, roomy, later⟩ := rooms
    obtain ⟨runs, ready⟩ := ih (again roomy) later
    have idle : .reader i ∉ s.ready := settled ▸ List.not_mem_nil
    refine ⟨.item i harmless ping (.turn i idle runs), ?_⟩
    change (u.settle.session steps').ready = _
    rw [read, ready]

end Service

end Fanout.Live
