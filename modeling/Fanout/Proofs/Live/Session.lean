import Fanout.Proofs.Live.Clock

/-!
Sessions. The service is driven from outside by operations at once; between them all tasks are run
until they wait, or the clock is moved on. A session is a run whose turns are taken in the order in
which the tasks became ready, and it never passes over a deadline. In such runs the deadlines of the
writer bound every teardown.
-/

namespace Fanout.Live

/-- A step of a session. Time passes only when the clock is moved on. -/
inductive Step where
  | move (m : Move) (atOnce : ∀ ms, m ≠ .tick ms)
  | settle
  | advance (ms : Nat)

/-- Whether nobody is ready after a step, whatever was before. -/
def Step.settles : Step → Bool
  | .move _ _ => false
  | .settle | .advance _ => true

theorem Move.elapsed_eq_zero {m : Move} (h : ∀ ms, m ≠ .tick ms) : m.elapsed = 0 := by
  cases m with
  | tick ms => exact absurd rfl (h ms)
  | _ => rfl

namespace Service

def step (s : Service) : Step → Service
  | .move m _ => s.perform m
  | .settle => s.settle
  | .advance ms => s.advance ms

def stepMoves (s : Service) : Step → List Move
  | .move m _ => [m]
  | .settle => s.settleMoves
  | .advance ms => s.advanceMoves ms

/-- The service after a session. -/
def session (s : Service) (steps : List Step) : Service := steps.foldl step s

/-- The moves of a session. -/
def sessionMoves (s : Service) : List Step → List Move
  | [] => []
  | x :: rest => s.stepMoves x ++ (s.step x).sessionMoves rest

variable {s : Service}

theorem after_stepMoves (s : Service) (x : Step) : s.after (s.stepMoves x) = s.step x := by
  cases x with
  | move m atOnce => rfl
  | settle => exact s.after_settleMoves
  | advance ms => exact s.after_advanceMoves ms

theorem after_sessionMoves (s : Service) (steps : List Step) :
    s.after (s.sessionMoves steps) = s.session steps := by
  induction steps generalizing s with
  | nil => rfl
  | cons x rest ih =>
    rw [sessionMoves, after_append, after_stepMoves, ih]
    rfl

/-- Between two steps every writer is ready or waits. -/
theorem Poised.step (hs : s.Poised) (x : Step) : (s.step x).Poised := by
  cases x with
  | move m atOnce => exact hs.perform (Move.elapsed_eq_zero atOnce)
  | settle => exact hs.settle.poised
  | advance ms => exact (hs.advance ms).poised

/-- When tasks have been run until they wait, nobody has anything to do. -/
theorem Poised.settled_step (hs : s.Poised) {x : Step} (hx : x.settles) : (s.step x).Settled := by
  cases x with
  | move m atOnce => cases hx
  | settle => exact hs.settle.settled
  | advance ms => exact (hs.advance ms).settled

theorem Poised.session (hs : s.Poised) (steps : List Step) : (s.session steps).Poised := by
  induction steps generalizing s with
  | nil => exact hs
  | cons x rest ih => exact ih (hs.step x)

/-- A session that ends with tasks run until they wait ends at a settled point. -/
theorem settled_session (t : Tuning) (steps : List Step) {x : Step} (hx : x.settles) :
    ((start t).session (steps ++ [x])).Settled := by
  rw [Service.session, List.foldl_append]
  exact ((poised_start t).session steps).settled_step hx

/-! ### Sessions are punctual -/

theorem punctual_settleMoves (s : Service) : s.Meets Punctual s.settleMoves := by
  refine meets_of_forall (fun m hm u => ?_) s
  obtain ⟨task, rfl⟩ := turn_of_mem_turnMoves hm
  exact trivial

theorem Quiet.punctual_fireMoves (hs : s.Quiet) {limit time : Nat}
    (hd : s.nextDeadline? limit = some time) : s.Meets Punctual (s.fireMoves time) := by
  refine meets_append.mpr ⟨⟨⟨hs.ready, ?_⟩, trivial, trivial⟩, punctual_settleMoves _⟩
  intro c hc d hd'
  obtain ⟨i, hi⟩ := List.mem_iff_getElem?.mp hc
  have early := (hs.waits i c hi).early d hd'
  have least := (nextDeadline?_eq_some hd).2 i d ((deadlineOf?_eq hi).trans hd')
  omega

theorem Quiet.punctual_fireUntilMoves (hs : s.Quiet) (limit n : Nat) :
    s.Meets Punctual (fireUntilMoves limit n s) := by
  induction n generalizing s with
  | zero => trivial
  | succ n ih =>
    cases hd : s.nextDeadline? limit with
    | none =>
      rw [(fireUntil_of_none hd _).2]
      trivial
    | some d =>
      rw [(fireUntil_succ hd n).2]
      refine meets_append.mpr ⟨hs.punctual_fireMoves hd, ?_⟩
      rw [after_fireMoves]
      exact ih (hs.fire d)

theorem Poised.punctual_advanceMoves (hs : s.Poised) (ms : Nat) :
    s.Meets Punctual (s.advanceMoves ms) := by
  have arrived := hs.settle.fireUntil (s.settle.now + ms) (3 * s.settle.connections.length)
  have none := hs.settle.nextDeadline?_fireUntil (s.settle.now + ms) (legs_le _)
  refine meets_append.mpr ⟨meets_append.mpr ⟨s.punctual_settleMoves, ?_⟩, ?_⟩
  · rw [after_settleMoves]
    exact hs.settle.punctual_fireUntilMoves _ _
  · rw [after_append, after_settleMoves, after_fireUntilMoves]
    refine ⟨⟨arrived.ready, ?_⟩, trivial⟩
    intro c hc d hd
    obtain ⟨i, hi⟩ := List.mem_iff_getElem?.mp hc
    have early := arrived.early ((deadlineOf?_eq hi).trans hd)
    have passed := nextDeadline?_eq_none none ((deadlineOf?_eq hi).trans hd)
    omega

theorem Poised.punctual_sessionMoves (hs : s.Poised) (steps : List Step) :
    s.Meets Punctual (s.sessionMoves steps) := by
  induction steps generalizing s with
  | nil => trivial
  | cons x rest ih =>
    refine meets_append.mpr ⟨?_, ?_⟩
    · cases x with
      | move m atOnce =>
        refine ⟨?_, trivial⟩
        cases m with
        | tick ms => exact absurd rfl (atOnce ms)
        | _ => exact trivial
      | settle => exact s.punctual_settleMoves
      | advance ms => exact hs.punctual_advanceMoves ms
    · rw [after_stepMoves]
      exact ih (hs.step x)

/-- No deadline is passed over in a session. -/
theorem punctual_session (t : Tuning) (steps : List Step) :
    (start t).Meets Punctual ((start t).sessionMoves steps) :=
  (poised_start t).punctual_sessionMoves steps

end Service

/-! ### Teardown -/

/-- Deadlines bound every teardown, however the sink hesitates and whatever else happens, in every
run whose clock waits for whoever is ready and stops at every deadline. At a settled point, a
connection that began to send a frame and had not sent it within the timeout has left the registry
when twice the timeout is over. A connection that has left the registry is closed when three times
the timeout is over, its writer has finished, and its sink was told to close once. A session that ends
with tasks run until they wait is such a run and ends at a settled point. -/
theorem teardown_bounded (t : Tuning) (moves : List Move)
    (hm : (Service.start t).Meets Service.Punctual moves)
    (hs : ((Service.start t).after moves).Settled) (i : Nat) (c : Connection)
    (hc : ((Service.start t).after moves).connections[i]? = some c) :
    let now := ((Service.start t).after moves).now
    let g := (Service.start t).journal (Connection.milestones t) i moves
    (∀ pre start f post, g = pre ++ .begun start f :: post →
      (∀ time f', .sent time f' ∈ post → start + t.writeTimeout < time) →
      start + 2 * t.writeTimeout ≤ now → c.registered = false) ∧
    (∀ r, .left r ∈ g → r + 3 * t.writeTimeout ≤ now →
      c.writer.isFinished ∧ c.stage = .closed ∧ g.countP Milestone.isClosing = 1) ∧
    (c.registered = false → ∃ r ≤ now, .left r ∈ g) ∧
    ∀ steps x, x.settles →
      (Service.start t).Meets Service.Punctual ((Service.start t).sessionMoves (steps ++ [x])) ∧
        ((Service.start t).after ((Service.start t).sessionMoves (steps ++ [x]))).Settled := by
  intro now g
  have timely : Timely t.writeTimeout now g c := .of_run hm hc
  have waits : c.Waits now := ((Service.watched_start t).after moves).waits hs hc
  refine ⟨?_, ?_, timely.leaves, ?_⟩
  · intro pre start f post hg late hn
    rcases timely.sends pre start f post hg with ⟨time, f', hsent, ht⟩ | ho
    · have := late time f' hsent
      omega
    · have hf := waits.isFinished_of_owes ho hn
      have hst := timely.coherent.closed.mpr hf
      simpa [hst] using timely.coherent.active
  · intro r hr hn
    obtain ⟨hreg, he⟩ := timely.left r hr
    have signalled : c.signalled := by simpa [hreg] using timely.coherent.signalled
    have hf := waits.isFinished_of_endsBy signalled (Nat.le_trans he hn)
    refine ⟨hf, timely.coherent.closed.mpr hf, timely.closes.trans ?_⟩
    cases hw : c.writer with
    | finished ending => rfl
    | _ => simp [hw, Writer.isFinished] at hf
  · intro steps x hx
    refine ⟨Service.punctual_session t (steps ++ [x]), ?_⟩
    rw [Service.after_sessionMoves]
    exact Service.settled_session t steps hx

/-- A sink that neither takes a frame nor closes: the send is given up after the timeout, the closing
after the next, and only then is the connection off the registry. -/
theorem teardown_bounded_stalled :
    let who : Bearer := ⟨"u", ⟨"acme"⟩, .agent⟩
    let probe : Probe := { accept := some 0, stallClose := true }
    let moves : List Move :=
      [.register who (.probe probe) false, .deliver 0 (.text "a"), .turn (.writer 0),
        .tick 100, .wake [.writer 0], .turn (.writer 0),
        .tick 100, .wake [.writer 0], .turn (.writer 0), .turn (.reader 0), .tick 300]
    let s := (Service.start ⟨100, 16⟩).after moves
    let c : Connection :=
      { bearer := who, stage := .closed, registered := false, signalled := true,
        writer := .finished .failed, sink := .probe probe }
    let g := (Service.start ⟨100, 16⟩).journal (Connection.milestones ⟨100, 16⟩) 0 moves
    (Service.start ⟨100, 16⟩).Meets Service.Punctual moves ∧ s.Settled ∧ s.now = 500 ∧
      s.connections[0]? = some c ∧ g = [.begun 0 (.text "a"), .closes 100, .left 200] ∧
      c.registered = false ∧ c.writer.isFinished ∧ g.countP Milestone.isClosing = 1 := by
  intro who probe moves s c g
  have hm : (Service.start ⟨100, 16⟩).Meets Service.Punctual moves := by decide +kernel
  have hs : s.Settled := by decide +kernel
  have hn : s.now = 500 := by decide +kernel
  have hc : s.connections[0]? = some c := by decide +kernel
  have hg : g = [.begun 0 (.text "a"), .closes 100, .left 200] := by decide +kernel
  obtain ⟨late, done, -⟩ := teardown_bounded ⟨100, 16⟩ moves hm hs 0 c hc
  have hl : .left 200 ∈ g := by simp [hg]
  have hd := done 200 hl (Nat.le_of_eq hn.symm)
  have hr := late [] 0 (.text "a") [.closes 100, .left 200] hg (by simp)
    (Nat.le_trans (by decide) (Nat.le_of_eq hn.symm))
  exact ⟨hm, hs, hn, hc, hg, hr, hd.1, hd.2.2⟩

end Fanout.Live
