import Fanout.Proofs.Live.Run

/-!
The compound operations are runs. Settling and moving the clock on come down to moves that nobody
calls for: tasks take their turns, time goes on, and tasks are woken.
-/

namespace Fanout.Live

namespace Move

/-- Moves that nobody calls for: a task takes its turn, tasks are woken, time goes on. -/
def isInner : Move → Bool
  | turn _ | wake _ | tick _ => true
  | _ => false

end Move

namespace Service

variable {s : Service}

/-- The turns that are taken, at most so many. -/
def turnMoves : Nat → Service → List Move
  | 0, _ => []
  | n + 1, s =>
    match s.ready with
    | [] => []
    | task :: _ => .turn task :: turnMoves n (s.perform (.turn task))

def settleMoves (s : Service) : List Move := turnMoves s.workload s

/-- The clock moves to a deadline, and those who waited for it are woken. -/
def dueMoves (s : Service) (deadline : Nat) : List Move :=
  [.tick (deadline - s.now), .wake (s.perform (.tick (deadline - s.now))).due]

def fireMoves (s : Service) (deadline : Nat) : List Move :=
  s.dueMoves deadline ++ (s.after (s.dueMoves deadline)).settleMoves

/-- So many deadlines, one after another. -/
def fireUntilMoves (limit : Nat) : Nat → Service → List Move
  | 0, _ => []
  | n + 1, s =>
    match s.nextDeadline? limit with
    | none => []
    | some d => s.fireMoves d ++ fireUntilMoves limit n (s.fire d)

def advanceMoves (s : Service) (ms : Nat) : List Move :=
  let limit := s.settle.now + ms
  let fuel := 3 * s.settle.connections.length
  s.settleMoves ++ fireUntilMoves limit fuel s.settle ++
    [.tick (limit - (fireUntil limit fuel s.settle).now)]

theorem perform_turn {task : Task} {rest : List Task} (hr : s.ready = task :: rest) :
    s.perform (.turn task) = { s with ready := rest }.run task := by
  simp [perform, hr]

theorem turns_succ {task : Task} {rest : List Task} (hr : s.ready = task :: rest) (n : Nat) :
    turns (n + 1) s = turns n (s.perform (.turn task)) ∧
      turnMoves (n + 1) s = .turn task :: turnMoves n (s.perform (.turn task)) := by
  rw [perform_turn hr]
  simp [turns, turnMoves, hr, perform]

theorem turns_of_idle (hr : s.ready = []) (n : Nat) : turns n s = s ∧ turnMoves n s = [] := by
  cases n <;> simp [turns, turnMoves, hr]

theorem after_turnMoves (n : Nat) (s : Service) : s.after (turnMoves n s) = turns n s := by
  induction n generalizing s with
  | zero => rfl
  | succ n ih =>
    cases hr : s.ready with
    | nil =>
      rw [(turns_of_idle hr _).1, (turns_of_idle hr _).2]
      rfl
    | cons task rest =>
      rw [(turns_succ hr n).1, (turns_succ hr n).2, ← ih]
      rfl

theorem after_settleMoves (s : Service) : s.after s.settleMoves = s.settle :=
  after_turnMoves s.workload s

theorem after_fireMoves (s : Service) (deadline : Nat) :
    s.after (s.fireMoves deadline) = s.fire deadline := by
  have time : s.now + (deadline - s.now) = max s.now deadline := by omega
  rw [fireMoves, after_append, after_settleMoves]
  simp only [dueMoves, after, List.foldl_cons, List.foldl_nil, perform, time]
  rfl

theorem fireUntil_succ {limit d : Nat} (hd : s.nextDeadline? limit = some d) (n : Nat) :
    fireUntil limit (n + 1) s = fireUntil limit n (s.fire d) ∧
      fireUntilMoves limit (n + 1) s = s.fireMoves d ++ fireUntilMoves limit n (s.fire d) := by
  simp [fireUntil, fireUntilMoves, hd]

theorem fireUntil_of_none {limit : Nat} (hd : s.nextDeadline? limit = none) (n : Nat) :
    fireUntil limit n s = s ∧ fireUntilMoves limit n s = [] := by
  cases n <;> simp [fireUntil, fireUntilMoves, hd]

theorem after_fireUntilMoves (limit n : Nat) (s : Service) :
    s.after (fireUntilMoves limit n s) = fireUntil limit n s := by
  induction n generalizing s with
  | zero => rfl
  | succ n ih =>
    cases hd : s.nextDeadline? limit with
    | none =>
      rw [(fireUntil_of_none hd _).1, (fireUntil_of_none hd _).2]
      rfl
    | some d =>
      rw [(fireUntil_succ hd n).1, (fireUntil_succ hd n).2, after_append, after_fireMoves, ih]

theorem now_turns (n : Nat) (s : Service) : (turns n s).now = s.now := by
  induction n generalizing s with
  | zero => rfl
  | succ n ih =>
    unfold turns
    cases s.ready with
    | nil => rfl
    | cons task rest => exact (ih _).trans (keeps_run { s with ready := rest } task).now

theorem now_settle (s : Service) : s.settle.now = s.now := now_turns s.workload s

theorem now_fire (s : Service) (deadline : Nat) : (s.fire deadline).now = max s.now deadline :=
  now_settle _

theorem le_of_nextDeadline? {limit d : Nat} (h : s.nextDeadline? limit = some d) : d ≤ limit := by
  have hm := List.min?_mem h
  simpa using (List.mem_filter.mp hm).2

theorem now_fireUntil_le {limit : Nat} (n : Nat) {s : Service} (h : s.now ≤ limit) :
    (fireUntil limit n s).now ≤ limit := by
  induction n generalizing s with
  | zero => exact h
  | succ n ih =>
    unfold fireUntil
    cases hd : s.nextDeadline? limit with
    | none => exact h
    | some d =>
      have hl := le_of_nextDeadline? hd
      refine ih ?_
      rw [now_fire]
      omega

theorem after_advanceMoves (s : Service) (ms : Nat) : s.after (s.advanceMoves ms) = s.advance ms := by
  have hl := now_fireUntil_le (3 * s.settle.connections.length)
    (Nat.le_add_right s.settle.now ms)
  rw [advanceMoves, after_append, after_append, after_settleMoves, after_fireUntilMoves]
  simp only [after, List.foldl_cons, List.foldl_nil, perform, Nat.add_sub_cancel' hl]
  rfl

theorem turn_of_mem_turnMoves {n : Nat} {m : Move} (hm : m ∈ turnMoves n s) :
    ∃ task, m = .turn task := by
  induction n generalizing s with
  | zero => cases hm
  | succ n ih =>
    cases hr : s.ready with
    | nil =>
      rw [(turns_of_idle hr _).2] at hm
      cases hm
    | cons task rest =>
      rw [(turns_succ hr n).2] at hm
      rcases List.mem_cons.mp hm with rfl | hm
      · exact ⟨task, rfl⟩
      · exact ih hm

/-- Nobody calls for any of these moves. -/
theorem isInner_of_mem_turnMoves {n : Nat} {m : Move} (hm : m ∈ turnMoves n s) : m.isInner := by
  obtain ⟨task, rfl⟩ := turn_of_mem_turnMoves hm
  rfl

theorem isInner_of_mem_fireMoves {deadline : Nat} {m : Move} (hm : m ∈ s.fireMoves deadline) :
    m.isInner := by
  rcases List.mem_append.mp hm with hm | hm
  · rcases List.mem_cons.mp hm with rfl | hm
    · rfl
    · rw [List.mem_singleton.mp hm]
      rfl
  · exact isInner_of_mem_turnMoves hm

theorem isInner_of_mem_fireUntilMoves {limit n : Nat} {m : Move}
    (hm : m ∈ fireUntilMoves limit n s) : m.isInner := by
  induction n generalizing s with
  | zero => cases hm
  | succ n ih =>
    cases hd : s.nextDeadline? limit with
    | none =>
      rw [(fireUntil_of_none hd _).2] at hm
      cases hm
    | some d =>
      rw [(fireUntil_succ hd n).2] at hm
      rcases List.mem_append.mp hm with hm | hm
      · exact isInner_of_mem_fireMoves hm
      · exact ih hm

theorem isInner_of_mem_advanceMoves {ms : Nat} {m : Move} (hm : m ∈ s.advanceMoves ms) :
    m.isInner := by
  rcases List.mem_append.mp hm with hm | hm
  · rcases List.mem_append.mp hm with hm | hm
    · exact isInner_of_mem_turnMoves hm
    · exact isInner_of_mem_fireUntilMoves hm
  · rw [List.mem_singleton.mp hm]
    rfl

end Service

end Fanout.Live
