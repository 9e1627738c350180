import Fanout.Proofs.Live.Rule

/-!
One action of a writer: which answer of the sink it goes by, what it makes of the connection, and
when there is nothing to do. What a writer waits for does not depend on the time; only its deadline
does.
-/

namespace Fanout.Live

namespace Poll

variable {p : Poll} {deadline now : Nat}

theorem until_eq_ready_iff : p.until deadline now = ready ↔ p = ready := by
  cases p with
  | pending => by_cases h : deadline ≤ now <;> simp [Poll.until, h]
  | ready => simp [Poll.until]
  | failed => simp [Poll.until]

theorem until_eq_pending_iff : p.until deadline now = pending ↔ p = pending ∧ now < deadline := by
  cases p with
  | pending => by_cases h : deadline ≤ now <;> simp [Poll.until, h]; omega
  | ready => simp [Poll.until]
  | failed => simp [Poll.until]

end Poll

namespace Connection

/-- The answer that the writer waits for. A writer between two frames waits for a frame or for the
signal to close. -/
def awaited (c : Connection) : Poll :=
  match c.writer with
  | .idle => if c.signalled || !c.queue.isEmpty then .ready else .pending
  | .sending _ false _ | .farewell false _ => c.sink.ready
  | .sending _ true _ | .farewell true _ => c.sink.flush
  | .closing _ _ => c.sink.close
  | .finished _ => .pending

/-- Nothing that the writer waits for is there, and it has time left. -/
structure Waits (now : Nat) (c : Connection) : Prop where
  awaited : c.awaited = .pending
  early : ∀ d, c.writer.deadline? = some d → now < d

theorem waits_iff {now : Nat} {c : Connection} :
    c.Waits now ↔ c.awaited = .pending ∧ ∀ d, c.writer.deadline? = some d → now < d :=
  ⟨fun h => ⟨h.awaited, h.early⟩, fun h => ⟨h.1, h.2⟩⟩

/-- One action of a writer at a given time. -/
inductive Strides (timeout now : Nat) : Connection → Connection → Prop where
  | begin (c : Connection) (f : Frame) (rest : List Frame) (hw : c.writer = .idle)
      (hs : c.signalled = false) (hq : c.queue = f :: rest) :
      Strides timeout now c { c with queue := rest, writer := .sending f false (now + timeout) }
  | take (c : Connection) (f : Frame) (d : Nat) (hw : c.writer = .sending f false d)
      (hr : c.sink.ready = .ready) :
      Strides timeout now c { c with sink := c.sink.take f, writer := .sending f true d }
  | send (c : Connection) (f : Frame) (d : Nat) (hw : c.writer = .sending f true d)
      (hf : c.sink.flush = .ready) : Strides timeout now c { c with writer := .idle }
  | fail (c : Connection) (f : Frame) (taken : Bool) (d : Nat) (hw : c.writer = .sending f taken d)
      (ha : c.awaited ≠ .ready) : Strides timeout now c (c.startClosing .failed (now + timeout))
  | heed (c : Connection) (hw : c.writer = .idle) (hs : c.signalled) :
      Strides timeout now c { c with writer := .farewell false (now + timeout) }
  | bid (c : Connection) (d : Nat) (hw : c.writer = .farewell false d)
      (hr : c.sink.ready = .ready) :
      Strides timeout now c
        { c with sink := c.sink.take (.close none), writer := .farewell true d }
  | leave (c : Connection) (taken : Bool) (d : Nat) (hw : c.writer = .farewell taken d) :
      Strides timeout now c (c.startClosing .asked (now + timeout))
  | finish (c : Connection) (sink : Sink) (ending : Ending) (d : Nat)
      (hw : c.writer = .closing ending d) (hs : sink = c.sink ∨ sink = c.sink.endClose) :
      Strides timeout now c ({ c with sink := sink }.finish ending)

theorem Strides.isFinished {timeout now : Nat} {c d : Connection} (h : Strides timeout now c d) :
    c.writer.isFinished = false := by
  cases h <;> simp [Writer.isFinished, *]

theorem strides_of_step? {timeout now : Nat} {c d : Connection}
    (h : c.step? timeout now = some d) : Strides timeout now c d := by
  have late {p : Poll} {deadline : Nat} (hp : p.until deadline now = .failed) : p ≠ .ready := by
    intro hr
    simp [hr, Poll.until] at hp
  rcases hw : c.writer with _ | ⟨f, _ | _, e⟩ | ⟨_ | _, e⟩ | ⟨ending, e⟩ | ending
  · rw [step?_idle hw] at h
    split at h
    · next hs => cases h; exact .heed c hw hs
    · next hs =>
      cases hq : c.queue with
      | nil => simp [hq] at h
      | cons f rest =>
        rw [hq] at h
        cases h
        exact .begin c f rest hw (by simpa using hs) hq
  all_goals simp only [step?, hw] at h
  · split at h <;> cases h
    · next hr => exact .take c f e hw (Poll.until_eq_ready_iff.mp hr)
    · next hr => exact .fail c f false e hw (by simpa [awaited, hw] using late hr)
  · split at h <;> cases h
    · next hf => exact .send c f e hw (Poll.until_eq_ready_iff.mp hf)
    · next hf => exact .fail c f true e hw (by simpa [awaited, hw] using late hf)
  · split at h <;> cases h
    · next hr => exact .bid c e hw (Poll.until_eq_ready_iff.mp hr)
    · exact .leave c false e hw
  · split at h <;> cases h <;> exact .leave c true e hw
  · split at h
    · cases h; exact .finish c _ ending e hw (.inr rfl)
    · cases h; exact .finish c _ ending e hw (.inr rfl)
    · split at h <;> cases h
      exact .finish c c.sink ending e hw (.inl rfl)
  · cases h

theorem step?_eq_none_iff {timeout now : Nat} {c : Connection} :
    c.step? timeout now = none ↔ c.Waits now := by
  rw [waits_iff]
  rcases hw : c.writer with _ | ⟨f, _ | _, e⟩ | ⟨_ | _, e⟩ | ⟨ending, e⟩ | ending
  · simp only [step?_idle hw, awaited, hw, Writer.deadline?]
    cases hs : c.signalled <;> cases hq : c.queue <;> simp
  all_goals simp only [step?, awaited, hw, Writer.deadline?, Option.some.injEq, forall_eq']
  · rw [← Poll.until_eq_pending_iff]
    cases c.sink.ready.until e now <;> simp
  · rw [← Poll.until_eq_pending_iff]
    cases c.sink.flush.until e now <;> simp
  · rw [← Poll.until_eq_pending_iff]
    cases c.sink.ready.until e now <;> simp
  · rw [← Poll.until_eq_pending_iff]
    cases c.sink.flush.until e now <;> simp
  · cases c.sink.close <;> simp
  · simp

/-- After its turn a writer waits. -/
theorem waits_drive (timeout now : Nat) (c : Connection) : (c.drive timeout now).Waits now :=
  step?_eq_none_iff.mp (step?_drive_eq_none timeout now c)

/-- What every stride keeps, a writer's turn keeps. -/
theorem drive_keep_of_strides (timeout now : Nat) {P : Connection → Prop}
    (stride : ∀ c d, Strides timeout now c d → P c → P d) {c : Connection} (hp : P c) :
    P (c.drive timeout now) :=
  drive_keep (fun c d h => stride c d (strides_of_step? h)) hp

/-- A writer's action is a stride, if there is one. -/
theorem write_cases (t : Tuning) (now : Nat) (c : Connection) :
    c.Waits now ∧ c.write t now = c ∨ Strides t.writeTimeout now c (c.write t now) := by
  cases h : c.step? t.writeTimeout now with
  | none => exact .inl ⟨step?_eq_none_iff.mp h, write_of_step?_eq_none h⟩
  | some d =>
    have hd : c.write t now = d := by simp [write, h]
    exact .inr (hd ▸ strides_of_step? h)

end Connection

end Fanout.Live
