import Fanout.Proofs.Live.Run

/-!
The registry, the close signal and the stage of a connection tell the same story. A connection ends
by being removed, by not keeping up with a broadcast, by a failing write, or by its client leaving;
each of these changes the three in an order of its own, several may hit one connection, and every
rule leaves them in agreement.
-/

namespace Fanout.Live

/-- How far along a stage is. -/
def Stage.rank : Stage → Nat
  | active => 0
  | closing => 1
  | closed => 2

/-- The writer has left its loop, or ended, because it was asked to. -/
def Writer.wasAsked : Writer → Bool
  | farewell _ _ | closing .asked _ | finished .asked => true
  | _ => false

/-- The registry, the signal and the stage agree. A writer does not heed a signal that was not
given. -/
structure Coherent (c : Connection) : Prop where
  signalled : c.registered = !c.signalled
  active : c.registered ↔ c.stage = .active
  closed : c.stage = .closed ↔ c.writer.isFinished
  asked : c.writer.wasAsked → c.signalled

namespace Coherent

variable {t : Tuning} {h : History} {c d : Connection}

theorem new (who : Bearer) (sink : Sink) (watch : Option Watch) :
    Coherent { bearer := who, sink := sink.fresh, watch := watch } where
  signalled := rfl
  active := by simp
  closed := by simp [Writer.isFinished]
  asked := nofun

theorem registered_eq_false (hc : Coherent c) (hs : c.signalled) : c.registered = false := by
  rw [hc.signalled, hs]
  rfl

/-- A connection that is not registered is closing or closed. -/
theorem not_registered (hc : Coherent c) (hr : c.registered = false) :
    c.stage = .closing ∨ c.stage = .closed := by
  cases hs : c.stage with
  | active =>
    rw [hc.active.mpr hs] at hr
    cases hr
  | closing => exact .inl rfl
  | closed => exact .inr rfl

theorem remove (hc : Coherent c) : Coherent c.remove := by
  cases hr : c.registered with
  | false => rwa [Connection.remove_of_not_registered hr]
  | true =>
    have hs : c.stage = .active := hc.active.mp hr
    have hw : c.writer.isFinished = false := by
      simpa [hs] using hc.closed
    rw [Connection.remove, if_pos hr]
    exact ⟨rfl, by simp [Connection.signalClose, hs],
      by simp [Connection.signalClose, hs, hw], fun _ => rfl⟩

/-- Changing the writer keeps the agreement if the writer does not end, and heeds only a signal that
was given. -/
theorem of_writer (hc : Coherent c) (hr : d.registered = c.registered)
    (hs : d.signalled = c.signalled) (hstage : d.stage = c.stage)
    (hf : d.writer.isFinished = c.writer.isFinished) (ha : d.writer.wasAsked → c.signalled) :
    Coherent d where
  signalled := by rw [hr, hs]; exact hc.signalled
  active := by rw [hr, hstage]; exact hc.active
  closed := by rw [hstage, hf]; exact hc.closed
  asked := by rw [hs]; exact ha

theorem finish {ending : Ending} {deadline : Nat} (hc : Coherent c)
    (hw : c.writer = .closing ending deadline) : Coherent (c.finish ending) := by
  cases ending with
  | asked =>
    have hs : c.signalled := hc.asked (by rw [hw]; rfl)
    exact ⟨hc.signalled, by simp [Connection.finish, hc.registered_eq_false hs],
      by simp [Connection.finish, Writer.isFinished], fun _ => hs⟩
  | failed =>
    cases hr : c.registered with
    | true =>
      simp only [Connection.finish, Connection.remove, hr, if_true]
      exact ⟨rfl, by simp [Connection.signalClose],
        by simp [Connection.signalClose, Writer.isFinished], fun _ => rfl⟩
    | false =>
      simp only [Connection.finish, Connection.remove, hr]
      exact ⟨by simpa [hr] using hc.signalled, by simp, by simp [Writer.isFinished], by simp [Writer.wasAsked]⟩

/-- Every rule keeps the agreement. -/
theorem rule (hr : Rule t c h d) (hc : Coherent c) : Coherent d := by
  cases hr with
  | hear b body _ => exact hc
  | accept f ha => exact ⟨hc.signalled, hc.active, hc.closed, hc.asked⟩
  | remove => exact hc.remove
  | outside sink watch hs => exact ⟨hc.signalled, hc.active, hc.closed, hc.asked⟩
  | begin f rest d hw hs hq => exact hc.of_writer rfl rfl rfl (by rw [hw]; rfl) nofun
  | take f d hw => exact hc.of_writer rfl rfl rfl (by rw [hw]; rfl) nofun
  | send f d hw => exact hc.of_writer rfl rfl rfl (by rw [hw]; rfl) nofun
  | fail f taken d d' hw => exact hc.of_writer rfl rfl rfl (by rw [hw]; rfl) nofun
  | heed d hw hs => exact hc.of_writer rfl rfl rfl (by rw [hw]; rfl) fun _ => hs
  | bid d hw =>
    have hs : c.signalled := hc.asked (by rw [hw]; rfl)
    exact hc.of_writer rfl rfl rfl (by rw [hw]; rfl) fun _ => hs
  | leave taken d d' hw =>
    have hs : c.signalled := hc.asked (by rw [hw]; rfl)
    exact hc.of_writer rfl rfl rfl (by rw [hw]; rfl) fun _ => hs
  | finish ending d hw => exact hc.finish hw

theorem act (hc : Coherent c) (t : Tuning) (a : Act) : Coherent (c.act t a) :=
  (c.rules_act t a).keep (P := fun _ d => Coherent d) (g := []) (fun _ _ _ _ hr hp => rule hr hp) hc

/-- The agreement holds in every run. -/
theorem of_run {moves : List Move} {i : Nat}
    (hc : ((Service.start t).after moves).connections[i]? = some c) : Coherent c :=
  Service.run_keep_of_rule (P := fun _ c => Coherent c) new (fun _ _ _ _ hr hp => rule hr hp) hc

end Coherent

/-- A connection only goes forward: its stage does not fall back, a signal given stays given, and
once off the registry it is off for good. -/
structure Forward (c d : Connection) : Prop where
  stage : c.stage.rank ≤ d.stage.rank
  signalled : c.signalled → d.signalled
  left : c.registered = false → d.registered = false

namespace Forward

variable {t : Tuning} {h : History} {c d e : Connection}

theorem refl (c : Connection) : Forward c c := ⟨Nat.le_refl _, id, id⟩

theorem trans (hc : Forward c d) (hd : Forward d e) : Forward c e :=
  ⟨Nat.le_trans hc.stage hd.stage, hd.signalled ∘ hc.signalled, hd.left ∘ hc.left⟩

theorem remove (c : Connection) : Forward c c.remove := by
  unfold Connection.remove
  split
  · refine ⟨?_, fun _ => rfl, fun _ => rfl⟩
    cases hs : c.stage <;> simp [Connection.signalClose, hs, Stage.rank]
  · exact refl c

theorem finish (ending : Ending) (c : Connection) : Forward c (c.finish ending) := by
  have ended : Forward c { c with stage := .closed, writer := .finished ending } := by
    refine ⟨?_, id, id⟩
    cases hs : c.stage <;> simp [Stage.rank]
  cases ending with
  | asked => exact ended
  | failed => exact ended.trans (remove _)

/-- What is active has been active all along. -/
theorem active (hf : Forward c d) (hs : d.stage = .active) : c.stage = .active := by
  have hr := hf.stage
  rw [hs] at hr
  cases hc : c.stage with
  | active => rfl
  | closing => simp [hc, Stage.rank] at hr
  | closed => simp [hc, Stage.rank] at hr

/-- Every rule goes forward. -/
theorem rule (hr : Rule t c h d) : Forward c d := by
  cases hr with
  | remove => exact remove c
  | finish ending d hw => exact finish ending c
  | _ => exact ⟨Nat.le_refl _, id, id⟩

theorem act (t : Tuning) (a : Act) (c : Connection) : Forward c (c.act t a) :=
  (c.rules_act t a).keep (P := fun _ d => Forward c d) (g := [])
    (fun _ _ _ _ hr hp => hp.trans (rule hr)) (refl c)

end Forward

/-- In every run a connection is registered just as long as it was not told to close, which is as
long as it is active; off the registry it is closing or closed, and it is closed when its writer has
finished. As the run goes on, the connection only goes forward. -/
theorem registry_agrees (t : Tuning) (moves later : List Move) (i : Nat) (c : Connection)
    (hc : ((Service.start t).after moves).connections[i]? = some c) :
    (c.registered ↔ c.signalled = false) ∧ (c.signalled = false ↔ c.stage = .active) ∧
      (c.registered = false → c.stage = .closing ∨ c.stage = .closed) ∧
      (c.stage = .closed ↔ c.writer.isFinished) ∧
      ∃ d, ((Service.start t).after (moves ++ later)).connections[i]? = some d ∧
        c.stage.rank ≤ d.stage.rank ∧ (c.signalled → d.signalled) ∧
        (c.registered = false → d.registered = false) := by
  have coherent := Coherent.of_run hc
  have hs : c.registered ↔ c.signalled = false := by simp [coherent.signalled]
  obtain ⟨d, hd, hf⟩ := Service.after_keep_of_rule (P := fun _ d => Forward c d)
    (fun _ _ _ _ hr hp => Forward.trans hp (.rule hr)) later (g := []) hc (.refl c)
  refine ⟨hs, hs.symm.trans coherent.active, coherent.not_registered, coherent.closed, d, ?_,
    hf.stage, hf.signalled, hf.left⟩
  rw [Service.after_append]
  exact hd

/-- A write fails while the sink's close hangs; then the connection is removed, and later the writer
ends, which would have removed it too. -/
theorem registry_agrees_removed :
    let who : Bearer := ⟨"u", ⟨"acme"⟩, .agent⟩
    let probe : Probe := { failAfter := some 0, stallClose := true }
    let moves : List Move :=
      [.register who (.probe probe) false, .deliver 0 (.text "a"), .turn (.writer 0)]
    let later : List Move := [.remove 0, .tick 100, .turn (.writer 0)]
    let c : Connection := { bearer := who, writer := .closing .failed 100, sink := .probe probe }
    let d : Connection :=
      { bearer := who, stage := .closed, registered := false, signalled := true,
        writer := .finished .failed, sink := .probe probe }
    ((Service.start ⟨100, 16⟩).after moves).connections[0]? = some c ∧
      ((Service.start ⟨100, 16⟩).after (moves ++ later)).connections[0]? = some d ∧
      (c.registered ↔ c.signalled = false) ∧ (d.registered ↔ d.signalled = false) := by
  intro who probe moves later c d
  have hc : ((Service.start ⟨100, 16⟩).after moves).connections[0]? = some c := by decide +kernel
  have hd : ((Service.start ⟨100, 16⟩).after (moves ++ later)).connections[0]? = some d := by
    decide +kernel
  exact ⟨hc, hd, (registry_agrees ⟨100, 16⟩ moves later 0 c hc).1,
    (registry_agrees ⟨100, 16⟩ (moves ++ later) [] 0 d hd).1⟩

end Fanout.Live
