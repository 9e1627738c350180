import Fanout.Proofs.Live.Run

/-!
Frames leave a connection in the order in which they were accepted. As long as the writer is in its
loop every accepted frame is accounted for: it was sent, or it is the one being sent, or it stands
in the queue. A writer that leaves its loop takes nothing more, so what is lost is an end piece.
-/

namespace Fanout.Live

namespace Writer

/-- The writer has not left its loop: it waits for frames or sends one. -/
def isLooping : Writer → Bool
  | idle | sending _ _ _ => true
  | farewell _ _ | closing _ _ | finished _ => false

/-- The frame being sent, if there is one. -/
def current : Writer → List Frame
  | sending f _ _ => [f]
  | _ => []

/-- The frame being sent, if the sink has taken it. -/
def taken : Writer → List Frame
  | sending f true _ => [f]
  | _ => []

/-- The writer may have said farewell. -/
def mayHaveLeft : Writer → Bool
  | idle | sending _ _ _ | farewell false _ => false
  | farewell true _ | closing _ _ | finished _ => true

theorem length_current_le (w : Writer) : w.current.length ≤ 1 := by
  cases w <;> simp [current]

theorem mayHaveLeft_of_isLooping {w : Writer} (h : w.isLooping) : w.mayHaveLeft = false := by
  cases w <;> simp_all [isLooping, mayHaveLeft]

theorem taken_prefix_current (w : Writer) : w.taken <+: w.current := by
  rcases w with _ | ⟨f, _ | _, d⟩ | _ | _ | _ <;> simp [taken, current]

end Writer

/-- How the history of a connection and its state fit together. -/
structure Ledger (h : History) (c : Connection) : Prop where
  kept : ∀ l, c.sink.taken? = some l → l = h.put
  whole : c.writer.isLooping → h.accepted = h.sent ++ c.writer.current ++ c.queue
  passed : c.writer.isLooping → h.taken = h.sent ++ c.writer.taken
  inOrder : h.taken <+: h.accepted
  unclosed : c.writer.mayHaveLeft = false → h.put = h.taken
  closed : h.put = h.taken ∨ h.put = h.taken ++ [.close none]

namespace Ledger

variable {t : Tuning} {g h : History} {c d : Connection}

theorem new (who : Bearer) (sink : Sink) (watch : Option Watch) :
    Ledger [] { bearer := who, sink := sink.fresh, watch := watch } where
  kept := by
    intro l hl
    rw [Sink.taken?_fresh, Option.map_eq_some_iff] at hl
    obtain ⟨p, -, rfl⟩ := hl
    rfl
  whole := fun _ => rfl
  passed := fun _ => rfl
  inOrder := List.prefix_rfl
  unclosed := fun _ => rfl
  closed := .inl rfl

/-- A writer that leaves its loop leaves the account as it is. -/
theorem left (hl : Ledger g c) (hk : d.sink.taken? = c.sink.taken?)
    (hd : d.writer.isLooping = false)
    (hm : d.writer.mayHaveLeft = false → c.writer.mayHaveLeft = false) : Ledger g d where
  kept := by rw [hk]; exact hl.kept
  whole := by simp [hd]
  passed := by simp [hd]
  inOrder := hl.inOrder
  unclosed := fun h => hl.unclosed (hm h)
  closed := hl.closed

theorem kept_take {f : Frame} (hl : Ledger g c) :
    ∀ l, (c.sink.take f).taken? = some l → l = g.put ++ [f] := by
  intro l ht
  rw [Sink.taken?_take, Option.map_eq_some_iff] at ht
  obtain ⟨l', hl', rfl⟩ := ht
  rw [hl.kept l' hl']

/-- Every rule keeps the account. -/
theorem rule (g : History) (c : Connection) (h : History) (d : Connection) (hr : Rule t c h d)
    (hl : Ledger g c) : Ledger (g ++ h) d := by
  cases hr with
  | hear b body _ =>
    exact ⟨by simpa using hl.kept, by simpa using hl.whole, by simpa using hl.passed,
      by simpa using hl.inOrder, by simpa using hl.unclosed, by simpa using hl.closed⟩
  | accept f ha =>
    refine ⟨by simpa using hl.kept, ?_, by simpa using hl.passed, ?_, by simpa using hl.unclosed,
      by simpa using hl.closed⟩
    · intro hw
      have whole := hl.whole hw
      simp [whole]
    · simpa using hl.inOrder.trans (List.prefix_append _ _)
  | remove =>
    rw [List.append_nil]
    exact ⟨by simpa using hl.kept, by simpa using hl.whole, by simpa using hl.passed, hl.inOrder,
      by simpa using hl.unclosed, hl.closed⟩
  | outside sink watch hs =>
    rw [List.append_nil]
    exact ⟨hs ▸ hl.kept, hl.whole, hl.passed, hl.inOrder, hl.unclosed, hl.closed⟩
  | begin f rest d hw hs hq =>
    rw [List.append_nil]
    refine ⟨hl.kept, ?_, ?_, hl.inOrder, ?_, hl.closed⟩
    · intro _
      simpa [hw, hq, Writer.isLooping, Writer.current] using hl.whole
    · intro _
      simpa [hw, Writer.isLooping, Writer.taken] using hl.passed
    · intro _
      exact hl.unclosed (by simp [hw, Writer.mayHaveLeft])
  | take f d hw =>
    have whole := hl.whole (by simp [hw, Writer.isLooping])
    have passed := hl.passed (by simp [hw, Writer.isLooping])
    have unclosed := hl.unclosed (by simp [hw, Writer.mayHaveLeft])
    simp only [hw, Writer.current, Writer.taken, List.append_nil] at whole passed
    refine ⟨by simpa using hl.kept_take, ?_, ?_, ?_, ?_, ?_⟩
    · intro _
      simpa [Writer.current] using whole
    · intro _
      simpa [Writer.taken] using passed
    · simp [whole, passed]
    · intro _
      simpa using unclosed
    · exact .inl (by simpa using unclosed)
  | send f d hw =>
    have whole := hl.whole (by simp [hw, Writer.isLooping])
    have passed := hl.passed (by simp [hw, Writer.isLooping])
    simp only [hw, Writer.current, Writer.taken] at whole passed
    refine ⟨by simpa using hl.kept, ?_, ?_, by simpa using hl.inOrder, ?_, by simpa using hl.closed⟩
    · intro _
      simpa [Writer.current] using whole
    · intro _
      simpa [Writer.taken] using passed
    · intro _
      simpa using hl.unclosed (by simp [hw, Writer.mayHaveLeft])
  | fail f taken d d' hw =>
    rw [List.append_nil]
    exact hl.left (Sink.taken?_beginClose _) rfl nofun
  | heed d hw hs =>
    rw [List.append_nil]
    exact hl.left rfl rfl fun _ => by simp [hw, Writer.mayHaveLeft]
  | bid d hw =>
    have unclosed := hl.unclosed (by simp [hw, Writer.mayHaveLeft])
    refine ⟨by simpa using hl.kept_take, nofun, nofun, by simpa using hl.inOrder, nofun, .inr ?_⟩
    simpa using unclosed
  | leave taken d d' hw =>
    rw [List.append_nil]
    exact hl.left (Sink.taken?_beginClose _) rfl nofun
  | finish ending d hw =>
    rw [List.append_nil]
    exact hl.left (by simp) (by simp [Writer.isLooping]) (by simp [Writer.mayHaveLeft])

/-- The account is right in every run. -/
theorem of_run {moves : List Move} {i : Nat}
    (hc : ((Service.start t).after moves).connections[i]? = some c) :
    Ledger ((Service.start t).history i moves) c :=
  Service.run_keep_of_rule new rule hc

end Ledger

/-- In every run, whatever the sinks do: a sink takes frames in the order in which they were
accepted, leaving none out. As long as the writer is in its loop, the accepted frames are those
sent, the one being sent and the queue, and the sink has taken all of these up to the one being
sent. A sink that keeps what it takes holds these frames and at most the closing frame behind
them. -/
theorem frames_in_order (t : Tuning) (moves : List Move) (i : Nat) (c : Connection)
    (hc : ((Service.start t).after moves).connections[i]? = some c) :
    let h := (Service.start t).history i moves
    h.taken <+: h.accepted ∧
      (c.writer.isLooping →
        h.accepted = h.sent ++ c.writer.current ++ c.queue ∧ c.writer.current.length ≤ 1 ∧
          h.taken = h.sent ++ c.writer.taken ∧ c.writer.taken <+: c.writer.current) ∧
      ∀ p, c.sink = .probe p →
        (p.taken = h.taken ∨ p.taken = h.taken ++ [.close none]) ∧
          (c.writer.isLooping → p.taken = h.taken) := by
  have hl := Ledger.of_run hc
  refine ⟨hl.inOrder, ?_, ?_⟩
  · intro hw
    exact ⟨hl.whole hw, c.writer.length_current_le, hl.passed hw, c.writer.taken_prefix_current⟩
  · intro p hp
    have kept := hl.kept p.taken (by simp [hp, Sink.taken?, Sink.probe?])
    refine ⟨kept ▸ hl.closed, ?_⟩
    intro hw
    exact kept.trans (hl.unclosed (Writer.mayHaveLeft_of_isLooping hw))

/-- Three frames for a sink that takes one: the first is sent, the second waits for the sink and the
third in the queue. -/
theorem frames_in_order_stalled :
    let who : Bearer := ⟨"u", ⟨"acme"⟩, .agent⟩
    let moves : List Move :=
      [.register who (.probe { accept := some 1 }) false, .deliver 0 (.text "a"),
        .deliver 0 (.text "b"), .deliver 0 (.text "c"), .turn (.writer 0)]
    let c : Connection :=
      { bearer := who, queue := [.text "c"], writer := .sending (.text "b") false 100,
        sink := .probe { accept := some 1, taken := [.text "a"] } }
    let h := (Service.start ⟨100, 16⟩).history 0 moves
    ((Service.start ⟨100, 16⟩).after moves).connections[0]? = some c ∧
      h.accepted = [.text "a", .text "b", .text "c"] ∧ h.taken = [.text "a"] ∧
      h.taken <+: h.accepted :=
  ⟨rfl, rfl, rfl, (frames_in_order ⟨100, 16⟩ _ 0 _ rfl).1⟩

end Fanout.Live
