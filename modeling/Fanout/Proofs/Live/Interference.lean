import Fanout.Proofs.Live.Interlude

/-!
What clients send interferes with nothing. A reader takes items up to the first one that ends reading and
ends for the reason that this one gives, unless somebody else removes its connection; and harmless items on
top make no difference to the registry, to any connection and its queue, to what the writers put into the
sinks, or to any report. Only the answers to pings take up room in the pipe of the client that pinged, so
this holds as long as the pipe has room for them.
-/

namespace Fanout.Live

/-- Two connections that nobody can tell apart by anything but the answers to pings and what waits for the
reader. If the link was cut, the readers may have ended for different reasons. -/
structure Connection.Same (c c' : Connection) : Prop where
  bearer : c'.bearer = c.bearer
  stage : c'.stage = c.stage
  registered : c'.registered = c.registered
  signalled : c'.signalled = c.signalled
  queue : c'.queue = c.queue
  writer : c'.writer = c.writer
  probe : c'.sink.probe? = c.sink.probe?
  unread : ∀ l l', c.sink = .link l → c'.sink = .link l' → l.cut = false →
    l'.unread.filter (fun e => !e.1.isPong) = l.unread.filter (fun e => !e.1.isPong)
  attempt : c'.watch.map Watch.attempt = c.watch.map Watch.attempt
  ended : c'.readEnd?.isSome = c.readEnd?.isSome
  reason : c.sink.isWhole → c'.readEnd? = c.readEnd?

theorem Connection.Resembles.same {pinged : Bool} {c c' : Connection} (h : Resembles pinged c c') :
    c.Same c' := by
  have ended := h.isSome_readEnd?
  obtain ⟨sink, watch⟩ := h
  rename_i s w
  refine ⟨rfl, rfl, rfl, rfl, rfl, rfl, ?_, ?_, ?_, ended, ?_⟩
  · change s.probe? = c.sink.probe?
    generalize c.sink = e at sink
    cases sink with
    | probe p => rfl
    | link hl => rfl
  · intro l l' hl hl' whole
    change s = .link l' at hl'
    rw [hl, hl'] at sink
    cases sink with
    | link alike => exact (alike.unread whole).filter fun e he => by simp [he.2]
  · change w.map Watch.attempt = c.watch.map Watch.attempt
    generalize c.watch = v at watch
    cases watch with
    | none => rfl
    | some alike => exact congrArg some alike.attempt
  · intro whole
    rw [readEnd?, readEnd?]
    change w.bind Watch.ended = c.watch.bind Watch.ended
    generalize c.watch = v at watch
    cases watch with
    | none => rfl
    | some alike => exact alike.reason whole

namespace Service

variable {t : Tuning}

/-- Two runs that nobody can tell apart by anything but the answers to pings. -/
structure SameRuns (t : Tuning) (moves moves' : List Move) : Prop where
  now : ((start t).after moves').now = ((start t).after moves).now
  status : ((start t).after moves').status = ((start t).after moves).status
  bridges : ((start t).after moves').bridges = ((start t).after moves).bridges
  registered : ((start t).after moves').numbers (·.registered) =
    ((start t).after moves).numbers (·.registered)
  registry : ((start t).after moves').registry.map Connection.bearer =
    ((start t).after moves).registry.map Connection.bearer
  length : ((start t).after moves').connections.length = ((start t).after moves).connections.length
  each : ∀ (i : Nat) (c c' : Connection), ((start t).after moves).connections[i]? = some c →
    ((start t).after moves').connections[i]? = some c' → c.Same c'
  history : ∀ i, (start t).history i moves' = (start t).history i moves
  reports : (start t).reports moves' = (start t).reports moves

theorem roomy_start (t : Tuning) (pinged : Nat → Bool) : (start t).Roomy pinged := by
  intro p hp
  simp [start] at hp

theorem inStep_start (t : Tuning) (pinged : Nat → Bool) : InStep t pinged (start t) (start t) where
  mirrors := .refl pinged _
  ready := rfl
  plain := .start t
  further := .start t
  room := roomy_start t pinged

theorem Interjected.sameRuns {pinged : Nat → Bool} {moves moves' : List Move}
    (h : Interjected pinged (start t) moves moves')
    (rooms : (start t).RoomyAlong pinged moves') : SameRuns t moves moves' := by
  obtain ⟨last, history, reports⟩ := h.mirrors (.start t) (.start t) (.refl pinged _)
    (roomy_start t pinged) rooms
  refine ⟨last.now, last.status, last.bridges, last.numbers fun _ _ _ => rfl, last.registry,
    last.length, ?_, history, reports⟩
  intro i c c' hc hc'
  have here := last.each i
  rw [hc, hc'] at here
  cases here with
  | some alike => exact alike.same

theorem Interluded.sameRuns {pinged : Nat → Bool} {steps steps' : List Step}
    (h : Interluded pinged (start t) steps steps')
    (rooms : (start t).RoomyAlong pinged ((start t).sessionMoves steps')) :
    SameRuns t ((start t).sessionMoves steps) ((start t).sessionMoves steps') ∧
      ((start t).session steps').ready = ((start t).session steps).ready := by
  obtain ⟨runs, ready⟩ := h.interjected (inStep_start t pinged) rooms
  exact ⟨runs.sameRuns rooms, ready⟩

/-- Why a reader that is not ready has ended, if its client sent nothing that ends reading. -/
theorem ended_of_quiet {moves : List Move} {i : Nat} {c : Connection}
    (hc : ((start t).after moves).connections[i]? = some c) {w : Watch} (hw : c.watch = some w)
    (hr : .reader i ∉ ((start t).after moves).ready)
    (quiet : ∀ x ∈ (start t).sent i moves, x.isHarmless) :
    w.ended = none ∧ ¬ OustedBy ((start t).removals moves) i ∨
      w.ended = some .dropped ∧ OustedBy ((start t).removals moves) i := by
  obtain ⟨closed, -⟩ := ended_iff_of_run hc hw hr
  cases he : w.ended with
  | none =>
    refine .inl ⟨rfl, fun ousted => ?_⟩
    have some := closed.mpr (.inr ousted)
    rw [he] at some
    cases some
  | some r =>
    rcases reason_of_run hc ((Connection.readEnd?_of_watch hw).trans he) with
      ⟨rfl, ousted⟩ | ⟨item, given, ends⟩
    · exact .inr ⟨rfl, ousted⟩
    · rw [Inbound.isHarmless_iff.mp (quiet item given)] at ends
      cases ends

end Service

open Service in
/-- At one turn, in whichever order it looks at the signal to close and at the items, a reader takes items
up to the first one that ends reading. In every run what it has looked at and what stands before it make up
what its client sent; if it was dropped, somebody else has removed the connection; and whenever it is not
ready, it has ended for the first reason that the items give, unless somebody else removed the connection or
an answer could not be written on a link that was cut. If the items give none, it has ended only if it was
dropped.

Of two runs of which one has further harmless items, and turns of readers that otherwise have nothing before
them, the connections, what the writers have put into the sinks and the reports are the same, if the pipes of
those who pinged have room for the answers. So it is in sessions, where the tasks run in the order in which
they became ready, if the items come at settled points. -/
theorem inbound_is_ignored (t : Tuning) :
    (∀ (c : Connection) (w : Watch) (n : Nat), c.watch = some w → w.ended = none →
      ∃ eaten w', (c.readLate n).watch = some w' ∧ w.inbound = eaten ++ w'.inbound ∧
        Ate c eaten w'.ended ∧ (c.signalled → w'.ended.isSome) ∧
        (c.signalled = false → w'.ended = w.inbound.findSome? Inbound.readEnd? ∨
          w'.ended = some .readError ∧ c.sink.isWhole = false)) ∧
    (∀ (moves : List Move) (i : Nat) (c : Connection) (w : Watch),
      ((start t).after moves).connections[i]? = some c → c.watch = some w →
      (∃ eaten, (start t).sent i moves = eaten ++ w.inbound ∧ Ate c eaten w.ended) ∧
      (w.ended = some .dropped → OustedBy ((start t).removals moves) i) ∧
      (.reader i ∉ ((start t).after moves).ready →
        (¬ OustedBy ((start t).removals moves) i →
          w.ended = ((start t).sent i moves).findSome? Inbound.readEnd? ∨
            w.ended = some .readError ∧ c.sink.isWhole = false) ∧
        ((∀ x ∈ (start t).sent i moves, x.isHarmless) →
          w.ended = none ∧ ¬ OustedBy ((start t).removals moves) i ∨
            w.ended = some .dropped ∧ OustedBy ((start t).removals moves) i))) ∧
    (∀ (pinged : Nat → Bool) (moves moves' : List Move),
      Interjected pinged (start t) moves moves' → (start t).RoomyAlong pinged moves' →
      SameRuns t moves moves') ∧
    (∀ (pinged : Nat → Bool) (steps steps' : List Step),
      Interluded pinged (start t) steps steps' →
      (start t).RoomyAlong pinged ((start t).sessionMoves steps') →
      SameRuns t ((start t).sessionMoves steps) ((start t).sessionMoves steps') ∧
        ((start t).session steps').ready = ((start t).session steps).ready) := by
  refine ⟨fun c w n hw he => ?_, fun moves i c w hc hw => ?_,
    fun pinged moves moves' h rooms => h.sameRuns rooms,
    fun pinged steps steps' h rooms => h.sameRuns rooms⟩
  · obtain ⟨eaten, w', hw', parted, ate, done⟩ := Connection.readLate_eats n hw he
    refine ⟨eaten, w', hw', parted, ate, fun told => ?_, fun untold => ?_⟩
    · cases closed : w'.ended with
      | some r => rfl
      | none =>
        rw [(done closed).1] at told
        cases told
    · exact Connection.ended_of_readLate hw he untold hw'
  refine ⟨consumed_of_run hc w hw, fun dropped => ?_, fun hr => ⟨fun stays => ?_, fun quiet => ?_⟩⟩
  · rcases reason_of_run hc ((Connection.readEnd?_of_watch hw).trans dropped) with
      ⟨-, ousted⟩ | ⟨item, -, ends⟩
    · exact ousted
    · exact absurd ends item.readEnd?_ne_dropped
  · exact ended_eq_of_run hc hw hr stays
  · exact ended_of_quiet hc hw hr quiet

/-- A client that says hello, pings and sends some bytes gets the same as one that only says good-bye. -/
theorem inbound_is_ignored_chatty :
    let who : Bearer := ⟨"u", ⟨"acme"⟩, .agent⟩
    let t : Tuning := ⟨1000, 4⟩
    let join : Move := .register who (.link {}) true
    let event : Move := .broadcast [0x78] ⟨"acme"⟩
    let bye : Move := .receive 0 (.close none)
    let moves : List Move := [join, .turn (.reader 0), event, .turn (.writer 0), bye, .turn (.reader 0)]
    let chatty : List Move :=
      [join, .receive 0 (.text "hello"), .turn (.reader 0), .receive 0 (.ping [1]), event,
        .turn (.reader 0), .turn (.writer 0), .receive 0 (.binary [2]), bye, .turn (.reader 0)]
    let c : Connection :=
      { bearer := who, stage := .closing, registered := false, signalled := true,
        sink := .link
          { unread := [(.pong [1], 3), (.text "x", 3), (.close none, 2)], peerClosed := true },
        watch := some { attempt := ⟨0, some 0, .closed⟩, ended := some .closeFrame } }
    let steps : List Step := [.move join nofun, .settle, .move event nofun, .advance 10]
    let pinging : List Step :=
      [.move join nofun, .settle, .move (.receive 0 (.ping [1])) nofun, .settle, .move event nofun,
        .advance 10]
    ((Service.start t).after chatty).connections[0]? = some c ∧
      (Service.start t).sent 0 chatty = [.text "hello", .ping [1], .binary [2], .close none] ∧
      c.readEnd? = ((Service.start t).sent 0 chatty).findSome? Inbound.readEnd? ∧
      Service.SameRuns t moves chatty ∧
      Service.SameRuns t ((Service.start t).sessionMoves steps) ((Service.start t).sessionMoves pinging) ∧
      ((Service.start t).history 0 ((Service.start t).sessionMoves pinging)).put = [.text "x"] := by
  intro who t join event bye moves chatty c steps pinging
  obtain ⟨-, run, runs, sessions⟩ := inbound_is_ignored t
  let pinged : Nat → Bool := fun i => i == 0
  have hc : ((Service.start t).after chatty).connections[0]? = some c := by decide +kernel
  have sent : (Service.start t).sent 0 chatty =
      [.text "hello", .ping [1], .binary [2], .close none] := by decide +kernel
  have removals : (Service.start t).removals chatty = [⟨some 0, .reader, true⟩] := by decide +kernel
  have stays : ¬ Service.OustedBy ((Service.start t).removals chatty) 0 := by
    rw [removals]
    simp [Service.OustedBy]
  have interjected : Service.Interjected pinged (Service.start t) moves chatty := by
    refine .move _ (.item 0 rfl (fun _ _ => rfl) (.move _ (.item 0 rfl (fun _ _ => rfl) (.move _ ?_))))
    refine .turn 0 (by decide +kernel) (.move _ (.item 0 rfl (fun _ _ => rfl) ?_))
    exact .move _ (.move _ (.nil _))
  have interluded : Service.Interluded pinged (Service.start t) steps pinging := by
    refine .step _ (.step _ (.interlude 0 rfl (fun _ _ => rfl) (by decide +kernel) ?_))
    exact .step _ (.step _ (.nil _))
  refine ⟨hc, sent, ?_, runs pinged _ _ interjected (by decide +kernel),
    (sessions pinged _ _ interluded (by decide +kernel)).1, by decide +kernel⟩
  obtain ended | ⟨-, cut⟩ := ((run chatty 0 c _ hc rfl).2.2 (by decide +kernel)).1 stays
  · exact ended
  · cases cut

/-- Not everything that a client sends goes unnoticed. Said while others are ready, a word makes its reader
look at once at the close behind it as well, so that the event is not sent any more; and pings whose answers
fill the pipe cost their client the connection. -/
theorem chatter_can_be_felt :
    let who : Bearer := ⟨"u", ⟨"acme"⟩, .agent⟩
    let s := Service.start ⟨1000, 4⟩
    let join : Step := .move (.register who (.link {}) true) nofun
    let event : Step := .move (.broadcast [0x78] ⟨"acme"⟩) nofun
    let bye : Step := .move (.receive 0 (.close none)) nofun
    let hello : Step := .move (.receive 0 (.text "hello")) nofun
    let ping : Step := .move (.receive 0 (.ping (List.replicate 125 0))) nofun
    let load : Step := .move (.deliver 0 (.binary (List.replicate 2000 0))) nofun
    let full : List Step := join :: (List.replicate 32 [load, .settle]).flatten
    let put (steps : List Step) := (s.history 0 (s.sessionMoves steps)).put
    (put [join, .settle, event, bye, .settle] = [.text "x"] ∧
      put [join, .settle, hello, event, bye, .settle] = [] ∧
      (s.session [join, .settle, event, bye, .settle]).ready = [] ∧
      (s.session [join, .settle, hello, event, bye, .settle]).ready = []) ∧
    (s.session (full ++ [.settle, event, .advance 2000])).size = 1 ∧
      (s.session (full ++ List.replicate 12 ping ++ [.settle, event, .advance 2000])).size = 0 ∧
      (s.session (full ++ [.settle, event, .advance 2000])).ready = [] ∧
      (s.session (full ++ List.replicate 12 ping ++ [.settle, event, .advance 2000])).ready = [] := by
  decide +kernel

end Fanout.Live
