import Fanout.Proofs.Live.Order
import Fanout.Proofs.Live.Session

/-!
Connections do not influence each other. What a connection sees of a session are the steps that
concern it, and two sessions of which it sees the same treat it alike: a neighbour that stalls,
fails, comes, goes or is evicted changes nothing, and neither does an event for another tenant. The
deadlines of others only make the clock stop more often on its way.
-/

namespace Fanout.Live

/-! ### What a connection sees of a session -/

namespace Move

variable {h : Tenant} {i registered : Nat} {m m' : Move}

theorem seen_ne_tick (ha : ∀ ms, m ≠ .tick ms) (hm : m.seen h i registered = some m') :
    ∀ ms, m' ≠ .tick ms := by
  rintro ms rfl
  cases m with
  | tick ms' => exact ha ms' rfl
  | _ => simp [Move.seen] at hm

/-- The only registration that a connection sees is its own. -/
theorem register_of_seen {who : Bearer} {sink : Sink} {reads : Bool}
    (hm : m.seen h i registered = some (.register who sink reads)) :
    registered = i ∧ m = .register who sink reads := by
  cases m with
  | register who' sink' reads' =>
    by_cases hi : registered = i
    · simp [Move.seen, hi] at hm
      exact ⟨hi, by simp [hm]⟩
    · simp [Move.seen, hi] at hm
  | _ => simp [Move.seen] at hm

end Move

/-- How many connections register at a step. -/
def Step.births : Step → Nat
  | .move (.register _ _ _) _ => 1
  | _ => 0

/-- Where a session is seen from: a connection by its number and the tenant of its bearer. On the way
it is kept how many connections have registered, and whether all own tasks have settled. -/
structure Vantage where
  holder : Tenant
  number : Nat
  registered : Nat := 0
  settled : Bool := true

namespace Vantage

/-- What is left of a step. There is nothing to see when tasks settle that have settled before. -/
def seen (v : Vantage) : Step → Option Step
  | .move m atOnce =>
    (m.seen v.holder v.number v.registered).pmap .move fun _ hm => Move.seen_ne_tick atOnce hm
  | .settle => if v.settled then none else some .settle
  | .advance ms => some (.advance ms)

def next (v : Vantage) (x : Step) : Vantage :=
  { v with
    registered := v.registered + x.births, settled := ((v.seen x).map Step.settles).getD v.settled }

/-- What is seen of a session. -/
def view (v : Vantage) : List Step → List Step
  | [] => []
  | x :: rest => (v.seen x).toList ++ (v.next x).view rest

variable {v : Vantage} {x x' : Step}

theorem seen_move {m : Move} {atOnce} (hx : v.seen (.move m atOnce) = some x') :
    ∃ m' atOnce', m.seen v.holder v.number v.registered = some m' ∧ x' = .move m' atOnce' := by
  obtain ⟨m', _, hm, rfl⟩ := Option.pmap_eq_some_iff.mp hx
  exact ⟨m', _, hm, rfl⟩

theorem settle_of_seen (hx : v.seen .settle = some x') : x' = .settle := by
  cases hs : v.settled <;> simp [seen, hs] at hx
  exact hx.symm

theorem register_of_seen {who : Bearer} {sink : Sink} {reads : Bool} {atOnce}
    (hx : v.seen x = some (.move (.register who sink reads) atOnce)) :
    v.registered = v.number ∧ x = .move (.register who sink reads) atOnce := by
  cases x with
  | settle => cases settle_of_seen hx
  | advance ms => cases hx
  | move m a =>
    obtain ⟨m', a', hm, he⟩ := seen_move hx
    obtain rfl := Step.move.inj he
    obtain ⟨hi, rfl⟩ := Move.register_of_seen hm
    exact ⟨hi, rfl⟩

theorem births_of_seen (hx : v.seen x = some x') (hb : x'.births ≠ 0) :
    v.registered = v.number ∧ x.births = 1 := by
  cases x' with
  | move m' atOnce' =>
    cases m' with
    | register who sink reads =>
      obtain ⟨hi, rfl⟩ := register_of_seen hx
      exact ⟨hi, rfl⟩
    | _ => exact absurd rfl hb
  | settle => exact absurd rfl hb
  | advance ms => exact absurd rfl hb

end Vantage

namespace Service

variable {s u : Service}

theorem length_step (hl : s.tuning.capacity ≤ Tuning.greatestCapacity) (x : Step) :
    (s.step x).connections.length = s.connections.length + x.births := by
  cases x with
  | move m atOnce =>
    have born : (s.born m).length = (Step.move m atOnce).births := by
      cases m with
      | register who sink reads => simp [Service.born, Nat.not_lt.mpr hl, Step.births]
      | _ => rfl
    show (s.perform m).connections.length = _
    rw [connections_perform, List.length_append, List.length_mapIdx, born]
  | settle =>
    show s.settle.connections.length = _
    rw [← after_settleMoves]
    exact length_after_of_isInner fun _ => isInner_of_mem_turnMoves
  | advance ms =>
    show (s.advance ms).connections.length = _
    rw [← after_advanceMoves]
    exact length_after_of_isInner fun _ => isInner_of_mem_advanceMoves

theorem tuning_step (s : Service) (x : Step) : (s.step x).tuning = s.tuning := by
  rw [← after_stepMoves, tuning_after]

end Service

/-! ### The connection alone -/

/-- To the connection the service looks like one in which nobody else ever registers. -/
structure Alone (v : Vantage) (s u : Service) : Prop where
  alike : Alike v.holder v.number s 0 u
  now : s.now = u.now
  poised : s.Poised
  poised' : u.Poised
  fits : s.tuning.capacity ≤ Tuning.greatestCapacity
  registered : v.registered = s.connections.length
  fresh : v.registered ≤ v.number → u.connections.length = 0
  settled : v.settled → s.ready.filterMap (Task.place? v.number) = []

theorem Matched.of_stepMoves {h : Tenant} {i j : Nat} {s u : Service} {x : Step} {moves : List Move}
    (hm : Matched h i s (s.stepMoves x) j u moves) : Alike h i (s.step x) j (u.after moves) := by
  have alike := hm.alike
  rwa [Service.after_stepMoves] at alike

namespace Alone

variable {v : Vantage} {s u : Service} {x x' : Step}

theorem start {t : Tuning} (hl : t.capacity ≤ Tuning.greatestCapacity) (h : Tenant) (i : Nat) :
    Alone ⟨h, i, 0, true⟩ (Service.start t) (Service.start t) where
  alike := ⟨rfl, rfl, fun c hc => by simp [Service.start] at hc, rfl, rfl⟩
  now := rfl
  poised := Service.poised_start t
  poised' := Service.poised_start t
  fits := hl
  registered := rfl
  fresh := fun _ => rfl
  settled := fun _ => rfl

/-- What has to be seen to of a step. -/
theorem next (hs : Alone v s u) {u' : Service} (alike : Alike v.holder v.number (s.step x) 0 u')
    (now : (s.step x).now = u'.now) (poised' : u'.Poised)
    (fresh : v.registered + x.births ≤ v.number → u'.connections.length = 0)
    (settled : (v.next x).settled → (s.step x).ready.filterMap (Task.place? v.number) = []) :
    Alone (v.next x) (s.step x) u' where
  alike := alike
  now := now
  poised := hs.poised.step x
  poised' := poised'
  fits := (s.tuning_step x).symm ▸ hs.fits
  registered := by rw [Service.length_step hs.fits x, ← hs.registered]; rfl
  fresh := fresh
  settled := settled

/-- A step that the connection does not see. -/
theorem skip (hs : Alone v s u) (hx : v.seen x = none) :
    Matched v.holder v.number s (s.stepMoves x) 0 u [] ∧ Alone (v.next x) (s.step x) u := by
  have kept (hm : Matched v.holder v.number s (s.stepMoves x) 0 u [])
      (now : (s.step x).now = s.now) : Alone (v.next x) (s.step x) u := by
    have alike := hm.of_stepMoves
    refine hs.next alike (now.trans hs.now) hs.poised' ?_ ?_
    · intro hl
      exact hs.fresh (by omega)
    · intro hv
      have same : (v.next x).settled = v.settled := by simp [Vantage.next, hx]
      exact alike.ready.trans (hs.alike.ready.symm.trans (hs.settled (same ▸ hv)))
  cases x with
  | move m atOnce =>
    have hm : m.seen v.holder v.number v.registered = none := Option.pmap_eq_none_iff.mp hx
    have alike := hs.alike.perform_other (hs.registered ▸ hm)
    have other : m ≠ .turn (.writer v.number) := by
      rintro rfl
      simp [Move.seen, Task.place?] at hm
    have matched : Matched v.holder v.number s [m] 0 u [] := .aside other alike.matched
    refine ⟨matched, kept matched ?_⟩
    show (s.perform m).now = s.now
    rw [s.now_perform, Move.elapsed_eq_zero atOnce, Nat.add_zero]
  | settle =>
    have settled : v.settled := by
      cases hv : v.settled
      · simp [Vantage.seen, hv] at hx
      · rfl
    have matched := hs.alike.turns_other (hs.settled settled) s.workload
    exact ⟨matched, kept matched s.now_settle⟩
  | advance ms => cases hx

/-- A step of which something is left. -/
theorem step (hs : Alone v s u) (hx : v.seen x = some x')
    (hw : ∀ who sink reads atOnce, x' = .move (.register who sink reads) atOnce →
      who.tenant = v.holder) :
    Matched v.holder v.number s (s.stepMoves x) 0 u (u.stepMoves x') ∧
      Alone (v.next x) (s.step x) (u.step x') := by
  have kept (hm : Matched v.holder v.number s (s.stepMoves x) 0 u (u.stepMoves x'))
      (now : (s.step x).now = (u.step x').now) (settles : x'.settles → x.settles) :
      Alone (v.next x) (s.step x) (u.step x') := by
    have alike := hm.of_stepMoves
    rw [Service.after_stepMoves] at alike
    refine hs.next alike now (hs.poised'.step x') ?_ ?_
    · intro hl
      have fresh := hs.fresh (by omega)
      rw [Service.length_step (hs.alike.tuning ▸ hs.fits) x', fresh]
      by_cases hb : x'.births = 0
      · omega
      · obtain ⟨hi, hb⟩ := Vantage.births_of_seen hx hb
        omega
    · intro hv
      have same : (v.next x).settled = x'.settles := by simp [Vantage.next, hx]
      rw [(hs.poised.settled_step (settles (same ▸ hv))).1]
      rfl
  cases x with
  | move m atOnce =>
    obtain ⟨m', atOnce', hm, rfl⟩ := Vantage.seen_move hx
    rw [hs.registered] at hm
    have own : ∀ who sink reads, m' = .register who sink reads →
        who.tenant = v.holder ∧ u.connections.length = 0 := by
      rintro who sink reads rfl
      obtain ⟨hi, -⟩ := Move.register_of_seen hm
      exact ⟨hw who sink reads atOnce' rfl, hs.fresh (Nat.le_of_eq (hs.registered.trans hi))⟩
    have alike := hs.alike.perform hs.now hm own
    have matched : Matched v.holder v.number s [m] 0 u [m'] :=
      .both (hs.alike.entries_seen hs.now hm) alike.matched
    refine ⟨matched, kept matched ?_ nofun⟩
    show (s.perform m).now = (u.perform m').now
    rw [s.now_perform, u.now_perform, Move.elapsed_eq_zero atOnce, Move.elapsed_eq_zero atOnce',
      hs.now]
  | settle =>
    obtain rfl := Vantage.settle_of_seen hx
    have settled := hs.alike.settle hs.now
    exact ⟨settled, kept settled (s.now_settle.trans (hs.now.trans u.now_settle.symm)) id⟩
  | advance ms =>
    obtain rfl := Option.some.inj hx
    have arrived := hs.alike.advance hs.now hs.poised hs.poised' ms
    refine ⟨arrived, kept arrived ?_ id⟩
    show s.settle.now + ms = u.settle.now + ms
    rw [s.now_settle, u.now_settle, hs.now]

/-- The whole session, and what is seen of it. -/
theorem session (hs : Alone v s u) {steps : List Step}
    (hw : ∀ who sink reads atOnce, .move (.register who sink reads) atOnce ∈ v.view steps →
      who.tenant = v.holder) :
    Matched v.holder v.number s (s.sessionMoves steps) 0 u (u.sessionMoves (v.view steps)) := by
  induction steps generalizing v s u with
  | nil => exact hs.alike.matched
  | cons x rest ih =>
    unfold Vantage.view at hw ⊢
    have later : ∀ who sink reads atOnce,
        .move (.register who sink reads) atOnce ∈ (v.next x).view rest → who.tenant = v.holder :=
      fun who sink reads atOnce hm => hw who sink reads atOnce (List.mem_append_right _ hm)
    cases hx : v.seen x with
    | none =>
      obtain ⟨first, next⟩ := hs.skip hx
      refine first.before ?_
      rw [Service.after_stepMoves]
      exact ih next later
    | some x' =>
      obtain ⟨first, next⟩ := hs.step hx fun who sink reads atOnce he =>
        hw who sink reads atOnce (by simp [hx, he])
      refine first.append ?_
      rw [Service.after_stepMoves, Service.after_stepMoves]
      exact ih next later

end Alone

/-- The connection that is seen to register is the one from which the session is seen. -/
theorem Vantage.bearer_of_mem_view {v : Vantage} {s : Service} {steps : List Step}
    (hl : s.tuning.capacity ≤ Tuning.greatestCapacity) (hv : v.registered = s.connections.length)
    {who : Bearer} {sink : Sink} {reads : Bool} {atOnce}
    (hm : .move (.register who sink reads) atOnce ∈ v.view steps) :
    ∃ c, (s.session steps).connections[v.number]? = some c ∧ c.bearer = who := by
  induction steps generalizing v s with
  | nil => cases hm
  | cons x rest ih =>
    rcases List.mem_append.mp hm with hm | hm
    · obtain ⟨hi, rfl⟩ := register_of_seen (Option.mem_toList.mp hm)
      have born := s.getElem?_register hl who sink reads
      rw [← hv, hi] at born
      obtain ⟨d, hd, hb⟩ := Service.bearer_after born (Service.sessionMoves _ rest)
      rw [Service.after_sessionMoves] at hd
      exact ⟨d, hd, hb⟩
    · refine ih (v := v.next x) (s := s.step x) ((s.tuning_step x).symm ▸ hl) ?_ hm
      rw [Service.length_step hl x, ← hv]
      rfl

/-- A sink that keeps what it takes holds the frames that its connection's journal tells of. -/
theorem taken_eq_takes {t : Tuning} {moves : List Move} {i : Nat} {c : Connection}
    (hc : ((Service.start t).after moves).connections[i]? = some c) {frames : List Frame}
    (hf : c.sink.taken? = some frames) :
    frames = ((Service.start t).journal (Connection.takes t) i moves).map Prod.snd :=
  ((Ledger.of_run hc).kept frames hf).trans (Service.map_takes (Service.start t) i moves).symm

/-- Connections do not influence each other. If two sessions look the same to a connection, it is in
the same state after both, whatever else goes on in them: its stage, its registration, its queue, its
writer and its sink are the same, and its sink has taken the same frames at the same times; those that
a sink keeps are the frames of this journal. This holds after every step, since the first steps of two
sessions may be compared as well. -/
theorem connections_independent (t : Tuning) (steps steps' : List Step) (i j : Nat) (c : Connection)
    (hc : ((Service.start t).session steps).connections[i]? = some c)
    (hv : Vantage.view ⟨c.bearer.tenant, i, 0, true⟩ steps =
      Vantage.view ⟨c.bearer.tenant, j, 0, true⟩ steps') :
    ∃ d, ((Service.start t).session steps').connections[j]? = some d ∧ d.bare = c.bare ∧
      (Service.start t).journal (Connection.takes t) j ((Service.start t).sessionMoves steps') =
        (Service.start t).journal (Connection.takes t) i ((Service.start t).sessionMoves steps) ∧
      ∀ frames, c.sink.taken? = some frames → frames =
        ((Service.start t).journal (Connection.takes t) i
          ((Service.start t).sessionMoves steps)).map Prod.snd := by
  have fits : t.capacity ≤ Tuning.greatestCapacity := by
    rw [← Service.after_sessionMoves] at hc
    exact Service.capacity_le_of_after (s := Service.start t) rfl hc
  have own : ∀ who sink reads atOnce, .move (.register who sink reads) atOnce ∈
      Vantage.view ⟨c.bearer.tenant, i, 0, true⟩ steps → who.tenant = c.bearer.tenant := by
    intro who sink reads atOnce hm
    obtain ⟨d, hd, hb⟩ := Vantage.bearer_of_mem_view (s := Service.start t) fits rfl hm
    obtain rfl := Option.some.inj (hd.symm.trans hc)
    rw [hb]
  have here := (Alone.start fits c.bearer.tenant i).session own
  have there := (Alone.start fits c.bearer.tenant j).session (hv ▸ own)
  rw [← hv] at there
  have alike := here.alike.trans there.symm.alike
  rw [Service.after_sessionMoves, Service.after_sessionMoves] at alike
  obtain ⟨d, hd, same⟩ := alike.of_some hc
  refine ⟨d, hd, same.symm, there.takes.trans here.takes.symm, fun frames hf => ?_⟩
  rw [← Service.after_sessionMoves] at hc
  exact taken_eq_takes hc hf

/-- A connection whose sink takes its frames late, next to one of another tenant that takes none and is
evicted, and by itself. -/
theorem connections_independent_beside_stalled :
    let who : Bearer := ⟨"u", ⟨"acme"⟩, .agent⟩
    let neighbour : Bearer := ⟨"v", ⟨"globex"⟩, .agent⟩
    let body := fun s => Octets.ofText s
    let steps : List Step :=
      [.move (.register neighbour (.probe { accept := some 0, stallClose := true }) false) nofun,
        .settle, .move (.register who (.probe { accept := some 1 }) false) nofun, .settle,
        .move (.broadcast (body "a") Tenant.empty) nofun, .settle,
        .move (.broadcast (body "b") neighbour.tenant) nofun,
        .move (.broadcast (body "c") neighbour.tenant) nofun, .settle,
        .move (.deliver 1 (.text "d")) nofun, .settle, .advance 50,
        .move (.behave 1 { accept := some 2 }) nofun, .settle, .advance 100]
    let steps' : List Step :=
      [.move (.register who (.probe { accept := some 1 }) false) nofun, .settle,
        .move (.broadcast (body "a") Tenant.empty) nofun, .settle,
        .move (.deliver 0 (.text "d")) nofun, .settle, .advance 50,
        .move (.behave 0 { accept := some 2 }) nofun, .settle, .advance 100]
    let c : Connection :=
      { bearer := who, sink := .probe { accept := some 2, taken := [.text "a", .text "d"] } }
    let s := (Service.start ⟨100, 1⟩).session steps
    let s' := (Service.start ⟨100, 1⟩).session steps'
    let g' := (Service.start ⟨100, 1⟩).journal (Connection.takes ⟨100, 1⟩) 0
      ((Service.start ⟨100, 1⟩).sessionMoves steps')
    s.connections[1]? = some c ∧ s.connections.map (·.registered) = [false, true] ∧
      Vantage.view ⟨c.bearer.tenant, 1, 0, true⟩ steps =
        Vantage.view ⟨c.bearer.tenant, 0, 0, true⟩ steps' ∧
      g' = [(0, .text "a"), (50, .text "d")] ∧
      ∃ d, s'.connections[0]? = some d ∧ d.bare = c.bare ∧
        g' = (Service.start ⟨100, 1⟩).journal (Connection.takes ⟨100, 1⟩) 1
          ((Service.start ⟨100, 1⟩).sessionMoves steps) := by
  intro who neighbour body steps steps' c s s' g'
  have hc : s.connections[1]? = some c := by decide +kernel
  have hl : s.connections.map (·.registered) = [false, true] := by decide +kernel
  have hv : Vantage.view ⟨c.bearer.tenant, 1, 0, true⟩ steps =
      Vantage.view ⟨c.bearer.tenant, 0, 0, true⟩ steps' := rfl
  have hg : g' = [(0, .text "a"), (50, .text "d")] := by decide +kernel
  obtain ⟨d, hd, same, times, -⟩ := connections_independent ⟨100, 1⟩ steps steps' 1 0 c hc hv
  exact ⟨hc, hl, hv, hg, d, hd, same, times⟩

end Fanout.Live
