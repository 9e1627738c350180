import Fanout.Proofs.Live.Forwarding
import Fanout.Proofs.Live.Resemblance

/-!
What clients send interferes with nothing. Two runs are compared, of which one has further harmless items
in it, anywhere, and turns of readers that look at them. Move by move the connections of both runs resemble
each other, and everything else is the same.
-/

namespace Fanout.Live

/-! ### The bridges -/

namespace BridgeRun

variable {r r₁ r₂ : BridgeRun} {bodies : List Octets} {status s₁ s₂ : BridgeStatus}

theorem Takes.unique (h₁ : r.Takes status bodies r₁ s₁) (h₂ : r.Takes status bodies r₂ s₂) :
    r₁ = r₂ ∧ s₁ = s₂ := by
  have broken {e : BrokerFault} {later : List Delivery} (hp : r.pending = bodies.map .body)
      (hq : r.pending = bodies.map .body ++ .failure e :: later) : False := by
    rw [hp] at hq
    simpa using congrArg List.length hq
  cases h₁ with
  | wait hp hf =>
    cases h₂ with
    | wait => exact ⟨rfl, rfl⟩
    | finish _ hf' => simp [hf] at hf'
    | fail _ _ hq => exact (broken hp hq).elim
  | finish hp hf =>
    cases h₂ with
    | wait _ hf' => simp [hf] at hf'
    | finish => exact ⟨rfl, rfl⟩
    | fail _ _ hq => exact (broken hp hq).elim
  | fail e later hq =>
    cases h₂ with
    | wait hp => exact (broken hp hq).elim
    | finish hp => exact (broken hp hq).elim
    | fail => exact ⟨rfl, rfl⟩

/-- What a bridge does at its turn is determined by how it stands. -/
theorem Turn.unique (h₁ : r.Turn status bodies r₁ s₁) (h₂ : r.Turn status bodies r₂ s₂) :
    r₁ = r₂ ∧ s₁ = s₂ := by
  cases h₁ with
  | idle hf =>
    cases h₂ with
    | idle => exact ⟨rfl, rfl⟩
    | refuse hf' | begin hf' | resume hf' => simp [hf] at hf'
  | refuse hf hs made e hm =>
    cases h₂ with
    | idle hf' => simp [hf] at hf'
    | refuse _ _ _ _ hm' =>
      rw [hm] at hm'
      cases hm'
      exact ⟨rfl, rfl⟩
    | begin _ _ _ hm' => simp [hm] at hm'
    | resume _ hs' => simp [hs] at hs'
  | begin hf hs made hm ht =>
    cases h₂ with
    | idle hf' => simp [hf] at hf'
    | refuse _ _ _ _ hm' => simp [hm] at hm'
    | begin _ _ _ hm' ht' =>
      rw [hm] at hm'
      cases hm'
      exact ht.unique ht'
    | resume _ hs' => simp [hs] at hs'
  | resume hf hs ht =>
    cases h₂ with
    | idle hf' => simp [hf] at hf'
    | refuse _ hs' | begin _ hs' => simp [hs] at hs'
    | resume _ _ ht' => exact ht.unique ht'

end BridgeRun

namespace Service

variable {s s' : Service}

theorem status_playBridge (s : Service) (b : Bridge) (broker : Broker) :
    (s.playBridge b broker).2.2.status = .stopped := by
  rw [playBridge]
  simp only
  split
  · rfl
  · split <;> rfl

/-- What becomes of the bridges and their status depends on nothing else. -/
theorem runs_perform (hb : s'.bridges = s.bridges) (hs : s'.status = s.status) (m : Move) :
    (s'.perform m).bridges = (s.perform m).bridges ∧
      (s'.perform m).status = (s.perform m).status := by
  have kept {u u' : Service} (h : u.bridges = s.bridges ∧ u.status = s.status)
      (h' : u'.bridges = s'.bridges ∧ u'.status = s'.status) :
      u'.bridges = u.bridges ∧ u'.status = u.status :=
    ⟨h'.1.trans (hb.trans h.1.symm), h'.2.trans (hs.trans h.2.symm)⟩
  cases m with
  | register who sink reads =>
    have same (s : Service) : (s.perform (.register who sink reads)).bridges = s.bridges ∧
        (s.perform (.register who sink reads)).status = s.status := by
      rw [perform_register]
      split <;> exact ⟨rfl, rfl⟩
    exact kept (same s) (same s')
  | remove i => exact kept (s.runs_remove i) (s'.runs_remove i)
  | deliver i f => exact kept (s.runs_deliver i f) (s'.runs_deliver i f)
  | hand b body =>
    exact kept ⟨s.bridges_handle b [body], s.status_handle b [body]⟩
      ⟨s'.bridges_handle b [body], s'.status_handle b [body]⟩
  | play b broker =>
    refine ⟨?_, ?_⟩
    · exact (s'.bridges_playBridge b broker).trans (hb.trans (s.bridges_playBridge b broker).symm)
    · exact (s'.status_playBridge b broker).trans (s.status_playBridge b broker).symm
  | spawn b broker =>
    refine ⟨?_, hs⟩
    change s'.bridges ++ _ = s.bridges ++ _
    rw [hb]
  | feed j item last =>
    simp only [perform, feed, hb]
    cases s.bridges[j]? with
    | none => exact ⟨hb, hs⟩
    | some r => exact ⟨rfl, hs⟩
  | turn task =>
    cases task with
    | writer j => exact kept (runs_runWriter _ j) (runs_runWriter _ j)
    | reader j => exact kept (runs_runReader _ j) (runs_runReader _ j)
    | bridge j =>
      let u : Service := { s with ready := s.ready.erase (.bridge j) }
      let u' : Service := { s' with ready := s'.ready.erase (.bridge j) }
      change (u'.runBridge j).bridges = (u.runBridge j).bridges ∧
        (u'.runBridge j).status = (u.runBridge j).status
      cases hj : s.bridges[j]? with
      | none =>
        have still : u.runBridge j = u := by simp [runBridge, u, hj]
        have still' : u'.runBridge j = u' := by simp [runBridge, u', hb, hj]
        rw [still, still']
        exact ⟨hb, hs⟩
      | some r =>
        have hj' : u'.bridges[j]? = some r := by
          rw [← hj, ← hb]
        obtain ⟨r₁, s₁, turn, ran⟩ := u.runBridge_turn (i := j) hj
        obtain ⟨r₂, s₂, turn', ran'⟩ := u'.runBridge_turn (i := j) hj'
        have turn' : r.Turn s.status r.handed r₂ s₂ := hs ▸ turn'
        obtain ⟨rfl, rfl⟩ := turn.unique turn'
        rw [ran, ran']
        refine ⟨?_, rfl⟩
        change s'.bridges.set j r₁ = s.bridges.set j r₁
        rw [hb]
  | setStatus status => exact ⟨hb, rfl⟩
  | broadcast _ _ | behave _ _ | receive _ _ | cutOff _ | fetch _ | wake _ | tick _ =>
    exact kept ⟨rfl, rfl⟩ ⟨rfl, rfl⟩

/-! ### Services -/

/-- Two services that differ only in what clients have sent on top. -/
structure Mirrors (pinged : Nat → Bool) (s s' : Service) : Prop where
  tuning : s'.tuning = s.tuning
  now : s'.now = s.now
  bridges : s'.bridges = s.bridges
  status : s'.status = s.status
  each : ∀ i, Option.Rel (Connection.Resembles (pinged i)) s.connections[i]? s'.connections[i]?

/-- The pipes of those who may have pinged have room for all that is on them. -/
def Roomy (pinged : Nat → Bool) (s : Service) : Prop :=
  ∀ p ∈ s.connections.zipIdx, pinged p.2 → p.1.sink.hasRoom

instance {pinged : Nat → Bool} {s : Service} : Decidable (s.Roomy pinged) :=
  inferInstanceAs (Decidable (∀ p ∈ s.connections.zipIdx, pinged p.2 → p.1.sink.hasRoom))

theorem Roomy.at {pinged : Nat → Bool} {s : Service} (h : s.Roomy pinged) {i : Nat} {c : Connection}
    (hc : s.connections[i]? = some c) : pinged i → c.sink.hasRoom :=
  h (c, i) (List.mem_zipIdx_iff_getElem?.mpr hc)

/-- Some run leads to the service. -/
def Reached (t : Tuning) (s : Service) : Prop := ∃ moves, (start t).after moves = s

namespace Reached

variable {t : Tuning} {i : Nat} {c : Connection}

theorem start (t : Tuning) : Reached t (start t) := ⟨[], rfl⟩

theorem perform (h : Reached t s) (m : Move) : Reached t (s.perform m) := by
  obtain ⟨moves, rfl⟩ := h
  exact ⟨moves ++ [m], after_append _ _ _⟩

/-- A client that was cut off has left an error to its reader. -/
theorem warned (h : Reached t s) (hc : s.connections[i]? = some c) : c.Warned := by
  obtain ⟨moves, rfl⟩ := h
  intro cut w hw he
  have informed := informed_of_run hc
  have given := error_mem_deeds (informed.cut cut)
  exact ⟨.error, (informed.kept w hw he .error rfl).mpr given, rfl⟩

/-- A reader that is not ready has nothing before it. -/
theorem listens (h : Reached t s) (hc : s.connections[i]? = some c) (idle : .reader i ∉ s.ready) :
    c.Listens := by
  obtain ⟨moves, rfl⟩ := h
  exact (((heard_start t).after moves) i c hc).resolve_left idle

end Reached

end Service

namespace Connection.Resembles

variable {pinged : Bool} {c c' : Connection} {t : Tuning}

theorem single {a : Act} (h : Resembles pinged (c.act t a) (c'.act t a) ∧
    c'.incidents t a = c.incidents t a) :
    Resembles pinged (c.acts t [a]) (c'.acts t [a]) ∧ c'.history t [a] = c.history t [a] :=
  ⟨h.1, congrArg (· ++ []) h.2⟩

/-- A move does the same to both, if the pipe has room before and after. -/
theorem acts (h : Resembles pinged c c') (s : Service) (i : Nat) (m : Move)
    (room : pinged → c'.sink.hasRoom)
    (roomy : pinged → (c'.acts t (s.acts i c m)).sink.hasRoom) (warned : c.Warned)
    (warned' : c'.Warned) :
    Resembles pinged (c.acts t (s.acts i c m)) (c'.acts t (s.acts i c m)) ∧
      c'.history t (s.acts i c m) = c.history t (s.acts i c m) := by
  have none : Resembles pinged (c.acts t []) (c'.acts t []) ∧ c'.history t [] = c.history t [] :=
    ⟨h, rfl⟩
  have one (a : Act) := single (h.act (t := t) a room warned warned')
  have own (j : Nat) (a : Act) :
      Resembles pinged (c.acts t (if j = i then [a] else [])) (c'.acts t (if j = i then [a] else [])) ∧
        c'.history t (if j = i then [a] else []) = c.history t (if j = i then [a] else []) := by
    split
    · exact one a
    · exact none
  cases m with
  | broadcast body tag => exact one _
  | hand b body => exact one _
  | play b broker => exact h.hands b _
  | remove j => exact own j _
  | deliver j f => exact own j _
  | behave j p => exact own j _
  | receive j item => exact own j _
  | fetch j => exact own j _
  | cutOff j =>
    rw [Service.acts]
    split
    · exact ⟨h.cutOff.hear .error, rfl⟩
    · exact none
  | turn task =>
    cases task with
    | reader j => exact own j _
    | writer j =>
      rw [Service.acts] at roomy ⊢
      split
      · next hj =>
        rw [if_pos hj] at roomy
        exact h.writes _ _ roomy
      · exact none
    | bridge j =>
      rw [Service.acts]
      split
      · exact none
      · exact h.hands _ _
  | register _ _ _ | spawn _ _ | feed _ _ _ | wake _ | tick _ | setStatus _ => exact none

end Connection.Resembles

namespace Service.Mirrors

variable {pinged : Nat → Bool} {s s' : Service}

theorem refl (pinged : Nat → Bool) (s : Service) : Mirrors pinged s s where
  tuning := rfl
  now := rfl
  bridges := rfl
  status := rfl
  each i := by
    cases s.connections[i]? with
    | none => exact .none
    | some c => exact .some (.refl _ c)

/-- At every number there is a connection on both sides or on neither. -/
theorem cases (h : Mirrors pinged s s') (i : Nat) :
    s.connections[i]? = none ∧ s'.connections[i]? = none ∨
      ∃ c c', s.connections[i]? = some c ∧ s'.connections[i]? = some c' ∧
        Connection.Resembles (pinged i) c c' := by
  have here := h.each i
  cases hc : s.connections[i]? with
  | none =>
    rw [hc] at here
    generalize s'.connections[i]? = c' at here
    cases here
    exact .inl ⟨rfl, rfl⟩
  | some c =>
    rw [hc] at here
    generalize hc' : s'.connections[i]? = c' at here
    cases here with
    | some alike => exact .inr ⟨c, _, rfl, rfl, alike⟩

theorem length (h : Mirrors pinged s s') : s'.connections.length = s.connections.length := by
  have same (i : Nat) : s'.connections.length ≤ i ↔ s.connections.length ≤ i := by
    rw [← List.getElem?_eq_none_iff, ← List.getElem?_eq_none_iff]
    obtain ⟨hn, hn'⟩ | ⟨c, c', hc, hc', -⟩ := h.cases i
    · rw [hn, hn']
    · rw [hc, hc']
      exact iff_of_false nofun nofun
  exact Nat.le_antisymm ((same _).mpr (Nat.le_refl _)) ((same _).mp (Nat.le_refl _))

theorem acts_eq (h : Mirrors pinged s s') {i : Nat} {c c' : Connection}
    (hc : Connection.Resembles (pinged i) c c') (m : Move) : s'.acts i c' m = s.acts i c m := by
  obtain ⟨-, -⟩ := hc
  cases m with
  | turn task =>
    cases task with
    | writer j =>
      simp only [acts, h.now]
      rfl
    | reader j => rfl
    | bridge j => simp only [acts, h.bridges]
  | _ => rfl

theorem born_eq (h : Mirrors pinged s s') (m : Move) : s'.born m = s.born m := by
  cases m with
  | register who sink reads => simp only [Service.born, h.tuning, h.length]
  | _ => rfl

/-- A move does the same to both services, and the same is noticed of every connection. -/
theorem perform (h : Mirrors pinged s s') {t : Tuning} (hs : Reached t s) (hs' : Reached t s')
    (m : Move) (room : s'.Roomy pinged) (roomy : (s'.perform m).Roomy pinged) :
    Mirrors pinged (s.perform m) (s'.perform m) ∧ ∀ i, s'.incidents i m = s.incidents i m := by
  have both {i : Nat} {c c' : Connection} (hc : s.connections[i]? = some c)
      (hc' : s'.connections[i]? = some c') (alike : Connection.Resembles (pinged i) c c') :
      Connection.Resembles (pinged i) (c.acts s.tuning (s.acts i c m))
          (c'.acts s.tuning (s.acts i c m)) ∧
        c'.history s.tuning (s.acts i c m) = c.history s.tuning (s.acts i c m) := by
    have next := getElem?_perform hc' m
    rw [h.acts_eq alike, h.tuning] at next
    exact alike.acts s i m (room.at hc') (roomy.at next) (hs.warned hc) (hs'.warned hc')
  obtain ⟨bridges, status⟩ := runs_perform h.bridges h.status m
  refine ⟨⟨?_, ?_, bridges, status, fun i => ?_⟩, fun i => ?_⟩
  · rw [tuning_perform, tuning_perform, h.tuning]
  · rw [now_perform, now_perform, h.now]
  · obtain ⟨hn, hn'⟩ | ⟨c, c', hc, hc', alike⟩ := h.cases i
    · have beyond := List.getElem?_eq_none_iff.mp hn
      rw [connections_perform, connections_perform, h.born_eq,
        List.getElem?_append_right (by rwa [List.length_mapIdx]),
        List.getElem?_append_right (by rwa [List.length_mapIdx, h.length]),
        List.length_mapIdx, List.length_mapIdx, h.length]
      cases (s.born m)[i - s.connections.length]? with
      | none => exact .none
      | some c => exact .some (.refl _ c)
    · rw [getElem?_perform hc, getElem?_perform hc', h.acts_eq alike, h.tuning]
      exact .some (both hc hc' alike).1
  · rw [incidents, incidents]
    obtain ⟨hn, hn'⟩ | ⟨c, c', hc, hc', alike⟩ := h.cases i
    · rw [hn, hn']
    · rw [hc, hc', h.tuning]
      simp only [h.acts_eq alike]
      exact (both hc hc' alike).2

/-! ### Reports -/

/-- The connections with a property that has to do neither with the sink nor with the watch. -/
theorem numbers (h : Mirrors pinged s s') {p : Connection → Bool}
    (hp : ∀ c e w, p (Connection.refit e w c) = p c) : s'.numbers p = s.numbers p := by
  rw [numbers_eq_filter, numbers_eq_filter, h.length]
  refine List.filter_congr fun i _ => ?_
  obtain ⟨hn, hn'⟩ | ⟨c, c', hc, hc', alike⟩ := h.cases i
  · rw [hn, hn']
  · obtain ⟨-, -⟩ := alike
    rw [hc, hc', Option.any_some, Option.any_some, hp]

/-- Whom an event under a tag is meant for, and who of these cannot take it. -/
theorem audience (h : Mirrors pinged s s') (tag : Tenant) :
    s'.numbers (·.isTarget tag) = s.numbers (·.isTarget tag) ∧
      s'.numbers (fun c => c.isTarget tag && ! c.accepts s.tuning.capacity) =
        s.numbers fun c => c.isTarget tag && ! c.accepts s.tuning.capacity :=
  ⟨h.numbers fun _ _ _ => rfl, h.numbers fun _ _ _ => rfl⟩

theorem broadcast (h : Mirrors pinged s s') (body : Octets) (tag : Tenant) :
    (s'.broadcast body tag).1 = (s.broadcast body tag).1 := by
  obtain ⟨targets, evicted⟩ := h.audience tag
  simp only [Service.broadcast, h.tuning, targets, evicted]

theorem record (h : Mirrors pinged s s') (r : LogRecord) : Mirrors pinged (s.record r) (s'.record r) :=
  ⟨h.tuning, h.now, h.bridges, h.status, h.each⟩

theorem dispatch (h : Mirrors pinged s s') (b : Bridge) (body : Octets) :
    (s'.dispatch b body).1 = (s.dispatch b body).1 ∧
      Mirrors pinged (s.dispatch b body).2 (s'.dispatch b body).2 := by
  constructor
  · rw [Service.dispatch, Service.dispatch]
    cases Event.Scope.ofOctets body with
    | tenant tag => exact congrArg some (h.broadcast body tag)
    | untagged reason =>
      cases b.policy with
      | drop => rfl
      | broadcast => exact congrArg some ((h.record _).broadcast body Tenant.empty)
  · have kept := s.keeps_dispatch b body
    have kept' := s'.keeps_dispatch b body
    refine ⟨?_, ?_, ?_, ?_, fun i => ?_⟩
    · rw [kept.tuning, kept'.tuning, h.tuning]
    · rw [kept.now, kept'.now, h.now]
    · exact (s'.bridges_handle b [body]).trans (h.bridges.trans (s.bridges_handle b [body]).symm)
    · exact (s'.status_handle b [body]).trans (h.status.trans (s.status_handle b [body]).symm)
    · rw [connections_dispatch, connections_dispatch, List.getElem?_map, List.getElem?_map, h.tuning]
      obtain ⟨hn, hn'⟩ | ⟨c, c', hc, hc', alike⟩ := h.cases i
      · rw [hn, hn']
        exact .none
      · rw [hc, hc']
        exact .some (alike.ignore (Connection.ignores_hand s.tuning b body))

theorem reportsOf (h : Mirrors pinged s s') (b : Bridge) (bodies : List Octets) :
    s'.reportsOf b bodies = s.reportsOf b bodies := by
  induction bodies generalizing s s' with
  | nil => rfl
  | cons body rest ih =>
    obtain ⟨report, next⟩ := h.dispatch b body
    rw [Service.reportsOf, Service.reportsOf, report, ih next]

theorem reportsAt (h : Mirrors pinged s s') (m : Move) : s'.reportsAt m = s.reportsAt m := by
  cases m with
  | broadcast body tag => exact congrArg (fun report => [report]) (h.broadcast body tag)
  | hand b body => exact congrArg Option.toList (h.dispatch b body).1
  | play b broker => exact h.reportsOf b _
  | turn task =>
    cases task with
    | bridge j =>
      simp only [Service.reportsAt, h.bridges]
      cases s.bridges[j]? with
      | none => rfl
      | some r => exact h.reportsOf r.bridge r.handed
    | _ => rfl
  | _ => rfl

/-- Who is in the registry. -/
theorem registry (h : Mirrors pinged s s') :
    s'.registry.map Connection.bearer = s.registry.map Connection.bearer := by
  have registered := h.numbers (p := Connection.registered) fun _ _ _ => rfl
  rw [map_registry, map_registry, registered]
  refine List.filterMap_congr fun i _ => ?_
  obtain ⟨hn, hn'⟩ | ⟨c, c', hc, hc', alike⟩ := h.cases i
  · rw [hn, hn']
  · obtain ⟨-, -⟩ := alike
    rw [hc, hc']
    rfl

/-! ### What is on top -/

/-- One connection looks different, the others do not. -/
theorem modify (h : Mirrors pinged s s') {u : Service} {i : Nat} {f : Connection → Connection}
    (kept : s'.Keeps u) (runs : u.bridges = s'.bridges ∧ u.status = s'.status)
    (connections : u.connections = s'.connections.modify i f)
    (alike : ∀ c c', s.connections[i]? = some c → Connection.Resembles (pinged i) c c' →
      Connection.Resembles (pinged i) c (f c')) :
    Mirrors pinged s u := by
  refine ⟨kept.tuning.trans h.tuning, kept.now.trans h.now, runs.1.trans h.bridges,
    runs.2.trans h.status, fun j => ?_⟩
  rw [connections, List.getElem?_modify]
  obtain ⟨hn, hn'⟩ | ⟨c, c', hc, hc', before⟩ := h.cases j
  · rw [hn, hn']
    exact .none
  · rw [hc, hc']
    split
    · next hj =>
      subst hj
      exact .some (alike c c' hc before)
    · exact .some before

theorem item (h : Mirrors pinged s s') {i : Nat} {x : Inbound} (harmless : x.isHarmless)
    (ping : ∀ b, x = .ping b → pinged i) : Mirrors pinged s (s'.perform (.receive i x)) :=
  h.modify (i := i) (f := Connection.hear x) ⟨rfl, rfl, rfl⟩ ⟨rfl, rfl⟩ rfl fun _ _ _ before =>
    before.hearFurther harmless ping

theorem turn (h : Mirrors pinged s s') {t : Tuning} (hs : Reached t s) {i : Nat}
    (idle : .reader i ∉ s.ready) : Mirrors pinged s (s'.perform (.turn (.reader i))) := by
  let u : Service := { s' with ready := s'.ready.erase (.reader i) }
  have kept := u.keeps_runReader i
  refine h.modify (i := i) (f := Connection.read) ⟨kept.tuning, kept.now, kept.spawned⟩
    (u.runs_runReader i) (u.connections_runReader i) fun c _ hc before => ?_
  exact before.readFurther (hs.listens hc idle) (hs.warned hc)

end Service.Mirrors

/-! ### Runs -/

/-- The same run with harmless items in it, and with turns of readers that otherwise have nothing before
them. -/
inductive Service.Interjected (pinged : Nat → Bool) : Service → List Move → List Move → Prop where
  | nil (s : Service) : Interjected pinged s [] []
  | move {s : Service} (m : Move) {moves moves' : List Move}
      (rest : Interjected pinged (s.perform m) moves moves') :
      Interjected pinged s (m :: moves) (m :: moves')
  | item {s : Service} (i : Nat) {x : Inbound} (harmless : x.isHarmless)
      (ping : ∀ b, x = .ping b → pinged i) {moves moves' : List Move}
      (rest : Interjected pinged s moves moves') :
      Interjected pinged s moves (.receive i x :: moves')
  | turn {s : Service} (i : Nat) (idle : .reader i ∉ s.ready) {moves moves' : List Move}
      (rest : Interjected pinged s moves moves') :
      Interjected pinged s moves (.turn (.reader i) :: moves')

/-- Nothing is noticed of an item that arrives, nor of a turn of a reader. -/
theorem Service.incidents_receive (s : Service) (j i : Nat) (x : Inbound) :
    s.incidents j (.receive i x) = [] := by
  rw [incidents]
  split
  · rfl
  · rw [acts]
    split <;> rfl

theorem Service.incidents_reader (s : Service) (j i : Nat) :
    s.incidents j (.turn (.reader i)) = [] := by
  rw [incidents]
  split
  · rfl
  · rw [acts]
    split <;> rfl

/-- All that is noticed in the run is noticed in the same order in the run with items on top. -/
theorem Service.Interjected.mirrors {pinged : Nat → Bool} {s s' : Service} {moves moves' : List Move}
    (h : Interjected pinged s moves moves') {t : Tuning} (hs : Reached t s) (hs' : Reached t s')
    (alike : Mirrors pinged s s') (room : s'.Roomy pinged)
    (rooms : s'.Meets (fun s m => (s.perform m).Roomy pinged) moves') :
    Mirrors pinged (s.after moves) (s'.after moves') ∧
      (∀ i, s'.history i moves' = s.history i moves) ∧ s'.reports moves' = s.reports moves := by
  induction h generalizing s' with
  | nil s => exact ⟨alike, fun _ => rfl, rfl⟩
  | move m rest ih =>
    obtain ⟨next, noticed⟩ := alike.perform hs hs' m room rooms.1
    obtain ⟨last, history, reports⟩ := ih (hs.perform m) (hs'.perform m) next rooms.1 rooms.2
    refine ⟨last, fun i => ?_, ?_⟩
    · rw [Service.history, Service.history, noticed, history]
    · rw [Service.reports, Service.reports, alike.reportsAt, reports]
  | item i harmless ping rest ih =>
    obtain ⟨last, history, reports⟩ := ih hs (hs'.perform _) (alike.item harmless ping) rooms.1 rooms.2
    refine ⟨last, fun j => ?_, reports⟩
    rw [Service.history, incidents_receive, List.nil_append, history]
  | turn i idle rest ih =>
    obtain ⟨last, history, reports⟩ := ih hs (hs'.perform _) (alike.turn hs idle) rooms.1 rooms.2
    refine ⟨last, fun j => ?_, reports⟩
    rw [Service.history, incidents_reader, List.nil_append, history]

end Fanout.Live
