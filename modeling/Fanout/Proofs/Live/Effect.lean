import Fanout.Proofs.Live.Act

/-!
What the operations of the service do to its connections. An operation either acts on one connection
or acts on all of them alike, and none of them touches the tuning, the clock or a bridge's settings.
-/

namespace Fanout.Live

/-- The bodies in front of the first failure of a stream. -/
def Delivery.bodies : List Delivery → List Octets
  | .body x :: rest => x :: bodies rest
  | _ => []

/-- What a bridge hands over when it is played to the end of a script: nothing if a call of its
setup fails. -/
def Bridge.handed (b : Bridge) (broker : Broker) : List Octets :=
  match (broker.perform (b.setup broker)).2 with
  | some _ => []
  | none => Delivery.bodies broker.deliveries

/-- What a bridge hands over at its next turn. Its first turn begins with the setup. -/
def BridgeRun.handed (r : BridgeRun) : List Octets :=
  if r.finished then []
  else if r.started then Delivery.bodies r.pending
  else
    match (r.broker.perform (r.bridge.setup r.broker)).2 with
    | some _ => []
    | none => Delivery.bodies r.pending

namespace Connection

theorem acts_nil (t : Tuning) (c : Connection) : c.acts t [] = c := rfl

theorem acts_cons (t : Tuning) (c : Connection) (a : Act) (l : List Act) :
    c.acts t (a :: l) = (c.act t a).acts t l := rfl

theorem remove_of_not_registered {c : Connection} (h : c.registered = false) : c.remove = c := by
  simp [remove, h]

end Connection

namespace Service

/-- The bridges that run as tasks, as they were set up. -/
def spawned (s : Service) : List Bridge := s.bridges.map BridgeRun.bridge

/-- The tuning, the clock and the bridges are the same. -/
structure Keeps (s s' : Service) : Prop where
  tuning : s'.tuning = s.tuning
  now : s'.now = s.now
  spawned : s'.spawned = s.spawned

theorem Keeps.refl (s : Service) : s.Keeps s := ⟨rfl, rfl, rfl⟩

theorem Keeps.trans {s s' s'' : Service} (h : s.Keeps s') (h' : s'.Keeps s'') : s.Keeps s'' :=
  ⟨h'.tuning.trans h.tuning, h'.now.trans h.now, h'.spawned.trans h.spawned⟩

theorem mem_numbers {s : Service} {p : Connection → Bool} {i : Nat} :
    i ∈ s.numbers p ↔ ∃ c, s.connections[i]? = some c ∧ p c := by
  simp only [numbers, List.mem_map, List.mem_filter]
  constructor
  · rintro ⟨⟨c, j⟩, ⟨hm, hp⟩, rfl⟩
    exact ⟨c, List.mem_zipIdx_iff_getElem?.mp hm, hp⟩
  · rintro ⟨c, hc, hp⟩
    exact ⟨(c, i), ⟨List.mem_zipIdx_iff_getElem?.mpr hc, hp⟩, rfl⟩

theorem length_numbers (s : Service) (p : Connection → Bool) :
    (s.numbers p).length = s.connections.countP p := by
  calc (s.numbers p).length
    _ = s.connections.zipIdx.countP (p ∘ Prod.fst) := by
      rw [numbers, List.length_map, List.countP_eq_length_filter]
      rfl
    _ = s.connections.countP p := by rw [← List.countP_map, List.zipIdx_map_fst]

variable (s : Service)

@[simp] theorem connections_wake (tasks : List Task) :
    (s.wake tasks).connections = s.connections := rfl

@[simp] theorem connections_record (r : LogRecord) :
    (s.record r).connections = s.connections := rfl

@[simp] theorem connections_modify (i : Nat) (f : Connection → Connection) :
    (s.modify i f).connections = s.connections.modify i f := rfl

/-- Writing back what a function made of one connection is modifying it. -/
theorem set_eq_modify {i : Nat} {c : Connection} (h : s.connections[i]? = some c)
    (f : Connection → Connection) : s.connections.set i (f c) = s.connections.modify i f := by
  apply List.ext_getElem?
  intro j
  by_cases hj : i = j
  · subst hj
    have hi : i < s.connections.length := (List.getElem?_eq_some_iff.mp h).1
    simp [List.getElem?_set_self hi, h]
  · simp [List.getElem?_set_ne hj, hj]

theorem set_eq_self {i : Nat} {c : Connection} (h : s.connections[i]? = some c) :
    s.connections.set i c = s.connections := by
  simpa using s.set_eq_modify h id

theorem modify_eq_self {i : Nat} (h : s.connections[i]? = none) (f : Connection → Connection) :
    s.connections.modify i f = s.connections :=
  List.modify_eq_self (List.getElem?_eq_none_iff.mp h)

/-! ### Operations on one connection -/

theorem connections_remove (i : Nat) :
    (s.remove i).2.connections = s.connections.modify i Connection.remove := by
  unfold remove
  cases h : s.connections[i]? with
  | none => exact (s.modify_eq_self h _).symm
  | some c =>
    cases hr : c.registered with
    | true => simp [hr]
    | false =>
      have hc : s.connections.set i c.remove = s.connections := by
        rw [Connection.remove_of_not_registered hr]
        exact s.set_eq_self h
      simpa [hr, hc] using s.set_eq_modify h Connection.remove

theorem keeps_remove (i : Nat) : s.Keeps (s.remove i).2 := by
  unfold remove
  split
  · split <;> exact ⟨rfl, rfl, rfl⟩
  · exact ⟨rfl, rfl, rfl⟩

theorem connections_deliver (i : Nat) (f : Frame) :
    (s.deliver i f).2.connections = s.connections.modify i (Connection.enqueue s.tuning f) := by
  unfold deliver
  cases h : s.connections[i]? with
  | none => exact (s.modify_eq_self h _).symm
  | some c =>
    rw [← s.set_eq_modify h, Connection.enqueue]
    cases hd : c.deliver s.tuning.capacity f with
    | ok c' => simp [hd]
    | error e => simpa [hd] using (s.set_eq_self h).symm

theorem keeps_deliver (i : Nat) (f : Frame) : s.Keeps (s.deliver i f).2 := by
  unfold deliver
  split
  · exact ⟨rfl, rfl, rfl⟩
  · split <;> exact ⟨rfl, rfl, rfl⟩

theorem connections_runWriter (i : Nat) :
    (s.runWriter i).connections =
      s.connections.modify i (Connection.drive s.tuning.writeTimeout s.now) := by
  unfold runWriter
  cases h : s.connections[i]? with
  | none => exact (s.modify_eq_self h _).symm
  | some c =>
    rw [← s.set_eq_modify h]
    simp only
    split <;> rfl

theorem keeps_runWriter (i : Nat) : s.Keeps (s.runWriter i) := by
  unfold runWriter
  split
  · exact ⟨rfl, rfl, rfl⟩
  · simp only
    split <;> exact ⟨rfl, rfl, rfl⟩

theorem connections_runReader (i : Nat) :
    (s.runReader i).connections = s.connections.modify i Connection.read := by
  unfold runReader
  cases h : s.connections[i]? with
  | none => exact (s.modify_eq_self h _).symm
  | some c =>
    rw [← s.set_eq_modify h]
    simp only
    split <;> rfl

theorem keeps_runReader (i : Nat) : s.Keeps (s.runReader i) := by
  unfold runReader
  split
  · exact ⟨rfl, rfl, rfl⟩
  · simp only
    split <;> exact ⟨rfl, rfl, rfl⟩

/-! ### Operations on all connections -/

theorem connections_broadcast (body : Octets) (tag : Tenant) :
    (s.broadcast body tag).2.connections = s.connections.map (Connection.offer s.tuning body tag) :=
  rfl

theorem connections_dispatch (b : Bridge) (body : Octets) :
    (s.dispatch b body).2.connections = s.connections.map (Connection.hand s.tuning b body) := by
  unfold dispatch Connection.hand Bridge.audience?
  cases Event.Scope.ofOctets body with
  | tenant tag => rfl
  | untagged reason =>
    cases b.policy with
    | broadcast => rfl
    | drop => simp

theorem keeps_dispatch (b : Bridge) (body : Octets) : s.Keeps (s.dispatch b body).2 := by
  unfold dispatch
  cases Event.Scope.ofOctets body with
  | tenant tag => exact ⟨rfl, rfl, rfl⟩
  | untagged reason => cases b.policy <;> exact ⟨rfl, rfl, rfl⟩

/-- A stream is handed over up to its first failure, one body after another. -/
theorem dispatchAll_spec (b : Bridge) (l : List Delivery) :
    s.Keeps (s.dispatchAll b l).1 ∧
      (s.dispatchAll b l).1.connections = s.connections.map fun c =>
        c.acts s.tuning ((Delivery.bodies l).map (.hand b)) := by
  induction l generalizing s with
  | nil => exact ⟨.refl s, by simp [dispatchAll, Delivery.bodies, Connection.acts_nil]⟩
  | cons d rest ih =>
    cases d with
    | failure e => exact ⟨.refl s, by simp [dispatchAll, Delivery.bodies, Connection.acts_nil]⟩
    | body x =>
      have hx := s.keeps_dispatch b x
      obtain ⟨hk, hc⟩ := ih (s.dispatch b x).2
      rw [hx.tuning, connections_dispatch, List.map_map] at hc
      exact ⟨hx.trans hk, hc⟩

/-- A bridge run that goes on keeps its bridge. -/
theorem spawned_set {i : Nat} {b : Bridge} (h : s.spawned[i]? = some b) {r : BridgeRun}
    (hr : r.bridge = b) : (s.bridges.set i r).map BridgeRun.bridge = s.spawned := by
  rw [List.map_set, hr]
  apply List.ext_getElem?
  intro j
  by_cases hj : i = j
  · subst hj
    have hi : i < s.spawned.length := (List.getElem?_eq_some_iff.mp h).1
    exact (List.getElem?_set_self hi).trans h.symm
  · exact List.getElem?_set_ne hj

theorem runStream_spec {i : Nat} {r : BridgeRun} (h : s.spawned[i]? = some r.bridge) :
    s.Keeps (s.runStream i r) ∧
      (s.runStream i r).connections = s.connections.map fun c =>
        c.acts s.tuning ((Delivery.bodies r.pending).map (.hand r.bridge)) := by
  obtain ⟨hk, hc⟩ := s.dispatchAll_spec r.bridge r.pending
  have spawned (r' : BridgeRun) (hr : r'.bridge = r.bridge) :
      ((s.dispatchAll r.bridge r.pending).1.bridges.set i r').map BridgeRun.bridge = s.spawned :=
    (spawned_set _ (hk.spawned ▸ h) hr).trans hk.spawned
  unfold runStream
  simp only
  split
  · exact ⟨⟨hk.tuning, hk.now, spawned _ rfl⟩, hc⟩
  · split <;> exact ⟨⟨hk.tuning, hk.now, spawned _ rfl⟩, hc⟩

theorem runBridge_spec (i : Nat) :
    s.Keeps (s.runBridge i) ∧
      (s.runBridge i).connections = s.connections.map fun c =>
        c.acts s.tuning <| match s.bridges[i]? with
          | none => []
          | some r => r.handed.map (.hand r.bridge) := by
  unfold runBridge BridgeRun.handed
  cases hr : s.bridges[i]? with
  | none => exact ⟨.refl s, by simp [Connection.acts_nil]⟩
  | some r =>
    have hs : s.spawned[i]? = some r.bridge := by simp [spawned, hr]
    simp only
    split
    · exact ⟨.refl s, by simp [Connection.acts_nil]⟩
    · split
      · exact s.runStream_spec hs
      · unfold startStream
        cases hf : (r.broker.perform (r.bridge.setup r.broker)).2 with
        | some e =>
          simp only [hf, List.map_nil, Connection.acts_nil, List.map_id']
          exact ⟨⟨rfl, rfl, s.spawned_set hs rfl⟩, trivial⟩
        | none =>
          simp only [hf]
          obtain ⟨hk, hc⟩ := runStream_spec { s with status := .running } (i := i)
            (r := { r with
              started := true,
              calls := r.calls ++ (r.broker.perform (r.bridge.setup r.broker)).1.map fun c =>
                (c, BridgeStatus.starting) }) hs
          exact ⟨⟨hk.tuning, hk.now, hk.spawned⟩, hc⟩

theorem playBridge_spec (b : Bridge) (broker : Broker) :
    s.Keeps (s.playBridge b broker).2.2 ∧
      (s.playBridge b broker).2.2.connections = s.connections.map fun c =>
        c.acts s.tuning ((b.handed broker).map (.hand b)) := by
  unfold playBridge Bridge.handed
  cases hf : (broker.perform (b.setup broker)).2 with
  | some e =>
    simp only [hf, List.map_nil, Connection.acts_nil, List.map_id']
    exact ⟨⟨rfl, rfl, rfl⟩, trivial⟩
  | none =>
    obtain ⟨hk, hc⟩ := dispatchAll_spec { s with status := .running } b broker.deliveries
    simp only [hf]
    split <;> exact ⟨⟨hk.tuning, hk.now, hk.spawned⟩, hc⟩

theorem feed_spec (i : Nat) (item : Option Delivery) (last : Bool) :
    s.Keeps (s.feed i item last).2 ∧ (s.feed i item last).2.connections = s.connections := by
  unfold feed
  cases hr : s.bridges[i]? with
  | none => exact ⟨.refl s, rfl⟩
  | some r => exact ⟨⟨rfl, rfl, s.spawned_set (by simp [spawned, hr]) rfl⟩, rfl⟩

/-! ### What broadcasts carry over -/

/-- Every broadcast stands in such a relation, and so does what leaves the connections and the ready
tasks as they are. Then whatever a bridge does stands in it, since it only broadcasts. -/
structure Spreading (R : Service → Service → Prop) : Prop where
  still : ∀ {s s' : Service}, s'.connections = s.connections → s'.ready = s.ready → R s s'
  trans : ∀ {s s' s'' : Service}, R s s' → R s' s'' → R s s''
  broadcast : ∀ (s : Service) body tag, R s (s.broadcast body tag).2

namespace Spreading

variable {R : Service → Service → Prop} (hR : Spreading R) (s : Service)
include hR

theorem dispatch (b : Bridge) (body : Octets) : R s (s.dispatch b body).2 := by
  unfold Service.dispatch
  cases Event.Scope.ofOctets body with
  | tenant tag => exact hR.broadcast s body tag
  | untagged reason =>
    have noted : R s (s.record { message := untaggedMessage b.policy, reason := reason.name }) :=
      hR.still rfl rfl
    cases hp : b.policy with
    | drop => simpa [hp] using noted
    | broadcast => simpa [hp] using hR.trans noted (hR.broadcast _ body Tenant.empty)

theorem dispatchAll (b : Bridge) (l : List Delivery) : R s (s.dispatchAll b l).1 := by
  induction l generalizing s with
  | nil => exact hR.still rfl rfl
  | cons d rest ih =>
    cases d with
    | failure e => exact hR.still rfl rfl
    | body x => exact hR.trans (hR.dispatch s b x) (ih _)

theorem runStream (i : Nat) (r : BridgeRun) : R s (s.runStream i r) := by
  have taken := hR.dispatchAll s r.bridge r.pending
  unfold Service.runStream
  simp only
  split
  · exact hR.trans taken (hR.still rfl rfl)
  · split <;> exact hR.trans taken (hR.still rfl rfl)

theorem runBridge (i : Nat) : R s (s.runBridge i) := by
  unfold Service.runBridge
  split
  · exact hR.still rfl rfl
  · next r _ =>
    split
    · exact hR.still rfl rfl
    · split
      · exact hR.runStream s i r
      · unfold startStream
        simp only
        split
        · exact hR.still rfl rfl
        · have started : R s { s with status := .running } := hR.still rfl rfl
          exact hR.trans started (hR.runStream _ i _)

theorem playBridge (b : Bridge) (broker : Broker) : R s (s.playBridge b broker).2.2 := by
  have started : R s { s with status := .running } := hR.still rfl rfl
  have played := hR.trans started (hR.dispatchAll _ b broker.deliveries)
  unfold Service.playBridge
  simp only
  split
  · exact hR.still rfl rfl
  · split <;> exact hR.trans played (hR.still rfl rfl)

end Spreading

end Service

end Fanout.Live
