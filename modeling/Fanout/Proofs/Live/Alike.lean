import Fanout.Proofs.Live.Bare

/-!
What one connection sees of the service: itself, its own tasks and what the bridges have for its
tenant. Two services may differ in everything else and look alike from there. What happens to the
other connections cannot be seen at all, and what happens to this one does not depend on the rest.
-/

namespace Fanout.Live

/-! ### What a connection sees of tasks and bridges -/

/-- The tasks of one connection, as if it were the only one, and those of the bridges. -/
def Task.place? (i : Nat) : Task → Option Task
  | .writer j => if j = i then some (.writer 0) else none
  | .reader j => if j = i then some (.reader 0) else none
  | .bridge r => some (.bridge r)

theorem Task.place?_bind (i : Nat) (task : Task) :
    (task.place? i).bind (Task.place? 0) = task.place? i := by
  cases task with
  | writer j => by_cases hj : j = i <;> simp [place?, hj]
  | reader j => by_cases hj : j = i <;> simp [place?, hj]
  | bridge r => rfl

theorem Task.eq_of_place? {i : Nat} {a b task : Task} (ha : a.place? i = some task)
    (hb : b.place? i = some task) : a = b := by
  have writer {j : Nat} (h : (Task.writer j).place? i = some task) : j = i ∧ task = .writer 0 := by
    by_cases hj : j = i <;> simp [place?, hj] at h ⊢
    exact h.symm
  have reader {j : Nat} (h : (Task.reader j).place? i = some task) : j = i ∧ task = .reader 0 := by
    by_cases hj : j = i <;> simp [place?, hj] at h ⊢
    exact h.symm
  have bridge {j : Nat} (h : (Task.bridge j).place? i = some task) : task = .bridge j :=
    (Option.some.inj h).symm
  cases a with
  | writer k =>
    obtain ⟨rfl, rfl⟩ := writer ha
    cases b with
    | writer l => rw [(writer hb).1]
    | reader l => cases (reader hb).2
    | bridge l => cases bridge hb
  | reader k =>
    obtain ⟨rfl, rfl⟩ := reader ha
    cases b with
    | writer l => cases (writer hb).2
    | reader l => rw [(reader hb).1]
    | bridge l => cases bridge hb
  | bridge k =>
    obtain rfl := bridge ha
    cases b with
    | writer l => cases (writer hb).2
    | reader l => cases (reader hb).2
    | bridge l => exact (bridge hb).symm ▸ rfl

/-- An event that is not scoped to another tenant. -/
def Octets.concerns (holder : Tenant) (body : Octets) : Bool :=
  match Event.Scope.ofOctets body with
  | .tenant tag => tag.reaches holder
  | .untagged _ => true

def Delivery.concerns (holder : Tenant) : Delivery → Bool
  | .body x => Octets.concerns holder x
  | .failure _ => true

/-- A bridge's run without what it has for other tenants. -/
def BridgeRun.seen (holder : Tenant) (r : BridgeRun) : BridgeRun :=
  { r with
    broker := { r.broker with deliveries := [] },
    pending := r.pending.filter (Delivery.concerns holder),
    calls := [] }

/-- Tasks made ready, those that are not so already. -/
def enlist (ready tasks : List Task) : List Task :=
  tasks.foldl (fun ready t => if t ∈ ready then ready else ready ++ [t]) ready

theorem filterMap_enlist (i : Nat) (ready tasks : List Task) :
    (enlist ready tasks).filterMap (Task.place? i) =
      enlist (ready.filterMap (Task.place? i)) (tasks.filterMap (Task.place? i)) := by
  induction tasks generalizing ready with
  | nil => rfl
  | cons a rest ih =>
    have step : enlist ready (a :: rest) =
        enlist (if a ∈ ready then ready else ready ++ [a]) rest := rfl
    rw [step, ih]
    cases ha : a.place? i with
    | none =>
      rw [List.filterMap_cons_none ha]
      split
      · rfl
      · simp [List.filterMap_append, ha]
    | some task =>
      have there : task ∈ ready.filterMap (Task.place? i) ↔ a ∈ ready := by
        rw [List.mem_filterMap]
        constructor
        · rintro ⟨b, hb, hp⟩
          exact Task.eq_of_place? hp ha ▸ hb
        · exact fun h => ⟨a, h, ha⟩
      rw [List.filterMap_cons_some ha]
      show _ = enlist (if task ∈ _ then _ else _) _
      by_cases h : a ∈ ready
      · simp [h, there.mpr h]
      · simp [h, mt there.mp h, List.filterMap_append, ha]

theorem filterMap_erase {i : Nat} {a task : Task} (ha : a.place? i = some task)
    (ready : List Task) : (ready.erase a).filterMap (Task.place? i) =
      (ready.filterMap (Task.place? i)).erase task := by
  induction ready with
  | nil => rfl
  | cons b rest ih =>
    by_cases hb : b = a
    · subst hb
      simp [List.filterMap_cons_some ha]
    · rw [List.erase_cons_tail (by simpa using hb)]
      cases hp : b.place? i with
      | none => rw [List.filterMap_cons_none hp, List.filterMap_cons_none hp, ih]
      | some other =>
        have hne : other ≠ task := fun h => hb (Task.eq_of_place? (h ▸ hp) ha)
        rw [List.filterMap_cons_some hp, List.filterMap_cons_some hp,
          List.erase_cons_tail (by simpa using hne), ih]

theorem filterMap_erase_none {i : Nat} {a : Task} (ha : a.place? i = none) (ready : List Task) :
    (ready.erase a).filterMap (Task.place? i) = ready.filterMap (Task.place? i) := by
  induction ready with
  | nil => rfl
  | cons b rest ih =>
    by_cases hb : b = a
    · subst hb
      simp [List.filterMap_cons_none ha]
    · rw [List.erase_cons_tail (by simpa using hb)]
      cases hp : b.place? i with
      | none => rw [List.filterMap_cons_none hp, List.filterMap_cons_none hp, ih]
      | some other => rw [List.filterMap_cons_some hp, List.filterMap_cons_some hp, ih]

/-- The service apart from its clock, its status and its log, which no connection sees. -/
def Service.veiled (s : Service) : Service := { s with now := 0, status := .disabled, log := [] }

/-- One connection of a service and one of another see the same: they are alike themselves, and so
are their tasks, the bridges and the tuning. -/
structure Alike (h : Tenant) (i : Nat) (s : Service) (j : Nat) (u : Service) : Prop where
  tuning : s.tuning = u.tuning
  connection : s.connections[i]?.map Connection.bare = u.connections[j]?.map Connection.bare
  holder : ∀ c, s.connections[i]? = some c → c.bearer.tenant = h
  bridges : s.bridges.map (BridgeRun.seen h) = u.bridges.map (BridgeRun.seen h)
  ready : s.ready.filterMap (Task.place? i) = u.ready.filterMap (Task.place? j)

namespace Alike

variable {h : Tenant} {i j : Nat} {s s' u u' : Service}

theorem symm (hs : Alike h i s j u) : Alike h j u i s where
  tuning := hs.tuning.symm
  connection := hs.connection.symm
  holder := by
    intro d hd
    have same := hs.connection
    rw [hd] at same
    obtain ⟨c, hc, hb⟩ := Option.map_eq_some_iff.mp same
    have bearer : c.bare.bearer = d.bare.bearer := by rw [hb]
    exact (congrArg Bearer.tenant bearer).symm.trans (hs.holder c hc)
  bridges := hs.bridges.symm
  ready := hs.ready.symm

/-- A connection has its like. -/
theorem of_some (hs : Alike h i s j u) {c : Connection} (hc : s.connections[i]? = some c) :
    ∃ d, u.connections[j]? = some d ∧ c.bare = d.bare := by
  have same := hs.connection
  rw [hc] at same
  obtain ⟨d, hd, hb⟩ := Option.map_eq_some_iff.mp same.symm
  exact ⟨d, hd, hb.symm⟩

theorem of_none (hs : Alike h i s j u) (hc : s.connections[i]? = none) :
    u.connections[j]? = none := by
  have same := hs.connection
  rw [hc] at same
  exact Option.map_eq_none_iff.mp same.symm

/-- What cannot be seen on one side. -/
theorem aside (hs : Alike h i s j u) (ht : s'.tuning = s.tuning)
    (hc : s'.connections[i]? = s.connections[i]?)
    (hb : s'.bridges.map (BridgeRun.seen h) = s.bridges.map (BridgeRun.seen h))
    (hr : s'.ready.filterMap (Task.place? i) = s.ready.filterMap (Task.place? i)) :
    Alike h i s' j u :=
  ⟨ht.trans hs.tuning, hc ▸ hs.connection, hc ▸ hs.holder, hb.trans hs.bridges, hr.trans hs.ready⟩

/-- The same acts on both sides, and the same tasks made ready. -/
theorem both (hs : Alike h i s j u) {l : Connection → List Act} {a b : List Task}
    (ht : s'.tuning = s.tuning) (ht' : u'.tuning = u.tuning)
    (hl : ∀ c, l c.bare = l c)
    (hc : s'.connections[i]? = s.connections[i]?.map fun c => c.acts s.tuning (l c))
    (hc' : u'.connections[j]? = u.connections[j]?.map fun c => c.acts u.tuning (l c))
    (hb : s'.bridges.map (BridgeRun.seen h) = u'.bridges.map (BridgeRun.seen h))
    (hr : s'.ready = enlist s.ready a) (hr' : u'.ready = enlist u.ready b)
    (hab : a.filterMap (Task.place? i) = b.filterMap (Task.place? j)) : Alike h i s' j u' where
  tuning := ht.trans (hs.tuning.trans ht'.symm)
  connection := by
    have bare (t : Tuning) : (Connection.bare ∘ fun c => c.acts t (l c)) =
        (fun c => c.acts t (l c)) ∘ Connection.bare := by
      funext c
      simp only [Function.comp_apply, Connection.bare_acts, hl]
    rw [hc, hc', Option.map_map, Option.map_map, bare, bare, ← Option.map_map, ← Option.map_map,
      hs.connection, hs.tuning]
  holder := by
    intro d hd
    rw [hc] at hd
    obtain ⟨c, hc, rfl⟩ := Option.map_eq_some_iff.mp hd
    rw [Connection.bearer_acts]
    exact hs.holder c hc
  bridges := hb
  ready := by rw [hr, hr', filterMap_enlist, filterMap_enlist, hs.ready, hab]

end Alike

/-! ### Operations on one connection -/

/-- What an operation on the connection of one number does: acts on it, and tasks of it made
ready. -/
structure Befalls (k : Nat) (l : Connection → List Act)
    (calls : Option Connection → List (Nat → Task)) (s s' : Service) : Prop where
  tuning : s'.tuning = s.tuning
  bridges : s'.bridges = s.bridges
  connections : s'.connections = s.connections.modify k fun c => c.acts s.tuning (l c)
  ready : s'.ready = enlist s.ready ((calls s.connections[k]?).map (· k))
  own : ∀ o, ∀ x ∈ calls o, x = .writer ∨ x = .reader

namespace Alike

variable {h : Tenant} {i j k : Nat} {s s' u u' : Service} {l : Connection → List Act}
  {calls : Option Connection → List (Nat → Task)}

theorem place_own {tasks : List (Nat → Task)} (ho : ∀ x ∈ tasks, x = .writer ∨ x = .reader)
    (i : Nat) : (tasks.map (· i)).filterMap (Task.place? i) = tasks.map (· 0) := by
  induction tasks with
  | nil => rfl
  | cons x rest ih =>
    have others := ih fun y hy => ho y (List.mem_cons_of_mem x hy)
    rcases ho x List.mem_cons_self with rfl | rfl <;> simp [Task.place?, others]

theorem place_other {tasks : List (Nat → Task)} (ho : ∀ x ∈ tasks, x = .writer ∨ x = .reader)
    (hk : k ≠ i) : (tasks.map (· k)).filterMap (Task.place? i) = [] := by
  rw [List.filterMap_eq_nil_iff]
  intro t ht
  obtain ⟨x, hx, rfl⟩ := List.mem_map.mp ht
  rcases ho x hx with rfl | rfl <;> simp [Task.place?, hk]

/-- The operation on both sides. -/
theorem befall (hs : Alike h i s j u) (hl : Befalls i l calls s s') (hl' : Befalls j l calls u u')
    (hb : ∀ c, l c.bare = l c) (hcalls : ∀ c, calls (some c.bare) = calls (some c)) :
    Alike h i s' j u' := by
  refine hs.both hl.tuning hl'.tuning hb ?_ ?_ ?_ hl.ready hl'.ready ?_
  · simp [hl.connections]
  · simp [hl'.connections]
  · rw [hl.bridges, hl'.bridges, hs.bridges]
  · rw [place_own (hl.own _), place_own (hl'.own _)]
    cases hc : s.connections[i]? with
    | none => rw [hs.of_none hc]
    | some c =>
      obtain ⟨d, hd, hcd⟩ := hs.of_some hc
      rw [hd, ← hcalls c, ← hcalls d, hcd]

/-- The operation on some other connection. -/
theorem elsewhere (hs : Alike h i s j u) (hl : Befalls k l calls s s') (hk : k ≠ i) :
    Alike h i s' j u := by
  refine hs.aside hl.tuning ?_ (by rw [hl.bridges]) ?_
  · simp [hl.connections, hk]
  · rw [hl.ready, filterMap_enlist, place_other (hl.own _) hk]
    rfl

end Alike

namespace Service

variable (s : Service) (k : Nat)

theorem befalls_remove : Befalls k (fun _ => [.remove])
    (fun o => if o.any (·.registered) then [.writer, .reader] else []) s (s.remove k).2 where
  tuning := (s.keeps_remove k).tuning
  bridges := by
    unfold remove
    split
    · split <;> rfl
    · rfl
  connections := s.connections_remove k
  ready := by
    unfold remove
    cases s.connections[k]? with
    | none => rfl
    | some c => cases hr : c.registered <;> simp [hr] <;> rfl
  own := by
    intro o x hx
    split at hx
    · simpa using hx
    · cases hx

theorem befalls_deliver (f : Frame) : Befalls k (fun _ => [.deliver f])
    (fun o => if o.any (·.accepts s.tuning.capacity) then [.writer] else []) s
    (s.deliver k f).2 where
  tuning := (s.keeps_deliver k f).tuning
  bridges := by
    unfold deliver
    split
    · rfl
    · split <;> rfl
  connections := s.connections_deliver k f
  ready := by
    unfold deliver
    cases s.connections[k]? with
    | none => rfl
    | some c =>
      obtain ⟨ha, hd⟩ | ⟨ha, e, hd⟩ := Connection.deliver_cases s.tuning.capacity f c
      · simp [ha, hd]; rfl
      · simp [ha, hd]; rfl
  own := by
    intro o x hx
    split at hx
    · exact .inl (List.mem_singleton.mp hx)
    · cases hx

theorem befalls_runWriter {t : Tuning} {now : Nat} (ht : s.tuning = t) (hn : s.now = now) :
    Befalls k (fun c => List.replicate c.effort (.write now))
      (fun o => if o.any fun c => (c.drive t.writeTimeout now).signalled && ! c.signalled
        then [.reader] else []) s (s.runWriter k) where
  tuning := (s.keeps_runWriter k).tuning
  bridges := by
    unfold runWriter
    split
    · rfl
    · simp only
      split <;> rfl
  connections := by
    rw [connections_runWriter, ht, hn]
    congr 1
    funext c
    exact c.drive_eq_acts t now
  ready := by
    unfold runWriter
    cases s.connections[k]? with
    | none => rfl
    | some c =>
      simp only [Option.any_some, ht, hn]
      split <;> rfl
  own := by
    intro o x hx
    split at hx
    · exact .inr (List.mem_singleton.mp hx)
    · cases hx

theorem befalls_runReader : Befalls k (fun _ => [.read])
    (fun o => if o.any fun c => c.readEnd?.isNone && c.read.readEnd?.isSome then [.writer] else [])
    s (s.runReader k) where
  tuning := (s.keeps_runReader k).tuning
  bridges := by
    unfold runReader
    split
    · rfl
    · simp only
      split <;> rfl
  connections := s.connections_runReader k
  ready := by
    unfold runReader
    cases s.connections[k]? with
    | none => rfl
    | some c => cases hn : c.readEnd? <;> cases he : c.read.readEnd? <;> simp [hn, he] <;> rfl
  own := by
    intro o x hx
    split at hx
    · exact .inl (List.mem_singleton.mp hx)
    · cases hx

/-- Operations that make tasks ready in any case. -/
theorem befalls_modify (f : Connection → Connection) (l : List Act) (tasks : List (Nat → Task))
    (hf : ∀ c, f c = c.acts s.tuning l) (ho : ∀ x ∈ tasks, x = .writer ∨ x = .reader) :
    Befalls k (fun _ => l) (fun _ => tasks) s ((s.modify k f).wake (tasks.map (· k))) where
  tuning := rfl
  bridges := rfl
  connections := congrArg (s.connections.modify k) (funext hf)
  ready := rfl
  own := fun _ => ho

theorem cutOff_eq : s.cutOff k =
    (s.modify k fun c => c.acts s.tuning [.cut, .receive .error]).wake [.reader k, .writer k] := by
  unfold cutOff receive modify
  simp only [List.modify_modify_eq]
  rfl

end Service

/-! ### Events -/

theorem place_numbers {x : Nat → Task} (hx : x = .writer ∨ x = .reader) (i : Nat) {l : List Nat}
    (hl : l.Nodup) :
    (l.map x).filterMap (Task.place? i) = if i ∈ l then [x 0] else [] := by
  induction l with
  | nil => rfl
  | cons a rest ih =>
    obtain ⟨hn, hr⟩ := List.nodup_cons.mp hl
    have others := ih hr
    by_cases ha : a = i
    · subst ha
      have here : (x a).place? a = some (x 0) := by rcases hx with rfl | rfl <;> simp [Task.place?]
      rw [List.map_cons, List.filterMap_cons_some here, others]
      simp [hn]
    · have there : (x a).place? i = none := by
        rcases hx with rfl | rfl <;> simp [Task.place?, ha]
      rw [List.map_cons, List.filterMap_cons_none there, others]
      simp [Ne.symm ha]

theorem Service.nodup_numbers (s : Service) (p : Connection → Bool) : (s.numbers p).Nodup := by
  have all : (s.connections.zipIdx.map Prod.snd).Nodup := by
    rw [List.zipIdx_map_snd]
    exact List.nodup_range'
  exact all.sublist (List.filter_sublist.map Prod.snd)

namespace Alike

variable {h : Tenant} {i j : Nat} {s s' s'' u u' : Service}

theorem refl (hh : ∀ c, s.connections[i]? = some c → c.bearer.tenant = h) : Alike h i s i s :=
  ⟨rfl, rfl, hh, rfl, rfl⟩

theorem trans {k : Nat} (hs : Alike h i s j u) (hu : Alike h j u k u') : Alike h i s k u' :=
  ⟨hs.tuning.trans hu.tuning, hs.connection.trans hu.connection, hs.holder,
    hs.bridges.trans hu.bridges, hs.ready.trans hu.ready⟩

/-- Only what cannot be seen has changed. -/
theorem veiled (hs : Alike h i s j u) (hs' : s'.veiled = s.veiled) (hu' : u'.veiled = u.veiled) :
    Alike h i s' j u' := by
  have one {i j : Nat} {s s' u : Service} (hs : Alike h i s j u) (same : s'.veiled = s.veiled) :
      Alike h i s' j u := by
    have tuning : s'.tuning = s.tuning := (congrArg Service.tuning same :)
    have connections : s'.connections = s.connections := (congrArg Service.connections same :)
    have bridges : s'.bridges = s.bridges := (congrArg Service.bridges same :)
    have ready : s'.ready = s.ready := (congrArg Service.ready same :)
    exact hs.aside tuning (by rw [connections]) (by rw [bridges]) (by rw [ready])
  exact (one (one hs hs').symm hu').symm

theorem wake (hs : Alike h i s j u) {a b : List Task}
    (hab : a.filterMap (Task.place? i) = b.filterMap (Task.place? j)) :
    Alike h i (s.wake a) j (u.wake b) where
  tuning := hs.tuning
  connection := hs.connection
  holder := hs.holder
  bridges := hs.bridges
  ready := by
    show (enlist s.ready a).filterMap _ = (enlist u.ready b).filterMap _
    rw [filterMap_enlist, filterMap_enlist, hs.ready, hab]

theorem mem_numbers_iff (hs : Alike h i s j u) {p : Connection → Bool}
    (hp : ∀ c, p c.bare = p c) : i ∈ s.numbers p ↔ j ∈ u.numbers p := by
  rw [Service.mem_numbers, Service.mem_numbers]
  constructor
  · rintro ⟨c, hc, h⟩
    obtain ⟨d, hd, hb⟩ := hs.of_some hc
    exact ⟨d, hd, by rw [← hp d, ← hb, hp c]; exact h⟩
  · rintro ⟨d, hd, h⟩
    obtain ⟨c, hc, hb⟩ := hs.symm.of_some hd
    exact ⟨c, hc, by rw [← hp c, ← hb, hp d]; exact h⟩

theorem broadcast (hs : Alike h i s j u) (body : Octets) (tag : Tenant) :
    Alike h i (s.broadcast body tag).2 j (u.broadcast body tag).2 := by
  have targets := hs.mem_numbers_iff (p := (·.isTarget tag)) fun _ => rfl
  have evicted := hs.mem_numbers_iff
    (p := fun c => c.isTarget tag && ! c.accepts s.tuning.capacity) fun _ => rfl
  refine hs.both (l := fun _ => [.broadcast body tag]) rfl rfl (fun _ => rfl) ?_ ?_ hs.bridges
    rfl rfl ?_
  · rw [Service.connections_broadcast, List.getElem?_map]
    rfl
  · rw [Service.connections_broadcast, List.getElem?_map]
    rfl
  · simp only [List.filterMap_append]
    rw [place_numbers (.inl rfl) i (s.nodup_numbers _),
      place_numbers (.inr rfl) i (s.nodup_numbers _),
      place_numbers (.inl rfl) j (u.nodup_numbers _),
      place_numbers (.inr rfl) j (u.nodup_numbers _), ← hs.tuning]
    simp only [targets, evicted]

/-- An event under another tenant's tag. -/
theorem broadcast_other (hs : Alike h i s j u) (body : Octets) {tag : Tenant}
    (ht : tag.reaches h = false) : Alike h i (s.broadcast body tag).2 j u := by
  have spared (c : Connection) (hc : s.connections[i]? = some c) : c.isTarget tag = false := by
    simp [Connection.isTarget, hs.holder c hc, ht]
  have absent (p : Connection → Bool) : i ∉ s.numbers fun c => c.isTarget tag && p c := by
    rw [Service.mem_numbers]
    rintro ⟨c, hc, hp⟩
    simp [spared c hc] at hp
  refine hs.aside rfl ?_ rfl ?_
  · rw [Service.connections_broadcast, List.getElem?_map]
    cases hc : s.connections[i]? with
    | none => rfl
    | some c => simp [Connection.offer, spared c hc]
  · show (enlist s.ready _).filterMap _ = _
    have targets := absent fun _ => true
    simp only [Bool.and_true] at targets
    rw [filterMap_enlist, List.filterMap_append,
      place_numbers (.inl rfl) i (s.nodup_numbers _),
      place_numbers (.inr rfl) i (s.nodup_numbers _)]
    simp only [targets, absent, if_false]
    rfl

theorem dispatch (hs : Alike h i s j u) (b : Bridge) (body : Octets) :
    Alike h i (s.dispatch b body).2 j (u.dispatch b body).2 := by
  unfold Service.dispatch
  cases Event.Scope.ofOctets body with
  | tenant tag => exact hs.broadcast body tag
  | untagged reason =>
    have noted : Alike h i
        (s.record { message := Service.untaggedMessage b.policy, reason := reason.name }) j
        (u.record { message := Service.untaggedMessage b.policy, reason := reason.name }) :=
      hs.veiled rfl rfl
    cases hp : b.policy with
    | drop => simpa [hp] using noted
    | broadcast => simpa [hp] using noted.broadcast body Tenant.empty

theorem dispatch_other (hs : Alike h i s j u) (b : Bridge) {body : Octets}
    (hb : Octets.concerns h body = false) : Alike h i (s.dispatch b body).2 j u := by
  unfold Octets.concerns at hb
  unfold Service.dispatch
  cases hsc : Event.Scope.ofOctets body with
  | tenant tag =>
    simp only [hsc] at hb
    exact hs.broadcast_other body hb
  | untagged reason => simp [hsc] at hb

/-- A stream, and the same stream without what it has for other tenants. -/
theorem dispatchAll_filter (hs : Alike h i s j u) (b : Bridge) (l : List Delivery) :
    Alike h i (s.dispatchAll b l).1 j (u.dispatchAll b (l.filter (Delivery.concerns h))).1 ∧
      (s.dispatchAll b l).2.2 = (u.dispatchAll b (l.filter (Delivery.concerns h))).2.2 := by
  induction l generalizing s u with
  | nil => exact ⟨hs, rfl⟩
  | cons d rest ih =>
    cases d with
    | failure e => exact ⟨hs, rfl⟩
    | body x =>
      cases hx : Octets.concerns h x with
      | true =>
        have own : Delivery.concerns h (.body x) = true := hx
        rw [List.filter_cons_of_pos own]
        exact ih (hs.dispatch b x)
      | false =>
        have other : ¬ Delivery.concerns h (.body x) = true := by simp [Delivery.concerns, hx]
        rw [List.filter_cons_of_neg other]
        exact ih (hs.dispatch_other b hx)

theorem dispatchAll (hs : Alike h i s j u) (b : Bridge) {l l' : List Delivery}
    (hl : l.filter (Delivery.concerns h) = l'.filter (Delivery.concerns h)) :
    Alike h i (s.dispatchAll b l).1 j (u.dispatchAll b l').1 ∧
      (s.dispatchAll b l).2.2 = (u.dispatchAll b l').2.2 := by
  obtain ⟨here, fault⟩ := hs.dispatchAll_filter b l
  obtain ⟨there, fault'⟩ := (refl hs.symm.holder).dispatchAll_filter b l'
  rw [hl] at here fault
  exact ⟨here.trans there.symm, fault.trans fault'.symm⟩

end Alike

/-! ### Bridges -/

theorem Broker.perform_seen (broker : Broker) (l : List Delivery) (calls : List BrokerCall) :
    ({ broker with deliveries := l } : Broker).perform calls = broker.perform calls := by
  induction calls with
  | nil => rfl
  | cons call rest ih =>
    have fault : ({ broker with deliveries := l } : Broker).faultOf? call = broker.faultOf? call :=
      rfl
    simp only [Broker.perform, fault, ih]

namespace Alike

variable {h : Tenant} {i j : Nat} {s s' u u' : Service}

/-- The run of a bridge put back, the rest being alike. -/
theorem set (hs : Alike h i s j u) (k : Nat) {r r' : BridgeRun} (hr : r.seen h = r'.seen h)
    (status status' : BridgeStatus) :
    Alike h i { s with bridges := s.bridges.set k r, status := status } j
      { u with bridges := u.bridges.set k r', status := status' } where
  tuning := hs.tuning
  connection := hs.connection
  holder := hs.holder
  bridges := by simp only [List.map_set, hs.bridges, hr]
  ready := hs.ready

theorem runStream (hs : Alike h i s j u) (k : Nat) {r r' : BridgeRun}
    (hr : r.seen h = r'.seen h) : Alike h i (s.runStream k r) j (u.runStream k r') := by
  have bridge : r.bridge = r'.bridge := (congrArg BridgeRun.bridge hr :)
  have feedEnded : r.feedEnded = r'.feedEnded := (congrArg BridgeRun.feedEnded hr :)
  have pending : r.pending.filter (Delivery.concerns h) = r'.pending.filter (Delivery.concerns h) :=
    (congrArg BridgeRun.pending hr :)
  have emptied := congrArg (fun q : BridgeRun => { q with pending := [] }) hr
  have ended := congrArg
    (fun q : BridgeRun => { q with pending := [], finished := true, streamDropped := true }) hr
  obtain ⟨taken, fault⟩ := hs.dispatchAll r.bridge pending
  have there : u.dispatchAll r.bridge r'.pending = u.dispatchAll r'.bridge r'.pending := by
    rw [bridge]
  rw [there] at taken fault
  unfold Service.runStream
  cases hf : (u.dispatchAll r'.bridge r'.pending).2.2 with
  | some e =>
    simp only [fault, hf]
    refine taken.set k ?_ _ _
    exact ended
  | none =>
    simp only [fault, hf]
    by_cases he : r'.feedEnded
    · rw [if_pos (feedEnded.trans he), if_pos he]
      refine taken.set k ?_ _ _
      exact ended
    · rw [if_neg (feedEnded ▸ he), if_neg he]
      refine taken.set k ?_ _ _
      exact emptied

theorem startStream (hs : Alike h i s j u) (k : Nat) {r r' : BridgeRun}
    (hr : r.seen h = r'.seen h) : Alike h i (s.startStream k r) j (u.startStream k r') := by
  have performed : r.broker.perform (r.bridge.setup r.broker) =
      r'.broker.perform (r'.bridge.setup r'.broker) := by
    rw [← Broker.perform_seen r.broker [], ← Broker.perform_seen r'.broker []]
    exact (congrArg (fun q : BridgeRun => q.broker.perform (q.bridge.setup q.broker)) hr :)
  have failed := congrArg (fun q : BridgeRun => { q with started := true, finished := true }) hr
  have started := congrArg (fun q : BridgeRun => { q with started := true }) hr
  unfold Service.startStream
  simp only [performed]
  split
  · refine hs.set k ?_ _ _
    exact failed
  · have running : Alike h i { s with status := .running } j { u with status := .running } :=
      hs.veiled rfl rfl
    exact running.runStream k started

theorem runs (hs : Alike h i s j u) (k : Nat) :
    s.bridges[k]?.map (BridgeRun.seen h) = u.bridges[k]?.map (BridgeRun.seen h) := by
  rw [← List.getElem?_map, ← List.getElem?_map, hs.bridges]

theorem runBridge (hs : Alike h i s j u) (k : Nat) :
    Alike h i (s.runBridge k) j (u.runBridge k) := by
  have runs := hs.runs k
  unfold Service.runBridge
  cases hr : s.bridges[k]? with
  | none =>
    rw [hr] at runs
    rw [Option.map_eq_none_iff.mp runs.symm]
    exact hs
  | some r =>
    rw [hr] at runs
    obtain ⟨r', hr', same⟩ := Option.map_eq_some_iff.mp runs.symm
    have finished : r'.finished = r.finished := (congrArg BridgeRun.finished same :)
    have started : r'.started = r.started := (congrArg BridgeRun.started same :)
    simp only [hr', finished, started]
    split
    · exact hs
    · split
      · exact hs.runStream k same.symm
      · exact hs.startStream k same.symm

theorem add (hs : Alike h i s j u) {r r' : BridgeRun} (hr : r.seen h = r'.seen h) :
    Alike h i { s with bridges := s.bridges ++ [r] } j { u with bridges := u.bridges ++ [r'] } where
  tuning := hs.tuning
  connection := hs.connection
  holder := hs.holder
  bridges := by simp [hs.bridges, hr]
  ready := hs.ready

theorem addBridge (hs : Alike h i s j u) (b : Bridge) (broker : Broker) :
    Alike h i (s.addBridge b broker).2 j
      (u.addBridge b
        { broker with deliveries := broker.deliveries.filter (Delivery.concerns h) }).2 := by
  have length : s.bridges.length = u.bridges.length := by
    simpa using congrArg List.length hs.bridges
  refine Alike.wake (hs.add ?_) ?_
  · simp [BridgeRun.seen]
  · rw [length]
    rfl

theorem feed (hs : Alike h i s j u) (k : Nat) (item : Option Delivery) (last : Bool) :
    Alike h i (s.feed k item last).2 j
      (u.feed k (item.filter (Delivery.concerns h)) last).2 := by
  have runs := hs.runs k
  unfold Service.feed
  cases hr : s.bridges[k]? with
  | none =>
    rw [hr] at runs
    rw [Option.map_eq_none_iff.mp runs.symm]
    exact hs
  | some r =>
    rw [hr] at runs
    obtain ⟨r', hr', same⟩ := Option.map_eq_some_iff.mp runs.symm
    have feedEnded : r'.feedEnded = r.feedEnded := (congrArg BridgeRun.feedEnded same :)
    have dropped : r'.streamDropped = r.streamDropped := (congrArg BridgeRun.streamDropped same :)
    have pending : r'.pending.filter (Delivery.concerns h) =
        r.pending.filter (Delivery.concerns h) := (congrArg BridgeRun.pending same :)
    have fed : (item.filter (Delivery.concerns h)).toList.filter (Delivery.concerns h) =
        item.toList.filter (Delivery.concerns h) := by
      cases item with
      | none => rfl
      | some d => cases hd : Delivery.concerns h d <;> simp [Option.filter, hd]
    rw [hr']
    refine Alike.wake (hs.set k ?_ s.status u.status) rfl
    show ({ r.seen h with
        pending := (if (!r.feedEnded && !r.streamDropped) = true then r.pending ++ item.toList
          else r.pending).filter (Delivery.concerns h),
        feedEnded := r.feedEnded || last } : BridgeRun) =
      { r'.seen h with
        pending := (if (!r'.feedEnded && !r'.streamDropped) = true then r'.pending ++
          (item.filter (Delivery.concerns h)).toList else r'.pending).filter (Delivery.concerns h),
        feedEnded := r'.feedEnded || last }
    rw [feedEnded, dropped, same]
    split
    · rw [List.filter_append, List.filter_append, fed, pending]
    · rw [pending]

theorem playBridge (hs : Alike h i s j u) (b : Bridge) (broker : Broker) :
    Alike h i (s.playBridge b broker).2.2 j
      (u.playBridge b
        { broker with deliveries := broker.deliveries.filter (Delivery.concerns h) }).2.2 := by
  have running : Alike h i { s with status := .running } j { u with status := .running } :=
    hs.veiled rfl rfl
  obtain ⟨played, fault⟩ := running.dispatchAll_filter b broker.deliveries
  have performed := Broker.perform_seen broker (broker.deliveries.filter (Delivery.concerns h))
    (b.setup broker)
  have setup : b.setup { broker with
      deliveries := broker.deliveries.filter (Delivery.concerns h) } = b.setup broker := rfl
  unfold Service.playBridge
  rw [setup, performed]
  cases hf : (broker.perform (b.setup broker)).2 with
  | some e =>
    simp only [hf]
    exact hs.veiled rfl rfl
  | none =>
    simp only [hf]
    cases hu : (Service.dispatchAll { u with status := .running } b
      (broker.deliveries.filter (Delivery.concerns h))).2.2 with
    | some e =>
      simp only [fault, hu]
      exact played.veiled rfl rfl
    | none =>
      simp only [fault, hu]
      exact played.veiled rfl rfl

end Alike

end Fanout.Live
