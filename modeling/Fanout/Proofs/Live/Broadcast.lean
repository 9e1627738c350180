import Mathlib.Data.List.Basic
import Fanout.Proofs.Live.Agreement
import Fanout.Proofs.Live.Alike
import Fanout.Proofs.Live.Capacity
import Fanout.Proofs.Live.Failure
import Fanout.Proofs.Live.Settling

/-!
The effect of one broadcast. The connections that a body is meant for either have room for it, and then
it stands last in their queues, or they are taken off the registry; nothing else happens to anybody. It
makes no difference in which order the connections are gone through: the body may be handed to one
after another, and those that did not take it be removed afterwards.
-/

namespace Fanout.Live

namespace Connection

theorem enqueue_eq (t : Tuning) (f : Frame) (c : Connection) :
    c.enqueue t f = if c.accepts t.capacity then { c with queue := c.queue ++ [f] } else c := by
  obtain ⟨ha, hd⟩ | ⟨ha, e, hd⟩ := deliver_cases t.capacity f c <;> simp [enqueue, ha, hd]

/-- Whoever a body is meant for either takes it or is removed. -/
theorem offer_eq (t : Tuning) (body : Octets) (tag : Tenant) (c : Connection) :
    c.offer t body tag =
      if c.isTarget tag then
        if c.accepts t.capacity then { c with queue := c.queue ++ [Frame.ofBody body] } else c.remove
      else c := by
  obtain ⟨ha, hd⟩ | ⟨ha, e, hd⟩ := deliver_cases t.capacity (Frame.ofBody body) c <;>
    simp [offer, receive, ha, hd]

end Connection

/-! ### Small changes of the service -/

namespace Service

/-- Connections change in their places, some tasks are woken, and that is all. -/
structure Adjusts (f : Nat → Connection → Connection) (woken : List Task) (s s' : Service) :
    Prop where
  same : s' = { s with connections := s.connections.mapIdx f, ready := s'.ready }
  called : ∃ called, s'.ready = s.ready ++ called ∧ called.Nodup ∧
    ∀ task, task ∈ called ↔ task ∉ s.ready ∧ task ∈ woken

namespace Adjusts

variable {f g : Nat → Connection → Connection} {woken others : List Task} {s s' s'' : Service}

theorem connections (h : Adjusts f woken s s') : s'.connections = s.connections.mapIdx f := by
  rw [h.same]

theorem tuning (h : Adjusts f woken s s') : s'.tuning = s.tuning := by
  rw [h.same]

theorem getElem? (h : Adjusts f woken s s') (i : Nat) :
    s'.connections[i]? = s.connections[i]?.map (f i) := by
  rw [h.connections, List.getElem?_mapIdx]

/-- Connections change, and their tasks are woken. -/
theorem wake (f : Nat → Connection → Connection) (s : Service) (tasks : List Task) :
    Adjusts f tasks s ({ s with connections := s.connections.mapIdx f }.wake tasks) where
  same := rfl
  called := by
    obtain ⟨called, hr, nodup, new⟩ :=
      ready_wake { s with connections := s.connections.mapIdx f } tasks
    refine ⟨called, hr, nodup, fun task => ⟨new task, ?_⟩⟩
    rintro ⟨asleep, named⟩
    have awake : task ∈ s.ready ++ called := hr ▸ mem_ready_wake.mpr (.inr named)
    exact (List.mem_append.mp awake).resolve_left asleep

theorem refl (s : Service) : Adjusts (fun _ c => c) [] s s where
  same := by
    have still : s.connections.mapIdx (fun _ c => c) = s.connections := by
      apply List.ext_getElem?
      intro i
      rw [List.getElem?_mapIdx, Option.map_id']
    rw [still]
  called := ⟨[], by simp⟩

theorem trans (h : Adjusts f woken s s') (h' : Adjusts g others s' s'') :
    Adjusts (fun i c => g i (f i c)) (woken ++ others) s s'' where
  same := by
    rw [h'.same, h.same]
    simp [Function.comp_def]
  called := by
    obtain ⟨first, hf, nodup, new⟩ := h.called
    obtain ⟨second, hs, nodup', new'⟩ := h'.called
    refine ⟨first ++ second, by rw [hs, hf, List.append_assoc], ?_, ?_⟩
    · refine List.nodup_append.mpr ⟨nodup, nodup', ?_⟩
      rintro task ht _ ht' rfl
      have asleep := ((new' task).mp ht').1
      rw [hf] at asleep
      exact asleep (List.mem_append_right _ ht)
    · intro task
      rw [List.mem_append, List.mem_append, new', hf, List.mem_append, new]
      tauto

theorem congr (h : Adjusts f woken s s')
    (hc : ∀ i c, s.connections[i]? = some c → f i c = g i c)
    (ht : ∀ task, task ∈ woken ↔ task ∈ others) : Adjusts g others s s' where
  same := by
    have connections : s.connections.mapIdx f = s.connections.mapIdx g := by
      apply List.ext_getElem?
      intro i
      rw [List.getElem?_mapIdx, List.getElem?_mapIdx]
      cases hi : s.connections[i]? with
      | none => rfl
      | some c => exact congrArg some (hc i c hi)
    rw [← connections]
    exact h.same
  called := by
    obtain ⟨called, hr, nodup, new⟩ := h.called
    refine ⟨called, hr, nodup, fun task => ?_⟩
    rw [new, ht]

/-- The same changes end in the same state, but that the tasks that are woken may stand in another
order. -/
theorem unique (h : Adjusts f woken s s') (h' : Adjusts f woken s s'') :
    s'' = { s' with ready := s''.ready } ∧ s''.ready.Perm s'.ready := by
  constructor
  · rw [h'.same, h.same]
  · obtain ⟨first, hf, nodup, new⟩ := h.called
    obtain ⟨second, hs, nodup', new'⟩ := h'.called
    rw [hf, hs]
    apply List.Perm.append_left
    apply (List.perm_ext_iff_of_nodup nodup' nodup).mpr
    intro task
    rw [new', new]

end Adjusts

/-! ### One connection after another -/

/-- Whether the connection of a number has a property. -/
def has (s : Service) (p : Connection → Bool) (i : Nat) : Bool := s.connections[i]?.any p

/-- A frame handed to connections one after another: how many took it, and which ones did not. -/
def deliverEach (f : Frame) : List Nat → Service → Nat × List Nat × Service
  | [], s => (0, [], s)
  | i :: rest, s =>
    let (outcome, s) := s.deliver i f
    let (queued, refused, s) := deliverEach f rest s
    match outcome with
    | .ok _ => (queued + 1, refused, s)
    | .error _ => (queued, i :: refused, s)

/-- Connections removed one after another, and how many were there. -/
def removeEach : List Nat → Service → Nat × Service
  | [], s => (0, s)
  | i :: rest, s =>
    let (done, s) := s.remove i
    let (evicted, s) := removeEach rest s
    (if done then evicted + 1 else evicted, s)

/-- A body handed to connections in a given order, and then those removed that did not take it. -/
def broadcastAlong (s : Service) (body : Octets) (order : List Nat) : Report × Service :=
  let (queued, refused, s) := deliverEach (Frame.ofBody body) order s
  let (evicted, s) := removeEach refused s
  (⟨order.length, queued, evicted⟩, s)

variable {s s' : Service} {p q : Connection → Bool} {g : Connection → Connection}
  {tasks : Nat → List Task} {i j : Nat} {order : List Nat}

theorem has_of_getElem? {c : Connection} (hc : s.connections[i]? = some c) : s.has p i = p c := by
  rw [has, hc, Option.any_some]

/-- One connection changed and its tasks woken, if it has a property. -/
def touch (s : Service) (p : Connection → Bool) (g : Connection → Connection)
    (tasks : Nat → List Task) (i : Nat) : Service :=
  if s.has p i then (s.modify i g).wake (tasks i) else s

/-- The change of those that are listed and have a property. -/
def among (order : List Nat) (p : Connection → Bool) (g : Connection → Connection) (i : Nat)
    (c : Connection) : Connection :=
  if i ∈ order ∧ p c then g c else c

/-- Touching one connection makes no difference to the others. -/
theorem has_touch (fresh : i ∉ order) (hj : j ∈ order) :
    (s.touch p g tasks i).has q j = s.has q j := by
  have other : i ≠ j := by
    rintro rfl
    exact fresh hj
  rw [touch]
  split
  · simp [has, other]
  · rfl

theorem filter_has_touch (fresh : i ∉ order) :
    order.filter ((s.touch p g tasks i).has q) = order.filter (s.has q) :=
  List.filter_congr fun _ hj => has_touch fresh hj

theorem countP_has_touch (fresh : i ∉ order) :
    order.countP ((s.touch p g tasks i).has q) = order.countP (s.has q) :=
  List.countP_congr fun _ hj => by rw [has_touch fresh hj]

theorem adjusts_touch (s : Service) (p : Connection → Bool) (g : Connection → Connection)
    (tasks : Nat → List Task) (i : Nat) :
    Adjusts (among [i] p g) (([i].filter (s.has p)).flatMap tasks) s (s.touch p g tasks i) := by
  rw [touch]
  split
  · next held =>
    have connections : s.connections.modify i g = s.connections.mapIdx (among [i] p g) := by
      apply List.ext_getElem?
      intro j
      rw [List.getElem?_modify, List.getElem?_mapIdx]
      cases hj : s.connections[j]? with
      | none => simp
      | some c =>
        by_cases hi : i = j
        · subst hi
          rw [has_of_getElem? hj] at held
          simp [among, held]
        · simp [among, hi, Ne.symm hi]
    rw [List.filter_cons_of_pos held, modify, connections]
    simpa using Adjusts.wake (among [i] p g) s (tasks i)
  · next lacks =>
    rw [List.filter_cons_of_neg lacks]
    refine (Adjusts.refl s).congr ?_ (by simp)
    intro j c hc
    by_cases hj : j = i
    · subst hj
      rw [has_of_getElem? hc] at lacks
      simp [among, lacks]
    · simp [among, hj]

/-- Whoever is touched first is not listed again, so the others have the property after it just if
they had it before. -/
theorem Adjusts.cons_touch (fresh : i ∉ order)
    (h : Adjusts (among order p g) ((order.filter ((s.touch p g tasks i).has p)).flatMap tasks)
      (s.touch p g tasks i) s') :
    Adjusts (among (i :: order) p g) (((i :: order).filter (s.has p)).flatMap tasks) s s' := by
  refine ((s.adjusts_touch p g tasks i).trans h).congr ?_ ?_
  · intro j c _
    by_cases hj : j = i
    · subst hj
      simp [among, fresh]
    · simp [among, hj]
  · intro task
    rw [filter_has_touch fresh, ← List.flatMap_append, ← List.filter_append, List.singleton_append]

/-- A frame is handed over if the queue takes it. -/
theorem deliver_eq (s : Service) (i : Nat) (f : Frame) :
    ∃ fault, s.deliver i f =
      (if s.has (·.accepts s.tuning.capacity) i then .ok () else .error fault,
        s.touch (·.accepts s.tuning.capacity) (Connection.enqueue s.tuning f) (fun i => [.writer i])
          i) := by
  cases hc : s.connections[i]? with
  | none => exact ⟨.closed, by simp [deliver, touch, has, hc]⟩
  | some c =>
    obtain ⟨ha, taken⟩ | ⟨ha, fault, refused⟩ :=
      Connection.deliver_cases s.tuning.capacity f c
    · have kept : { c with queue := c.queue ++ [f] } = c.enqueue s.tuning f := by
        rw [Connection.enqueue, taken]
      refine ⟨.closed, ?_⟩
      simp only [deliver, touch, has_of_getElem? hc, hc, ha, taken, if_true, kept]
      rw [s.set_eq_modify hc, modify]
    · exact ⟨fault, by simp [deliver, touch, has_of_getElem? hc, hc, ha, refused]⟩

theorem remove_eq (s : Service) (i : Nat) :
    s.remove i = (s.has (·.registered) i,
      s.touch (·.registered) Connection.remove (fun i => [.writer i, .reader i]) i) := by
  cases hc : s.connections[i]? with
  | none => simp [remove, touch, has, hc]
  | some c => cases hr : c.registered <;> simp [remove, touch, has, hc, hr]

theorem deliverEach_spec (f : Frame) (nodup : order.Nodup) (s : Service) :
    ∃ s', deliverEach f order s =
        (order.countP (s.has (·.accepts s.tuning.capacity)),
          order.filter (fun i => !s.has (·.accepts s.tuning.capacity) i), s') ∧
      Adjusts (among order (·.accepts s.tuning.capacity) (Connection.enqueue s.tuning f))
        ((order.filter (s.has (·.accepts s.tuning.capacity))).flatMap fun i => [.writer i]) s s' := by
  induction order generalizing s with
  | nil =>
    refine ⟨s, rfl, (Adjusts.refl s).congr ?_ (fun _ => .rfl)⟩
    intro i c _
    simp [among]
  | cons i rest ih =>
    obtain ⟨fresh, nodup⟩ := List.nodup_cons.mp nodup
    obtain ⟨fault, here⟩ := s.deliver_eq i f
    obtain ⟨s', there, adjusts⟩ := ih nodup (s.deliver i f).2
    have tuning : (s.deliver i f).2.tuning = s.tuning := (s.keeps_deliver i f).tuning
    rw [tuning] at there adjusts
    rw [here] at there adjusts
    refine ⟨s', ?_, adjusts.cons_touch fresh⟩
    have refused : rest.filter (fun j => !(s.touch (·.accepts s.tuning.capacity)
        (Connection.enqueue s.tuning f) (fun i => [.writer i]) i).has
          (·.accepts s.tuning.capacity) j) =
        rest.filter fun j => !s.has (·.accepts s.tuning.capacity) j :=
      List.filter_congr fun j hj => by rw [has_touch fresh hj]
    rw [countP_has_touch fresh, refused] at there
    simp only [deliverEach, here, there]
    cases held : s.has (·.accepts s.tuning.capacity) i with
    | true => simp [held]
    | false => simp [held]

theorem removeEach_spec (nodup : order.Nodup) (s : Service) :
    ∃ s', removeEach order s = (order.countP (s.has (·.registered)), s') ∧
      Adjusts (among order (·.registered) Connection.remove)
        ((order.filter (s.has (·.registered))).flatMap fun i => [.writer i, .reader i]) s s' := by
  induction order generalizing s with
  | nil =>
    refine ⟨s, rfl, (Adjusts.refl s).congr ?_ (fun _ => .rfl)⟩
    intro i c _
    simp [among]
  | cons i rest ih =>
    obtain ⟨fresh, nodup⟩ := List.nodup_cons.mp nodup
    obtain ⟨s', there, adjusts⟩ := ih nodup (s.remove i).2
    rw [s.remove_eq i] at there adjusts
    refine ⟨s', ?_, adjusts.cons_touch fresh⟩
    rw [countP_has_touch fresh] at there
    simp only [removeEach, s.remove_eq i, there]
    cases held : s.has (·.registered) i <;> simp [held]

/-! ### All orders -/

theorem filter_numbers {r : Nat → Bool}
    (h : ∀ i c, s.connections[i]? = some c → r i = q c) :
    (s.numbers p).filter r = s.numbers fun c => p c && q c := by
  have same : ∀ x ∈ s.connections.zipIdx, r x.2 = q x.1 := by
    rintro ⟨c, i⟩ hx
    exact h i c (List.mem_zipIdx_iff_getElem?.mp hx)
  rw [numbers, numbers, List.filter_map, List.filter_filter]
  apply congrArg (List.map Prod.snd)
  apply List.filter_congr
  intro x hx
  rw [Function.comp_apply, same x hx, Bool.and_comm]

/-- Those that a body is meant for, and those of them that cannot take it. -/
theorem adjusts_broadcast (s : Service) (body : Octets) (tag : Tenant) :
    Adjusts (fun _ => Connection.offer s.tuning body tag)
      ((s.numbers (·.isTarget tag)).map Task.writer ++
        (s.numbers fun c => c.isTarget tag && !c.accepts s.tuning.capacity).map Task.reader)
      s (s.broadcast body tag).2 := by
  have connections : s.connections.map (Connection.offer s.tuning body tag) =
      s.connections.mapIdx fun _ => Connection.offer s.tuning body tag := by
    apply List.ext_getElem?
    intro i
    rw [List.getElem?_map, List.getElem?_mapIdx]
  show Adjusts _ _ s
    ({ s with connections := s.connections.map (Connection.offer s.tuning body tag) }.wake _)
  rw [connections]
  exact .wake _ s _

variable {body : Octets} {tag : Tenant}

theorem mem_order_iff {c : Connection} (h : order.Perm (s.numbers p))
    (hc : s.connections[i]? = some c) : i ∈ order ↔ p c := by
  rw [h.mem_iff, mem_numbers]
  constructor
  · rintro ⟨d, hd, held⟩
    rw [hc] at hd
    cases hd
    exact held
  · intro held
    exact ⟨c, hc, held⟩

/-- In whichever order the body is handed to those that it is meant for, the outcome is the same. -/
theorem broadcastAlong_spec (s : Service) (body : Octets) (tag : Tenant)
    (h : order.Perm (s.numbers (·.isTarget tag))) :
    (s.broadcastAlong body order).1 = (s.broadcast body tag).1 ∧
      Adjusts (fun _ => Connection.offer s.tuning body tag)
        ((s.numbers (·.isTarget tag)).map Task.writer ++
          (s.numbers fun c => c.isTarget tag && !c.accepts s.tuning.capacity).map Task.reader)
        s (s.broadcastAlong body order).2 := by
  have nodup : order.Nodup := h.nodup_iff.mpr (s.nodup_numbers _)
  obtain ⟨s', delivered, adjusts⟩ := deliverEach_spec (Frame.ofBody body) nodup s
  obtain ⟨s'', removed, adjusts'⟩ := removeEach_spec
    (nodup.filter fun i => !s.has (·.accepts s.tuning.capacity) i) s'
  simp only [broadcastAlong, delivered, removed]
  have refused : (order.filter fun i => !s.has (·.accepts s.tuning.capacity) i).Perm
      (s.numbers fun c => c.isTarget tag && !c.accepts s.tuning.capacity) := by
    rw [← filter_numbers fun i c hc => congrArg not (has_of_getElem? hc)]
    exact h.filter _
  have registered : ∀ i ∈ order.filter fun i => !s.has (·.accepts s.tuning.capacity) i,
      s'.has (·.registered) i := by
    intro i hi
    obtain ⟨c, hc, held⟩ := mem_numbers.mp (refused.mem_iff.mp hi)
    simp only [Connection.isTarget, Bool.and_eq_true, Bool.not_eq_true'] at held
    have there : s'.connections[i]? = some c := by
      rw [adjusts.getElem?, hc, Option.map_some, among, if_neg (by simp [held.2])]
    rw [has_of_getElem? there]
    exact held.1.1
  constructor
  · have count := order.length_eq_length_filter_add (s.has (·.accepts s.tuning.capacity))
    have gone := List.countP_eq_length.mpr registered
    have targets := h.length_eq
    have evicted := refused.length_eq
    have queued : order.countP (s.has (·.accepts s.tuning.capacity)) =
        (s.numbers (·.isTarget tag)).length -
          (s.numbers fun c => c.isTarget tag && !c.accepts s.tuning.capacity).length := by
      rw [List.countP_eq_length_filter]
      omega
    rw [broadcast, gone, evicted, targets, queued]
  · refine (adjusts.trans adjusts').congr ?_ ?_
    · intro i c hc
      have meant := mem_order_iff h hc
      have out := mem_order_iff refused hc
      rw [Connection.offer_eq]
      cases ht : c.isTarget tag with
      | false => simp [among, meant, out, ht]
      | true =>
        cases ha : c.accepts s.tuning.capacity with
        | true => simp [among, meant, out, ht, ha, Connection.enqueue_eq]
        | false =>
          have held : c.registered := (Bool.and_eq_true _ _ ▸ ht).1
          simp [among, meant, out, ht, ha, held]
    · intro task
      rw [List.filter_eq_self.mpr registered]
      cases task with
      | writer i =>
        have awake := h.mem_iff (a := i)
        cases ha : s.has (·.accepts s.tuning.capacity) i <;> simp [ha, awake]
      | reader i =>
        have awake := refused.mem_iff (a := i)
        simpa using awake
      | bridge k => simp

end Service

/-! ### The effect -/

namespace Connection

variable {c : Connection}

theorem isTarget_eq (tag : Tenant) (c : Connection) :
    c.isTarget tag = (c.registered && (tag == Tenant.empty || c.bearer.tenant == tag)) := by
  have unscoped : tag.isEmpty = (tag == Tenant.empty) := by
    rw [Bool.eq_iff_iff, tag.isEmpty_iff, beq_iff_eq]
  rw [isTarget, Tenant.reaches, unscoped]

/-- A registered connection is active, so only a full queue makes it refuse a frame. -/
theorem accepts_of_registered (hc : Coherent c) (hr : c.registered) (capacity : Nat) :
    c.accepts capacity = decide (c.queue.length < capacity) := by
  rw [accepts, hc.active.mp hr]
  rfl

theorem remove_of_registered (hc : Coherent c) (hr : c.registered) :
    c.remove = { c with registered := false, stage := .closing, signalled := true } := by
  simp [remove, signalClose, hr, hc.active.mp hr]

theorem offer_of_coherent (hc : Coherent c) (t : Tuning) (body : Octets) (tag : Tenant) :
    c.offer t body tag =
      if c.isTarget tag then
        if c.queue.length < t.capacity then { c with queue := c.queue ++ [Frame.ofBody body] }
        else { c with registered := false, stage := .closing, signalled := true }
      else c := by
  rw [offer_eq]
  split
  · next meant =>
    have hr : c.registered := (Bool.and_eq_true _ _ ▸ meant).1
    simp only [accepts_of_registered hc hr, remove_of_registered hc hr, decide_eq_true_eq]
  · rfl

end Connection

namespace Service

/-- Who is counted as targeted, and who as queued. -/
theorem report_broadcast (s : Service) (hs : ∀ c ∈ s.connections, Coherent c) (body : Octets)
    (tag : Tenant) :
    let report := (s.broadcast body tag).1
    report.targeted = s.connections.countP (·.isTarget tag) ∧
      report.queued = s.connections.countP (fun c =>
        c.isTarget tag && decide (c.queue.length < s.tuning.capacity)) ∧
      report.queued + report.evicted = report.targeted := by
  intro report
  have targeted : report.targeted = s.connections.countP (·.isTarget tag) := s.length_numbers _
  have taking : report.queued = s.connections.countP (fun c =>
      c.isTarget tag && c.accepts s.tuning.capacity) :=
    (s.queued_broadcast body tag).trans (s.length_numbers _)
  have fewer : report.evicted ≤ report.targeted := by
    rw [targeted]
    show (s.numbers _).length ≤ _
    rw [length_numbers]
    apply List.countP_mono_left
    intro c _ evicted
    exact (Bool.and_eq_true _ _ ▸ evicted).1
  refine ⟨targeted, ?_, Nat.sub_add_cancel fewer⟩
  rw [taking]
  apply List.countP_congr
  intro c hc
  cases ht : c.isTarget tag with
  | false => simp
  | true =>
    have hr : c.registered := (Bool.and_eq_true _ _ ▸ ht).1
    rw [Connection.accepts_of_registered (hs c hc) hr]

end Service

/-- The exact effect of a broadcast at any point of any run. Those it is meant for are the registered
connections with its tag, or all of them if the tag is empty. Those with room in the queue get the
body's frame at its end, the others are taken off the registry and told to close, and everything else
stays. The report counts them. The outcome is the same in whichever order the body is handed around,
and no queue ever holds more than its bound. -/
theorem broadcast_exact (t : Tuning) (moves : List Move) (body : Octets) (tag : Tenant) :
    let s := (Service.start t).after moves
    let bound := max 1 t.outboundBuffer
    let meant (c : Connection) : Bool :=
      c.registered && (tag == Tenant.empty || c.bearer.tenant == tag)
    let room (c : Connection) : Bool := c.queue.length < bound
    let change (c : Connection) : Connection :=
      if meant c then
        if room c then { c with queue := c.queue ++ [Frame.ofBody body] }
        else { c with registered := false, stage := .closing, signalled := true }
      else c
    let report := (s.broadcast body tag).1
    let s' := (s.broadcast body tag).2
    report.targeted = s.connections.countP meant ∧
      report.queued = s.connections.countP (fun c => meant c && room c) ∧
      report.queued + report.evicted = report.targeted ∧
      s' = { s with connections := s.connections.map change, ready := s'.ready } ∧
      (∀ order, order.Perm (s.numbers meant) →
        (s.broadcastAlong body order).1 = report ∧
          (s.broadcastAlong body order).2 =
            { s' with ready := (s.broadcastAlong body order).2.ready } ∧
          (s.broadcastAlong body order).2.ready.Perm s'.ready) ∧
      (∀ c ∈ s.connections, c.queue.length ≤ bound) ∧
      ∀ c ∈ s'.connections, c.queue.length ≤ bound := by
  intro s bound meant room change report s'
  have tuning : s.tuning = t := (Service.start t).tuning_after moves
  have coherent : ∀ c ∈ s.connections, Coherent c := by
    intro c hc
    obtain ⟨i, hi⟩ := List.getElem?_of_mem hc
    exact Coherent.of_run hi
  have targets : (fun c : Connection => c.isTarget tag) = meant := by
    funext c
    exact c.isTarget_eq tag
  have effect : s.connections.map (Connection.offer s.tuning body tag) =
      s.connections.map change := by
    apply List.map_congr_left
    intro c hc
    have same : c.isTarget tag = meant c := c.isTarget_eq tag
    rw [Connection.offer_of_coherent (coherent c hc), tuning, same]
    simp only [change, room, decide_eq_true_eq]
    rfl
  have bounded (moves : List Move) :
      ∀ c ∈ ((Service.start t).after moves).connections, c.queue.length ≤ bound := by
    intro c hc
    obtain ⟨i, hi⟩ := List.getElem?_of_mem hc
    exact Connection.length_queue_le hi
  have next : (Service.start t).after (moves ++ [.broadcast body tag]) = s' := by
    rw [Service.after_append]
    rfl
  obtain ⟨targeted, queued, both⟩ := s.report_broadcast coherent body tag
  refine ⟨?_, ?_, both, ?_, ?_, bounded moves, ?_⟩
  · rw [targeted, targets]
  · rw [queued, tuning]
    apply List.countP_congr
    intro c _
    rw [c.isTarget_eq tag]
    rfl
  · rw [← effect]
    rfl
  · intro order perm
    rw [← targets] at perm
    obtain ⟨counted, along⟩ := s.broadcastAlong_spec body tag perm
    obtain ⟨same, ready⟩ := (s.adjusts_broadcast body tag).unique along
    exact ⟨counted, same, ready⟩
  · rw [← next]
    exact bounded _

/-- Two of three connections are meant, and the queue of the first is full. It makes no difference if
the second is served before the first. -/
theorem broadcast_exact_reversed :
    let register (user tenant : String) : Move :=
      .register ⟨user, ⟨tenant⟩, .agent⟩ (.probe {}) false
    let moves : List Move :=
      [register "a" "acme", register "b" "acme", register "c" "globex", .deliver 0 (.text "full")]
    let s := (Service.start ⟨100, 1⟩).after moves
    let body := Octets.ofText "x"
    let along := s.broadcastAlong body [1, 0]
    along.1 = ⟨2, 1, 1⟩ ∧ along.1 = (s.broadcast body ⟨"acme"⟩).1 ∧
      along.2.connections = (s.broadcast body ⟨"acme"⟩).2.connections ∧
      along.2.connections.map (fun c => (c.registered, c.stage, c.queue)) =
        [(false, .closing, [.text "full"]), (true, .active, [.text "x"]), (true, .active, [])] := by
  intro register moves s body along
  have perm : [1, 0].Perm (s.numbers fun c =>
      c.registered && ((⟨"acme"⟩ : Tenant) == Tenant.empty || c.bearer.tenant == ⟨"acme"⟩)) := by
    decide +kernel
  obtain ⟨-, -, -, -, any, -, -⟩ := broadcast_exact ⟨100, 1⟩ moves body ⟨"acme"⟩
  obtain ⟨report, same, -⟩ := any [1, 0] perm
  have connections := congrArg Service.connections same
  exact ⟨by decide +kernel, report, connections, by decide +kernel⟩

end Fanout.Live
