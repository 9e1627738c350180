import Mathlib.Data.List.Induction
import Fanout.Proofs.Live.Handling
import Fanout.Proofs.Live.Wake

/-!
What bridges forward in the course of a run. The items that a stream was given are the bodies handed
over so far and the items still to come, up to a failure; a bridge that has something to do is ready; and
one that is the only one shows by the status how far it has come.
-/

namespace Fanout.Live

/-- The status is set by somebody else than the bridges that run as tasks. -/
def Move.setsStatus : Move → Bool
  | .play _ _ | .setStatus _ => true
  | _ => false

namespace Service

/-! ### What a run gathers -/

/-- The items that a move brings to the stream of the bridge of a number. A stream that has ended takes
no more. -/
def intakeAt (k : Nat) (s : Service) : Move → List Delivery
  | .spawn _ broker => if s.bridges.length = k then broker.deliveries else []
  | .feed j item last => if j = k ∧ (s.feed j item last).1 then item.toList else []
  | _ => []

/-- The bodies that the bridge of a number hands over at a move. -/
def handedAt (k : Nat) (s : Service) : Move → List Octets
  | .turn (.bridge j) => if j = k then (s.bridges[k]?.map BridgeRun.handed).getD [] else []
  | _ => []

/-- What is gathered in the course of a run. -/
def gather {α : Type} (find : Service → Move → List α) (s : Service) : List Move → List α
  | [] => []
  | m :: rest => find s m ++ gather find (s.perform m) rest

theorem gather_append_singleton {α : Type} (find : Service → Move → List α) (s : Service)
    (moves : List Move) (m : Move) :
    s.gather find (moves ++ [m]) = s.gather find moves ++ find (s.after moves) m := by
  induction moves generalizing s with
  | nil => exact List.append_nil _
  | cons m' rest ih =>
    rw [List.cons_append, gather, gather, ih, List.append_assoc]
    rfl

def intake (k : Nat) (s : Service) (moves : List Move) : List Delivery := s.gather (intakeAt k) moves

def handed (k : Nat) (s : Service) (moves : List Move) : List Octets := s.gather (handedAt k) moves

end Service

/-- How far a bridge has come with the items that its stream was given. It has not begun; or its setup
failed; or it waits for more; or it is through, at the end of the stream or at a failure. -/
inductive BridgeRun.Stands (items : List Delivery) (handed : List Octets) (r : BridgeRun) : Prop where
  | fresh (hs : r.started = false) (hf : r.finished = false) (hd : r.streamDropped = false)
      (hc : r.calls = []) (hh : handed = []) (hp : items = r.pending)
  | refused (hs : r.started) (hf : r.finished) (e : BrokerFault)
      (hm : r.broker.perform (r.bridge.setup r.broker) = (r.calls.map Prod.fst, some e))
      (hh : handed = [])
  | waiting (hs : r.started) (hf : r.finished = false) (hd : r.streamDropped = false)
      (made : List BrokerCall) (hm : r.broker.perform (r.bridge.setup r.broker) = (made, none))
      (hc : r.calls.map Prod.fst = made ++ handed.map fun _ => .delivery)
      (hp : items = handed.map .body ++ r.pending)
  | through (hs : r.started) (hf : r.finished) (hd : r.streamDropped) (made : List BrokerCall)
      (hm : r.broker.perform (r.bridge.setup r.broker) = (made, none)) (last : BrokerCall)
      (hc : r.calls.map Prod.fst = made ++ handed.map (fun _ => .delivery) ++ [last])
      (hp : items = handed.map .body ∧ last = .finish ∧ r.feedEnded ∨
        ∃ e later, items = handed.map .body ++ .failure e :: later ∧ last = .error)

namespace BridgeRun.Stands

variable {items : List Delivery} {handed bodies : List Octets} {r r' : BridgeRun}
  {status status' : BridgeStatus}

/-- A bridge that takes what its stream holds hands the bodies over behind those before. -/
theorem takes (hs : r.started) (hf : r.finished = false) (hd : r.streamDropped = false)
    {made : List BrokerCall} (hm : r.broker.perform (r.bridge.setup r.broker) = (made, none))
    (hc : r.calls.map Prod.fst = made ++ handed.map fun _ => .delivery)
    (hp : items = handed.map .body ++ r.pending) (ht : r.Takes status bodies r' status') :
    Stands items (handed ++ bodies) r' := by
  have taken (status : BridgeStatus) :
      (r.calls ++ bodies.map fun _ => (BrokerCall.delivery, status)).map Prod.fst =
        made ++ (handed ++ bodies).map fun _ => .delivery := by
    simp only [hc, List.map_append, List.map_map, Function.comp_def, List.append_assoc]
  cases ht with
  | wait hb he => exact .waiting hs hf hd made hm (taken status) (by simp [hp, hb])
  | finish hb he =>
    refine .through hs rfl rfl made hm .finish ?_ (.inl ⟨by simp [hp, hb], rfl, he⟩)
    rw [List.map_append, taken]
    rfl
  | fail e later hb =>
    refine .through hs rfl rfl made hm .error ?_ (.inr ⟨e, later, by simp [hp, hb], rfl⟩)
    rw [← List.append_assoc, List.map_append, taken]
    rfl

theorem turn (h : Stands items handed r) (ht : r.Turn status bodies r' status') :
    Stands items (handed ++ bodies) r' := by
  cases ht with
  | idle hf => rwa [List.append_nil]
  | refuse hf hs made e hm =>
    cases h with
    | fresh _ _ hd hc hh hp =>
      exact .refused rfl rfl e (by simpa [hc, Function.comp_def] using hm) (by simp [hh])
    | refused hs' | waiting hs' | through hs' => simp [hs] at hs'
  | begin hf hs made hm ht =>
    cases h with
    | fresh _ _ hd hc hh hp =>
      subst hh
      have called : (r.calls ++ made.map (·, BridgeStatus.starting)).map Prod.fst = made ++ [] := by
        simp [hc, Function.comp_def]
      exact takes (r := { r with started := true, calls := r.calls ++ made.map (·, .starting) })
        rfl hf hd hm called hp ht
    | refused hs' | waiting hs' | through hs' => simp [hs] at hs'
  | resume hf hs ht =>
    cases h with
    | waiting _ _ hd made hm hc hp => exact takes hs hf hd hm hc hp ht
    | fresh hs' => simp [hs] at hs'
    | refused _ hf' | through _ hf' => simp [hf] at hf'

/-- An item is added to the stream if the stream still takes it. -/
theorem feed (h : Stands items handed r) (item : Option Delivery) (last : Bool) :
    let takes := !r.feedEnded && !r.streamDropped
    Stands (items ++ if takes && item.isSome then item.toList else []) handed (r.fed item last) := by
  intro takes
  have added : (if takes && item.isSome then item.toList else []) =
      if takes then item.toList else [] := by
    cases takes <;> cases item <;> rfl
  rw [added]
  have pending : (r.fed item last).pending = r.pending ++ if takes then item.toList else [] := by
    show (if takes then r.pending ++ item.toList else r.pending) = _
    split
    · rfl
    · exact (List.append_nil _).symm
  cases h with
  | fresh hs hf hd hc hh hp => exact .fresh hs hf hd hc hh (by rw [hp, pending])
  | refused hs hf e hm hh => exact .refused hs hf e hm hh
  | waiting hs hf hd made hm hc hp =>
    exact .waiting hs hf hd made hm hc (by rw [hp, pending, List.append_assoc])
  | through hs hf hd made hm call hc hp =>
    have none : takes = false := by simp [takes, hd]
    rw [none]
    simp only [Bool.false_eq_true, if_false, List.append_nil]
    refine .through hs hf hd made hm call hc (hp.imp_left ?_)
    rintro ⟨hi, hl, he⟩
    exact ⟨hi, hl, by simp [BridgeRun.fed, he]⟩

end BridgeRun.Stands

namespace Service

/-- What a move does to the bridges and their status. A script that is played shares the status without
being one of the bridges. -/
inductive Stirs (s : Service) : Move → List BridgeRun → BridgeStatus → Prop where
  | spawn (b : Bridge) (broker : Broker) :
      Stirs s (.spawn b broker)
        (s.bridges ++ [{ bridge := b, broker := broker, pending := broker.deliveries }]) s.status
  | feed (j : Nat) (r : BridgeRun) (item : Option Delivery) (last : Bool)
      (hr : s.bridges[j]? = some r) : Stirs s (.feed j item last) (s.bridges.set j (r.fed item last)) s.status
  | turn (j : Nat) (r r' : BridgeRun) (status : BridgeStatus) (hr : s.bridges[j]? = some r)
      (ht : r.Turn s.status r.handed r' status) :
      Stirs s (.turn (.bridge j)) (s.bridges.set j r') status
  | still (m : Move) (status : BridgeStatus) (hi : ∀ k, intakeAt k s m = [])
      (hm : ∀ j r, s.bridges[j]? = some r → m ≠ .turn (.bridge j))
      (hs : m.setsStatus = false → status = s.status) : Stirs s m s.bridges status

/-- Only a bridge's own turns hand over anything for it. -/
theorem handedAt_eq_nil {s : Service} {m : Move}
    (hm : ∀ j r, s.bridges[j]? = some r → m ≠ .turn (.bridge j)) (k : Nat) :
    handedAt k s m = [] := by
  unfold handedAt
  split
  · next j =>
    split
    · next hk =>
      cases hr : s.bridges[k]? with
      | none => rfl
      | some r => exact absurd (hk ▸ rfl) (hm k r hr)
    · rfl
  · rfl

/-- Connections are removed, delivered to and run without a look at the bridges. -/
theorem runs_remove (s : Service) (i : Nat) :
    (s.remove i).2.bridges = s.bridges ∧ (s.remove i).2.status = s.status := by
  unfold remove
  split
  · split <;> exact ⟨rfl, rfl⟩
  · exact ⟨rfl, rfl⟩

theorem runs_deliver (s : Service) (i : Nat) (f : Frame) :
    (s.deliver i f).2.bridges = s.bridges ∧ (s.deliver i f).2.status = s.status := by
  unfold deliver
  split
  · exact ⟨rfl, rfl⟩
  · split <;> exact ⟨rfl, rfl⟩

theorem runs_runWriter (s : Service) (i : Nat) :
    (s.runWriter i).bridges = s.bridges ∧ (s.runWriter i).status = s.status := by
  unfold runWriter
  split
  · exact ⟨rfl, rfl⟩
  · simp only
    split <;> exact ⟨rfl, rfl⟩

theorem runs_runReader (s : Service) (i : Nat) :
    (s.runReader i).bridges = s.bridges ∧ (s.runReader i).status = s.status := by
  unfold runReader
  split
  · exact ⟨rfl, rfl⟩
  · simp only
    split <;> exact ⟨rfl, rfl⟩

theorem bridges_playBridge (s : Service) (b : Bridge) (broker : Broker) :
    (s.playBridge b broker).2.2.bridges = s.bridges := by
  cases hm : broker.perform (b.setup broker) with
  | mk made fault =>
    cases fault with
    | some e => rw [playBridge_of_fault s b broker hm]
    | none =>
      obtain hd | ⟨e, later, hd⟩ := Delivery.stream_cases broker.deliveries
      · rw [playBridge_of_end s b broker hm hd]
        exact s.bridges_handle b _
      · rw [playBridge_of_failure s b broker hm hd]
        exact s.bridges_handle b _

theorem stirs_perform (s : Service) (m : Move) :
    s.Stirs m (s.perform m).bridges (s.perform m).status := by
  have still {m : Move} (hi : ∀ k, intakeAt k s m = [])
      (hm : ∀ j r, s.bridges[j]? = some r → m ≠ .turn (.bridge j))
      (hb : (s.perform m).bridges = s.bridges)
      (hs : m.setsStatus = false → (s.perform m).status = s.status) :
      s.Stirs m (s.perform m).bridges (s.perform m).status := by
    rw [hb]
    exact .still m _ hi hm hs
  cases m with
  | spawn b broker => exact .spawn b broker
  | feed j item last =>
    cases hj : s.bridges[j]? with
    | none =>
      have hf : s.feed j item last = (false, s) := by simp [feed, hj]
      refine still (fun k => ?_) (by simp) ?_ fun _ => ?_
      · simp [intakeAt, hf]
      · simp [perform, hf]
      · simp [perform, hf]
    | some r =>
      have hf : (s.feed j item last).2 =
          { s with bridges := s.bridges.set j (r.fed item last) }.wake [.bridge j] := by
        simp [feed, hj, BridgeRun.fed]
      simp only [perform, hf]
      exact .feed j r item last hj
  | turn task =>
    cases task with
    | bridge j =>
      let s' : Service := { s with ready := s.ready.erase (.bridge j) }
      cases hj : s.bridges[j]? with
      | none =>
        have idle : s'.runBridge j = s' := by simp [runBridge, s', hj]
        have hp : s.perform (.turn (.bridge j)) = s' := idle
        refine still (fun _ => rfl) ?_ (by rw [hp]) fun _ => by rw [hp]
        rintro k r hr ⟨⟩
        simp [hj] at hr
      | some r =>
        obtain ⟨r', status, ht, hp⟩ := s'.runBridge_turn hj
        have hp : s.perform (.turn (.bridge j)) = _ := hp
        rw [hp]
        exact .turn j r r' status hj ht
    | writer j =>
      have kept := runs_runWriter { s with ready := s.ready.erase (.writer j) } j
      exact still (fun _ => rfl) (by simp) kept.1 fun _ => kept.2
    | reader j =>
      have kept := runs_runReader { s with ready := s.ready.erase (.reader j) } j
      exact still (fun _ => rfl) (by simp) kept.1 fun _ => kept.2
  | play b broker =>
    exact still (fun _ => rfl) (by simp) (s.bridges_playBridge b broker) (by simp [Move.setsStatus])
  | register who sink reads =>
    refine still (fun _ => rfl) (by simp) ?_ fun _ => ?_ <;> rw [perform_register] <;> split <;> rfl
  | remove i => exact still (fun _ => rfl) (by simp) (s.runs_remove i).1 fun _ => (s.runs_remove i).2
  | deliver i f =>
    exact still (fun _ => rfl) (by simp) (s.runs_deliver i f).1 fun _ => (s.runs_deliver i f).2
  | hand b body =>
    exact still (fun _ => rfl) (by simp) (s.bridges_handle b [body]) fun _ => s.status_handle b [body]
  | setStatus status => exact still (fun _ => rfl) (by simp) rfl (by simp [Move.setsStatus])
  | broadcast _ _ | behave _ _ | receive _ _ | cutOff _ | fetch _ | wake _ | tick _ =>
    exact still (fun _ => rfl) (by simp) rfl fun _ => rfl

/-- How the bridge of a number stands, if it is there. -/
def Told (items : List Delivery) (handed : List Octets) : Option BridgeRun → Prop
  | none => items = [] ∧ handed = []
  | some r => r.Stands items handed

theorem Told.stir {s : Service} {k : Nat} {items : List Delivery} {handed : List Octets}
    (h : Told items handed s.bridges[k]?) {m : Move} {runs : List BridgeRun} {status : BridgeStatus}
    (hs : s.Stirs m runs status) :
    Told (items ++ intakeAt k s m) (handed ++ handedAt k s m) runs[k]? := by
  cases hs with
  | still _ _ hi hm _ => rwa [hi, handedAt_eq_nil hm, List.append_nil, List.append_nil]
  | spawn b broker =>
    rw [show handedAt k s (.spawn b broker) = [] from rfl, List.append_nil]
    simp only [intakeAt]
    rcases Nat.lt_trichotomy k s.bridges.length with hk | rfl | hk
    · rw [List.getElem?_append_left hk, if_neg (by omega), List.append_nil]
      exact h
    · rw [List.getElem?_eq_none (Nat.le_refl _)] at h
      obtain ⟨rfl, rfl⟩ := h
      simp only [if_true, List.getElem?_concat_length]
      exact .fresh rfl rfl rfl rfl rfl rfl
    · rw [List.getElem?_eq_none (by omega)] at h
      rw [List.getElem?_eq_none (by simp; omega), if_neg (by omega), List.append_nil]
      exact h
  | feed j r item last hr =>
    rw [show handedAt k s (.feed j item last) = [] from rfl, List.append_nil]
    simp only [intakeAt, feed, hr]
    by_cases hk : j = k
    · subst hk
      have hj : j < s.bridges.length := (List.getElem?_eq_some_iff.mp hr).1
      rw [hr] at h
      rw [List.getElem?_set_self hj]
      have fed := h.feed item last
      simpa [Told] using fed
    · rw [List.getElem?_set_ne hk, if_neg fun h => hk h.1, List.append_nil]
      exact h
  | turn j r r' _ hr ht =>
    rw [show intakeAt k s (.turn (.bridge j)) = [] from rfl, List.append_nil]
    simp only [handedAt]
    by_cases hk : j = k
    · subst hk
      have hj : j < s.bridges.length := (List.getElem?_eq_some_iff.mp hr).1
      rw [hr] at h
      rw [List.getElem?_set_self hj, if_pos rfl, hr]
      exact h.turn ht
    · rw [List.getElem?_set_ne hk, if_neg hk, List.append_nil]
      exact h

theorem told_of_run (t : Tuning) (k : Nat) (moves : List Move) :
    Told ((start t).intake k moves) ((start t).handed k moves) ((start t).after moves).bridges[k]? := by
  induction moves using List.reverseRecOn with
  | nil => exact ⟨rfl, rfl⟩
  | append_singleton moves m ih =>
    rw [intake, handed, gather_append_singleton, gather_append_singleton, after_append]
    exact ih.stir (stirs_perform _ m)

/-! ### The status, and what is left to do -/

end Service

namespace BridgeRun

/-- The status by which a bridge that has it for itself shows how far it has come. -/
def status (r : BridgeRun) : BridgeStatus :=
  if r.finished then .stopped else if r.started then .running else .disabled

/-- Nothing is left to do for a bridge before something else arrives. -/
def Rests (r : BridgeRun) : Prop :=
  r.finished ∨ r.started ∧ r.pending = [] ∧ r.feedEnded = false

variable {r r' : BridgeRun} {bodies : List Octets} {shown status' : BridgeStatus}

theorem Takes.status_eq (ht : r.Takes .running bodies r' status') (hs : r.started)
    (hf : r.finished = false) : status' = r'.status := by
  cases ht with
  | wait hb he => simp [status, hs, hf]
  | finish hb he => rfl
  | fail e later hb => rfl

theorem Turn.status_eq (ht : r.Turn r.status bodies r' status') : status' = r'.status := by
  cases ht with
  | idle hf => rfl
  | refuse hf hs made e hm => rfl
  | begin hf hs made hm ht => exact ht.status_eq rfl hf
  | resume hf hs ht =>
    have running : r.status = .running := by simp [status, hs, hf]
    rw [running] at ht
    exact ht.status_eq hs hf

theorem Takes.rests (ht : r.Takes shown bodies r' status') (hs : r.started) : r'.Rests := by
  cases ht with
  | wait hb he => exact .inr ⟨hs, rfl, he⟩
  | finish hb he => exact .inl rfl
  | fail e later hb => exact .inl rfl

theorem Turn.rests (ht : r.Turn shown bodies r' status') : r'.Rests := by
  cases ht with
  | idle hf => exact .inl hf
  | refuse hf hs made e hm => exact .inl rfl
  | begin hf hs made hm ht => exact ht.rests rfl
  | resume hf hs ht => exact ht.rests hs

end BridgeRun

namespace Service

/-- A bridge that is the only one shows by the status how far it has come. -/
structure Shows (status : BridgeStatus) (runs : List BridgeRun) : Prop where
  none : runs = [] → status = .disabled
  sole : ∀ r, runs = [r] → status = r.status

/-- What keeps one bridge in its place keeps the others. -/
theorem Shows.set {status shown : BridgeStatus} {runs : List BridgeRun} {j : Nat} {r r' : BridgeRun}
    (h : Shows shown runs) (hr : runs[j]? = some r) (hs : shown = r.status → status = r'.status) :
    Shows status (runs.set j r') where
  none := by
    intro hn
    have empty := congrArg List.length hn
    rw [List.length_set] at empty
    rw [List.eq_nil_of_length_eq_zero empty] at hr
    cases hr
  sole := by
    intro x hx
    obtain ⟨r₀, rfl⟩ : ∃ r₀, runs = [r₀] := by
      have length := congrArg List.length hx
      rw [List.length_set] at length
      exact List.length_eq_one_iff.mp length
    have hj : j = 0 := by
      have hl := (List.getElem?_eq_some_iff.mp hr).1
      simpa using hl
    subst hj
    obtain rfl : r₀ = r := Option.some.inj hr
    obtain rfl : r' = x := List.singleton_inj.mp hx
    exact hs (h.sole r₀ rfl)

theorem Shows.stir {s : Service} (h : Shows s.status s.bridges) {m : Move} (hm : m.setsStatus = false)
    {runs : List BridgeRun} {status : BridgeStatus} (hs : s.Stirs m runs status) :
    Shows status runs := by
  cases hs with
  | still _ _ _ _ hs => rwa [hs hm]
  | spawn b broker =>
    refine ⟨fun hn => absurd hn (by simp), fun r hr => ?_⟩
    obtain ⟨hb, hr⟩ | ⟨-, hr⟩ := List.append_eq_singleton_iff.mp hr
    · obtain rfl := List.singleton_inj.mp hr
      exact h.none hb
    · cases hr
  | feed j r item last hr => exact h.set hr id
  | turn j r r' _ hr ht => exact h.set hr fun he => (he ▸ ht).status_eq

theorem shows_of_run (t : Tuning) {moves : List Move} (hm : ∀ m ∈ moves, m.setsStatus = false) :
    Shows ((start t).after moves).status ((start t).after moves).bridges := by
  induction moves using List.reverseRecOn with
  | nil => exact ⟨fun _ => rfl, fun r hr => by simp [after, start] at hr⟩
  | append_singleton moves m ih =>
    rw [after_append]
    exact (ih fun m' hm' => hm m' (by simp [hm'])).stir (hm m (by simp)) (stirs_perform _ m)

/-- A task that is ready stays so up to its turn. -/
theorem ready_perform {s : Service} {task : Task} {m : Move} (ht : task ∈ s.ready)
    (hm : m ≠ .turn task) : task ∈ (s.perform m).ready := by
  cases m with
  | turn other =>
    have kept : task ∈ s.ready.erase other :=
      (List.mem_erase_of_ne fun he => hm (congrArg Move.turn he.symm)).mpr ht
    let s' : Service := { s with ready := s.ready.erase other }
    cases other with
    | writer j => exact s'.ready_subset_runWriter j kept
    | reader j => exact s'.ready_subset_runReader j kept
    | bridge j => exact (spreading_alert.runBridge s' j).ready kept
  | _ => exact (s.alert_perform (by simp)).ready ht

/-- Every bridge is ready or at rest. -/
def Tended (s : Service) : Prop :=
  ∀ k r, s.bridges[k]? = some r → .bridge k ∈ s.ready ∨ r.Rests

theorem Tended.stir {s : Service} (h : s.Tended) {m : Move} {runs : List BridgeRun}
    {status : BridgeStatus} (hs : s.Stirs m runs status) {k : Nat} {r : BridgeRun}
    (hr : runs[k]? = some r) : .bridge k ∈ (s.perform m).ready ∨ r.Rests := by
  cases hs with
  | still _ _ _ hm _ => exact (h k r hr).imp_left fun ht => ready_perform ht (hm k r hr)
  | spawn b broker =>
    by_cases hk : k < s.bridges.length
    · rw [List.getElem?_append_left hk] at hr
      exact (h k r hr).imp_left fun ht => ready_perform ht (by simp)
    · have hk : k = s.bridges.length := by
        have hl := (List.getElem?_eq_some_iff.mp hr).1
        simp only [List.length_append, List.length_singleton] at hl
        omega
      subst hk
      exact .inl (mem_ready_wake.mpr (.inr List.mem_cons_self))
  | feed j r' item last hj =>
    by_cases hk : j = k
    · subst hk
      left
      simp only [Service.perform, Service.feed, hj]
      exact mem_ready_wake.mpr (.inr List.mem_cons_self)
    · rw [List.getElem?_set_ne hk] at hr
      exact (h k r hr).imp_left fun ht => ready_perform ht (by simp)
  | turn j r₀ r' _ hj ht =>
    by_cases hk : j = k
    · subst hk
      rw [List.getElem?_set_self (List.getElem?_eq_some_iff.mp hj).1] at hr
      obtain rfl := Option.some.inj hr
      exact .inr ht.rests
    · rw [List.getElem?_set_ne hk] at hr
      refine (h k r hr).imp_left fun ht => ready_perform ht ?_
      simpa using hk

theorem tended_of_run (t : Tuning) (moves : List Move) : ((start t).after moves).Tended := by
  induction moves using List.reverseRecOn with
  | nil => exact fun k r hr => by simp [after, start] at hr
  | append_singleton moves m ih =>
    rw [after_append]
    exact fun k r hr => ih.stir (stirs_perform _ m) hr

end Service

/-- Whatever calls to the broker fail, and whatever its stream holds. A setup goes up to the first call
that fails; then the fault is reported and nothing changes but the status. Otherwise the queue is bound
as the bridge says, the bodies in front of the first failure are handed over, and the outcome is this
failure if there is one. The status is running as long as the stream goes on and stopped in the end, and
each untagged body is logged once. As a task a bridge does the same turn by turn, with a stream that need
not end: all that its stream was given is handed over in order, each body once, up to a failure, and when
nobody is ready there is nothing left. A bridge that is the only one shows by the status how far it has
come. -/
theorem bridge_forwards_each_body_once (b : Bridge) (broker : Broker) :
    (∀ before call after e, b.setup broker = before ++ call :: after →
        (∀ x ∈ before, broker.faultOf? x = none) → broker.faultOf? call = some e → ∀ s : Service,
        s.playBridge b broker =
          (.error e, (before ++ [call]).map (·, .starting), { s with status := .stopped })) ∧
      ((∀ x ∈ b.setup broker, broker.faultOf? x = none) → ∀ (s : Service) (bodies : List Octets),
        let calls := (b.setup broker).map (·, .starting) ++ bodies.map fun _ => (.delivery, .running)
        let s' := { s.handle b bodies with status := .stopped }
        (broker.deliveries = bodies.map .body →
            s.playBridge b broker = (.ok (), calls ++ [(.finish, .running)], s')) ∧
          ∀ e later, broker.deliveries = bodies.map .body ++ .failure e :: later →
            s.playBridge b broker = (.error e, calls ++ [(.error, .running)], s')) ∧
      (∀ settings, (Bridge.ofSettings settings).setup broker =
        [.openChannel, .declareQueue, .bind broker.queue settings.exchange settings.bindingKey,
          .consume broker.queue]) ∧
      (∀ (s : Service) (bodies : List Octets),
        (s.handle b bodies).log = s.log ++ bodies.filterMap b.remark?) ∧
      ∀ t moves k r, ((Service.start t).after moves).bridges[k]? = some r →
        let s := (Service.start t).after moves
        r.Stands ((Service.start t).intake k moves) ((Service.start t).handed k moves) ∧
          (∃ r' status, s.runBridge k =
            { s.handle r.bridge r.handed with bridges := s.bridges.set k r', status := status }) ∧
          (s.ready = [] → r.Rests) ∧
          ((∀ m ∈ moves, m.setsStatus = false) → s.bridges = [r] → s.status = r.status) := by
  refine ⟨?_, ?_, fun _ => rfl, fun s bodies => s.log_handle b bodies, ?_⟩
  · intro before call after e hl hb hc s
    apply Service.playBridge_of_fault
    rw [hl]
    exact Broker.perform_of_fault hb hc
  · intro hf s bodies calls s'
    have made := Broker.perform_of_forall hf
    exact ⟨fun hd => s.playBridge_of_end b broker made hd,
      fun e later hd => s.playBridge_of_failure b broker made hd⟩
  · intro t moves k r hr s
    have told := Service.told_of_run t k moves
    rw [hr] at told
    obtain ⟨r', status, -, turned⟩ := s.runBridge_turn hr
    refine ⟨told, ⟨r', status, turned⟩, ?_, fun hm => (Service.shows_of_run t hm).sole r⟩
    intro hn
    exact (Service.tended_of_run t moves k r hr).resolve_left (by simp [s, hn])

/-- A setup that cannot bind its queue, a script with a failure between two bodies, and a task that is
given one more body. -/
theorem bridge_forwards_each_body_once_failing :
    let b : Bridge := { policy := .drop }
    let refused : BrokerFault := ⟨.queueBind, "refused"⟩
    let reset : BrokerFault := ⟨.delivery, "connection reset"⟩
    let first : Octets := [123, 125]
    let later : Octets := [91, 93]
    let closed : Broker := { queue := "q", failures := [(.queueBind, refused)] }
    let broken : Broker :=
      { queue := "q", deliveries := [.body first, .failure reset, .body later] }
    let going : Broker := { queue := "q", deliveries := [.body first] }
    let moves : List Move :=
      [.spawn b going, .turn (.bridge 0), .feed 0 (some (.body later)) false, .turn (.bridge 0)]
    let r : BridgeRun :=
      { bridge := b, broker := going, pending := [], started := true,
        calls := (b.setup going).map (·, .starting) ++ [(.delivery, .running), (.delivery, .running)] }
    let s := Service.start ⟨100, 16⟩
    let setup : List BrokerCall := [.openChannel, .declareQueue, .bind "q" b.exchange b.bindingKey]
    s.playBridge b closed = (.error refused, setup.map (·, .starting), { s with status := .stopped }) ∧
      (s.playBridge b broken).1 = .error reset ∧
      (s.playBridge b broken).2.2.log = [⟨Service.untaggedMessage .drop, "missing_tenant_id", none⟩] ∧
      (s.after moves).ready = [] ∧ (s.after moves).bridges = [r] ∧
      s.handed 0 moves = [first, later] ∧ (s.after moves).status = .running := by
  intro b refused reset first later closed broken going moves r s setup
  have hr : (s.after moves).ready = [] := by decide +kernel
  have hb : (s.after moves).bridges = [r] := by decide +kernel
  obtain ⟨failed, -⟩ := bridge_forwards_each_body_once b closed
  obtain ⟨-, played, -, logged, -⟩ := bridge_forwards_each_body_once b broken
  obtain ⟨-, -, -, -, task⟩ := bridge_forwards_each_body_once b going
  obtain ⟨-, -, -, shown⟩ := task ⟨100, 16⟩ moves 0 r (by rw [hb]; rfl)
  have outcome := (played (by decide) s [first]).2 reset [.body later] rfl
  refine ⟨failed setup.dropLast _ [.consume "q"] refused rfl (by decide) (by decide) s, ?_, ?_, hr, hb,
    ?_, ?_⟩
  · rw [outcome]
  · rw [outcome]
    exact (logged s [first]).trans (by decide +kernel)
  · decide +kernel
  · exact shown (by decide) hb

end Fanout.Live
