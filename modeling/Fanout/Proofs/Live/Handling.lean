import Fanout.Proofs.Live.Effect
import Mathlib.Data.List.Basic

/-!
What a bridge makes of a broker and of its stream. Its setup goes up to the first call that fails, and if
none does it takes the items of its stream up to the first failure. The bodies among these are handed
over one after another, and nothing else of the service changes but the bridge and the status.
-/

namespace Fanout

/-! ### Calls one after another -/

namespace Broker

variable {b : Broker}

theorem perform_of_fault {before after : List BrokerCall} {call : BrokerCall} {e : BrokerFault}
    (hb : ∀ x ∈ before, b.faultOf? x = none) (hc : b.faultOf? call = some e) :
    b.perform (before ++ call :: after) = (before ++ [call], some e) := by
  induction before with
  | nil => simp [perform, hc]
  | cons x rest ih =>
    have first : b.faultOf? x = none := hb x List.mem_cons_self
    have others := ih fun y hy => hb y (List.mem_cons_of_mem x hy)
    simp only [List.cons_append, perform, first, others]

theorem perform_of_forall {calls : List BrokerCall} (h : ∀ x ∈ calls, b.faultOf? x = none) :
    b.perform calls = (calls, none) := by
  induction calls with
  | nil => rfl
  | cons x rest ih =>
    have first : b.faultOf? x = none := h x List.mem_cons_self
    have others := ih fun y hy => h y (List.mem_cons_of_mem x hy)
    simp only [perform, first, others]

end Broker

namespace Live

/-! ### Bodies one after another -/

/-- What is logged of a body that is handed over: nothing if it is tagged. -/
def Bridge.remark? (b : Bridge) (body : Octets) : Option LogRecord :=
  match Event.Scope.ofOctets body with
  | .tenant _ => none
  | .untagged reason => some { message := Service.untaggedMessage b.policy, reason := reason.name }

namespace Service

/-- The service after bodies were handed over one after another. -/
def handle (s : Service) (b : Bridge) (bodies : List Octets) : Service :=
  bodies.foldl (fun s body => (s.dispatch b body).2) s

variable (s : Service) (b : Bridge)

theorem handle_cons (body : Octets) (rest : List Octets) :
    s.handle b (body :: rest) = (s.dispatch b body).2.handle b rest := rfl

/-- A body is handed over without a look at the bridges and their status. -/
theorem dispatch_with (body : Octets) (runs : List BridgeRun) (status : BridgeStatus) :
    ({ s with bridges := runs, status := status }.dispatch b body).2 =
      { (s.dispatch b body).2 with bridges := runs, status := status } := by
  unfold dispatch
  cases Event.Scope.ofOctets body with
  | tenant tag => rfl
  | untagged reason => cases b.policy <;> rfl

theorem handle_with (bodies : List Octets) (runs : List BridgeRun) (status : BridgeStatus) :
    { s with bridges := runs, status := status }.handle b bodies =
      { s.handle b bodies with bridges := runs, status := status } := by
  induction bodies generalizing s with
  | nil => rfl
  | cons body rest ih =>
    rw [handle_cons, handle_cons, dispatch_with]
    exact ih _

theorem status_handle (bodies : List Octets) : (s.handle b bodies).status = s.status := by
  have same := congrArg Service.status (s.handle_with b bodies s.bridges s.status)
  exact same

theorem bridges_handle (bodies : List Octets) : (s.handle b bodies).bridges = s.bridges := by
  have same := congrArg Service.bridges (s.handle_with b bodies s.bridges s.status)
  exact same

theorem log_dispatch (body : Octets) :
    (s.dispatch b body).2.log = s.log ++ (b.remark? body).toList := by
  unfold dispatch Bridge.remark?
  cases Event.Scope.ofOctets body with
  | tenant tag => exact (List.append_nil _).symm
  | untagged reason => cases hp : b.policy <;> rfl

/-- One record for each body without a usable tag, and none for the others. -/
theorem log_handle (bodies : List Octets) :
    (s.handle b bodies).log = s.log ++ bodies.filterMap b.remark? := by
  induction bodies generalizing s with
  | nil => exact (List.append_nil _).symm
  | cons body rest ih =>
    rw [handle_cons, ih, log_dispatch, List.append_assoc, List.filterMap_cons]
    cases b.remark? body <;> rfl

/-- Bodies in front of a stream are handed over before the rest of it is looked at. -/
theorem dispatchAll_append (bodies : List Octets) (rest : List Delivery) :
    s.dispatchAll b (bodies.map .body ++ rest) =
      (((s.handle b bodies).dispatchAll b rest).1,
        bodies.map (fun _ => .delivery) ++ ((s.handle b bodies).dispatchAll b rest).2.1,
        ((s.handle b bodies).dispatchAll b rest).2.2) := by
  induction bodies generalizing s with
  | nil => rfl
  | cons body bodies ih =>
    simp only [List.map_cons, List.cons_append, dispatchAll, ih, handle_cons]

end Service

/-- A stream holds bodies up to its end or up to its first failure. -/
theorem Delivery.stream_cases (l : List Delivery) :
    l = (bodies l).map .body ∨ ∃ e later, l = (bodies l).map .body ++ .failure e :: later := by
  induction l with
  | nil => exact .inl rfl
  | cons d rest ih =>
    cases d with
    | failure e => exact .inr ⟨e, rest, rfl⟩
    | body x =>
      obtain h | ⟨e, later, h⟩ := ih
      · exact .inl (congrArg (.body x :: ·) h)
      · exact .inr ⟨e, later, congrArg (.body x :: ·) h⟩

namespace Service

variable (s : Service) (b : Bridge) (broker : Broker)

/-! ### A script played to its end -/

theorem playBridge_of_fault {made : List BrokerCall} {e : BrokerFault}
    (hm : broker.perform (b.setup broker) = (made, some e)) :
    s.playBridge b broker =
      (.error e, made.map (·, .starting), { s with status := .stopped }) := by
  simp only [playBridge, hm]

theorem playBridge_of_end {made : List BrokerCall}
    (hm : broker.perform (b.setup broker) = (made, none)) {bodies : List Octets}
    (hd : broker.deliveries = bodies.map .body) :
    s.playBridge b broker =
      (.ok (), made.map (·, .starting) ++ bodies.map (fun _ => (.delivery, .running)) ++
          [(.finish, .running)],
        { s.handle b bodies with status := .stopped }) := by
  have taken := { s with status := .running }.dispatchAll_append b bodies []
  rw [List.append_nil, ← hd] at taken
  have kept := s.handle_with b bodies s.bridges .running
  simp only [playBridge, hm, taken, dispatchAll, kept]
  simp [bridges_handle]

theorem playBridge_of_failure {made : List BrokerCall}
    (hm : broker.perform (b.setup broker) = (made, none)) {bodies : List Octets} {e : BrokerFault}
    {later : List Delivery} (hd : broker.deliveries = bodies.map .body ++ .failure e :: later) :
    s.playBridge b broker =
      (.error e, made.map (·, .starting) ++ bodies.map (fun _ => (.delivery, .running)) ++
          [(.error, .running)],
        { s.handle b bodies with status := .stopped }) := by
  have taken := { s with status := .running }.dispatchAll_append b bodies (.failure e :: later)
  rw [← hd] at taken
  have kept := s.handle_with b bodies s.bridges .running
  simp only [playBridge, hm, taken, dispatchAll, kept]
  simp [bridges_handle]

end Service

/-! ### A bridge's turns -/

namespace BridgeRun

/-- A bridge whose stream is given an item, if it still takes one, or the news that it ends. -/
def fed (item : Option Delivery) (last : Bool) (r : BridgeRun) : BridgeRun :=
  { r with
    pending := if !r.feedEnded && !r.streamDropped then r.pending ++ item.toList else r.pending,
    feedEnded := r.feedEnded || last }

/-- What a bridge makes of the items of its stream under a status: which bodies it hands over, what
becomes of it, and the status afterwards. -/
inductive Takes (status : BridgeStatus) (r : BridgeRun) :
    List Octets → BridgeRun → BridgeStatus → Prop where
  | wait (bodies : List Octets) (hp : r.pending = bodies.map .body) (hf : r.feedEnded = false) :
      Takes status r bodies
        { r with pending := [], calls := r.calls ++ bodies.map fun _ => (.delivery, status) } status
  | finish (bodies : List Octets) (hp : r.pending = bodies.map .body) (hf : r.feedEnded) :
      Takes status r bodies
        { r with
          pending := [],
          calls := r.calls ++ bodies.map (fun _ => (.delivery, status)) ++ [(.finish, status)],
          finished := true, streamDropped := true } .stopped
  | fail (bodies : List Octets) (e : BrokerFault) (later : List Delivery)
      (hp : r.pending = bodies.map .body ++ .failure e :: later) :
      Takes status r bodies
        { r with
          pending := [],
          calls := r.calls ++ (bodies.map (fun _ => (.delivery, status)) ++ [(.error, status)]),
          finished := true, streamDropped := true } .stopped

/-- One turn of a bridge. -/
inductive Turn (status : BridgeStatus) (r : BridgeRun) :
    List Octets → BridgeRun → BridgeStatus → Prop where
  | idle (hf : r.finished) : Turn status r [] r status
  | refuse (hf : r.finished = false) (hs : r.started = false) (made : List BrokerCall)
      (e : BrokerFault) (hm : r.broker.perform (r.bridge.setup r.broker) = (made, some e)) :
      Turn status r []
        { r with started := true, calls := r.calls ++ made.map (·, .starting), finished := true }
        .stopped
  | begin (hf : r.finished = false) (hs : r.started = false) (made : List BrokerCall)
      (hm : r.broker.perform (r.bridge.setup r.broker) = (made, none)) {bodies : List Octets}
      {r' : BridgeRun} {status' : BridgeStatus}
      (ht : Takes .running { r with started := true, calls := r.calls ++ made.map (·, .starting) }
        bodies r' status') : Turn status r bodies r' status'
  | resume (hf : r.finished = false) (hs : r.started) {bodies : List Octets} {r' : BridgeRun}
      {status' : BridgeStatus} (ht : Takes status r bodies r' status') :
      Turn status r bodies r' status'

end BridgeRun

namespace Service

variable (s : Service) {i : Nat} {r : BridgeRun}

theorem runStream_takes (i : Nat) (r : BridgeRun) :
    ∃ r' status, r.Takes s.status (Delivery.bodies r.pending) r' status ∧
      s.runStream i r =
        { s.handle r.bridge (Delivery.bodies r.pending) with
          bridges := s.bridges.set i r', status := status } := by
  have taken := s.dispatchAll_append r.bridge (Delivery.bodies r.pending)
  obtain hp | ⟨e, later, hp⟩ := Delivery.stream_cases r.pending
  · have all := taken []
    rw [List.append_nil, ← hp] at all
    cases hf : r.feedEnded with
    | false =>
      refine ⟨_, _, .wait _ hp hf, ?_⟩
      simp [runStream, all, dispatchAll, hf, bridges_handle, status_handle]
    | true =>
      refine ⟨_, _, .finish _ hp hf, ?_⟩
      simp [runStream, all, dispatchAll, hf, bridges_handle, status_handle]
  · have broken := taken (.failure e :: later)
    rw [← hp] at broken
    refine ⟨_, _, .fail _ e later hp, ?_⟩
    simp [runStream, broken, dispatchAll, bridges_handle, status_handle]

/-- At its turn a bridge hands bodies over, and changes nothing else but itself and the status. -/
theorem runBridge_turn (hr : s.bridges[i]? = some r) :
    ∃ r' status, r.Turn s.status r.handed r' status ∧
      s.runBridge i =
        { s.handle r.bridge r.handed with bridges := s.bridges.set i r', status := status } := by
  unfold runBridge BridgeRun.handed
  simp only [hr]
  split
  · next hf =>
    refine ⟨r, s.status, .idle hf, ?_⟩
    obtain ⟨hi, rfl⟩ := List.getElem?_eq_some_iff.mp hr
    rw [List.set_getElem_self hi]
    rfl
  · next hf =>
    have hf : r.finished = false := by simpa using hf
    split
    · next hs =>
      obtain ⟨r', status, ht, he⟩ := s.runStream_takes i r
      exact ⟨r', status, .resume hf hs ht, he⟩
    · next hs =>
      have hs : r.started = false := by simpa using hs
      unfold startStream
      cases hm : r.broker.perform (r.bridge.setup r.broker) with
      | mk made fault =>
        cases fault with
        | some e =>
          refine ⟨_, .stopped, .refuse hf hs made e hm, ?_⟩
          rfl
        | none =>
          obtain ⟨r', status, ht, he⟩ := runStream_takes { s with status := .running } i
            { r with started := true, calls := r.calls ++ made.map (·, .starting) }
          refine ⟨r', status, .begin hf hs made hm ht, ?_⟩
          simp only [he]
          have kept := s.handle_with r.bridge (Delivery.bodies r.pending) s.bridges .running
          simp only [kept]

end Service

end Live

end Fanout
