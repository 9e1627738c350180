import Mathlib.Algebra.GroupWithZero.Nat
import Mathlib.Data.List.Induction
import Fanout.Proofs.Live.Removal

/-!
The calls for removals that a run makes, the connections that it registers and the reports of its
broadcasts. A connection that is registered is still there or one call took it off, and a report
counts the calls by which its broadcast did.
-/

namespace Fanout.Live

/-! ### Lists with an entry for each connection -/

section Indexed

variable {α β : Type} (p : β → Bool) (q : α → Bool)

/-- Entries that name their place are found there. -/
theorem filter_flatten_mapIdx {l : List β} {g : Nat → β → List α} {target : α → Option Nat}
    (hg : ∀ i c, ∀ x ∈ g i c, target x = some i) (i : Nat) :
    (l.mapIdx g).flatten.filter (target · = some i) = (l[i]?.map (g i)).getD [] := by
  induction l using List.reverseRecOn with
  | nil => simp
  | append_singleton l a ih =>
    have last : (g l.length a).filter (target · = some i) =
        if l.length = i then g i a else [] := by
      split
      · next h =>
        subst h
        exact List.filter_eq_self.mpr fun x hx => by simpa using hg _ a x hx
      · next h =>
        rw [List.filter_eq_nil_iff]
        intro x hx
        simpa [hg _ a x hx] using h
    rw [List.mapIdx_append, List.flatten_append, List.filter_append, ih]
    simp only [List.mapIdx_cons, List.mapIdx_nil, Nat.zero_add, List.flatten_cons,
      List.flatten_nil, List.append_nil, last]
    rcases Nat.lt_trichotomy i l.length with h | h | h
    · rw [List.getElem?_append_left h, if_neg (by omega), List.append_nil]
    · simp [h]
    · rw [List.getElem?_append_right (by omega), if_neg (by omega)]
      simp [Nat.le_of_lt h, show i - l.length ≠ 0 by omega]

theorem if_toNat (b : Bool) : (if b = true then 1 else 0) = b.toNat := by
  cases b <;> rfl

theorem countP_mapIdx_add {l : List β} {f : Nat → β → β} {g : Nat → β → List α}
    (h : ∀ i c, (p (f i c)).toNat + (g i c).countP q = (p c).toNat) :
    (l.mapIdx f).countP p + (l.mapIdx g).flatten.countP q = l.countP p := by
  induction l generalizing f g with
  | nil => rfl
  | cons a rest ih =>
    have first := h 0 a
    have others := ih (f := fun i => f (i + 1)) (g := fun i => g (i + 1)) fun i => h (i + 1)
    simp only [List.mapIdx_cons, List.flatten_cons, List.countP_append, List.countP_cons]
    rw [if_toNat, if_toNat]
    omega

theorem countP_mapIdx_eq {l : List β} {g : Nat → β → List α}
    (h : ∀ i c, (g i c).countP q = (p c).toNat) :
    (l.mapIdx g).flatten.countP q = l.countP p := by
  induction l generalizing g with
  | nil => rfl
  | cons a rest ih =>
    have first := h 0 a
    have others := ih (g := fun i => g (i + 1)) fun i => h (i + 1)
    simp only [List.mapIdx_cons, List.flatten_cons, List.countP_append, List.countP_cons]
    rw [if_toNat]
    omega

theorem countP_mapIdx_append {l : List β} {f : β → β} {g h : Nat → β → List α} :
    (l.mapIdx fun i c => g i c ++ h i (f c)).flatten.countP q =
      (l.mapIdx g).flatten.countP q + ((l.map f).mapIdx h).flatten.countP q := by
  induction l generalizing g h with
  | nil => rfl
  | cons a rest ih =>
    have others := ih (g := fun i => g (i + 1)) (h := fun i => h (i + 1))
    simp only [List.mapIdx_cons, List.map_cons, List.flatten_cons, List.countP_append]
    omega

end Indexed

namespace Service

/-! ### The calls, the registrations and the reports of a run -/

/-- A call for a connection that was never there. -/
def strays (s : Service) : Move → List Removal
  | .remove i => if i < s.connections.length then [] else [⟨none, .caller, false⟩]
  | _ => []

/-- The calls for a removal that a move makes. -/
def removalsAt (s : Service) (m : Move) : List Removal :=
  (s.connections.mapIdx fun i c =>
    c.journal (Connection.removals s.tuning i) s.tuning (s.acts i c m)).flatten ++ s.strays m

def removals (s : Service) : List Move → List Removal
  | [] => []
  | m :: rest => s.removalsAt m ++ (s.perform m).removals rest

/-- How many connections a run registers. -/
def registrations (s : Service) : List Move → Nat
  | [] => 0
  | m :: rest => (s.born m).length + (s.perform m).registrations rest

/-- The reports of bodies handed over one after another. -/
def reportsOf (s : Service) (b : Bridge) : List Octets → List Report
  | [] => []
  | body :: rest => (s.dispatch b body).1.toList ++ (s.dispatch b body).2.reportsOf b rest

/-- The reports of the broadcasts that a move makes. -/
def reportsAt (s : Service) : Move → List Report
  | .broadcast body tag => [(s.broadcast body tag).1]
  | .hand b body => (s.dispatch b body).1.toList
  | .play b broker => s.reportsOf b (b.handed broker)
  | .turn (.bridge j) =>
    match s.bridges[j]? with
    | none => []
    | some r => s.reportsOf r.bridge r.handed
  | _ => []

def reports (s : Service) : List Move → List Report
  | [] => []
  | m :: rest => s.reportsAt m ++ (s.perform m).reports rest

variable (s : Service)

theorem strays_cases (m : Move) : s.strays m = [] ∨ s.strays m = [⟨none, .caller, false⟩] := by
  cases m with
  | remove i =>
    simp only [strays]
    split
    · exact .inl rfl
    · exact .inr rfl
  | _ => exact .inl rfl

theorem filter_removalsAt (i : Nat) (m : Move) :
    (s.removalsAt m).filter (·.target = some i) =
      s.entries (fun _ => Connection.removals s.tuning i) i m := by
  have own (i : Nat) (c : Connection) : ∀ x ∈ c.journal (Connection.removals s.tuning i) s.tuning
      (s.acts i c m), x.target = some i :=
    Connection.target_of_mem_journal _
  have stray : (s.strays m).filter (·.target = some i) = [] := by
    obtain h | h := s.strays_cases m <;> simp [h]
  rw [removalsAt, List.filter_append, stray, List.append_nil, filter_flatten_mapIdx own, entries]
  cases s.connections[i]? <;> rfl

theorem done_of_stray {s : Service} {moves : List Move} {x : Removal} (hx : x ∈ s.removals moves)
    (ht : x.target = none) : x.done = false := by
  induction moves generalizing s with
  | nil => cases hx
  | cons m rest ih =>
    rw [removals, removalsAt, List.mem_append, List.mem_append] at hx
    rcases hx with (hx | hx) | hx
    · obtain ⟨l, hl, hx⟩ := List.mem_flatten.mp hx
      obtain ⟨i, hi, rfl⟩ := List.mem_mapIdx.mp hl
      rw [Connection.target_of_mem_journal _ x hx] at ht
      cases ht
    · obtain h | h := s.strays_cases m
      · simp [h] at hx
      · rw [h, List.mem_singleton] at hx
        rw [hx]
    · exact ih hx

theorem filter_removals (i : Nat) (moves : List Move) :
    (s.removals moves).filter (·.target = some i) =
      s.journal (fun _ => Connection.removals s.tuning i) i moves := by
  have go (t : Tuning) (s : Service) (ht : s.tuning = t) :
      (s.removals moves).filter (·.target = some i) =
        s.journal (fun _ => Connection.removals t i) i moves := by
    induction moves generalizing s with
    | nil => rfl
    | cons m rest ih =>
      rw [removals, List.filter_append, filter_removalsAt, ih _ ((s.tuning_perform m).trans ht), ht]
      rfl
  exact go s.tuning s rfl

theorem countP_strays (q : Removal → Bool) (hq : q ⟨none, .caller, false⟩ = false) (m : Move) :
    (s.removalsAt m).countP q =
      (s.connections.mapIdx fun i c =>
        c.journal (Connection.removals s.tuning i) s.tuning (s.acts i c m)).flatten.countP q := by
  have stray : (s.strays m).countP q = 0 := by
    obtain h | h := s.strays_cases m <;> simp [h, hq]
  rw [removalsAt, List.countP_append, stray, Nat.add_zero]

theorem size_eq (s : Service) : s.size = s.connections.countP (·.registered) :=
  List.countP_eq_length_filter.symm

theorem size_perform (m : Move) :
    (s.perform m).size + (s.removalsAt m).countP (·.done) = s.size + (s.born m).length := by
  have born : (s.born m).countP (·.registered) = (s.born m).length := by
    rw [List.countP_eq_length]
    intro c hc
    cases m with
    | register who sink reads =>
      simp only [Service.born] at hc
      split at hc
      · cases hc
      · rw [List.mem_singleton.mp hc]
    | _ => cases hc
  have kept := countP_mapIdx_add (l := s.connections) (fun c => c.registered)
    (fun x : Removal => x.done) fun i c => Connection.registered_acts (t := s.tuning) i (s.acts i c m) c
  rw [size_eq, size_eq, countP_strays _ _ rfl, connections_perform, List.countP_append, born]
  omega

theorem registrations_eq (moves : List Move) :
    s.size + s.registrations moves =
      (s.after moves).size + (s.removals moves).countP (·.done) := by
  induction moves generalizing s with
  | nil => rfl
  | cons m rest ih =>
    have first := s.size_perform m
    have others := ih (s.perform m)
    rw [registrations, removals, List.countP_append]
    simp only [after, List.foldl_cons] at others ⊢
    omega

/-! ### Evictions -/

theorem evicted_broadcast (body : Octets) (tag : Tenant) :
    (s.broadcast body tag).1.evicted =
      s.connections.countP fun c => c.isTarget tag && !c.accepts s.tuning.capacity :=
  s.length_numbers _

theorem countP_eviction (t : Tuning) (i : Nat) (tag : Tenant) (c : Connection) :
    (c.eviction t i tag).countP Removal.isEviction =
      (c.isTarget tag && !c.accepts t.capacity).toNat := by
  unfold Connection.eviction
  cases ht : c.isTarget tag && !c.accepts t.capacity with
  | false => rfl
  | true =>
    have hr : c.registered := by
      have := (Bool.and_eq_true_iff.mp ht).1
      exact (Bool.and_eq_true_iff.mp this).1
    simp [Removal.isEviction, hr]

theorem countP_journal_silent {t : Tuning} {i : Nat} {l : List Act} (h : ∀ a ∈ l, a.isSilent)
    {c : Connection} :
    (c.journal (Connection.removals t i) t l).countP Removal.isEviction = 0 := by
  induction l generalizing c with
  | nil => rfl
  | cons a rest ih =>
    have first : (c.removals t i a).countP Removal.isEviction = 0 := by
      have ha : a.isSilent := h a List.mem_cons_self
      cases a with
      | broadcast body tag => cases ha
      | hand b body => cases ha
      | remove => simp [Connection.removals, Removal.isEviction]
      | write now =>
        simp only [Connection.removals]
        split <;> simp [Removal.isEviction]
      | read =>
        simp only [Connection.removals]
        split <;> simp [Removal.isEviction]
      | deliver _ | behave _ | receive _ | cut | fetch => rfl
    rw [Connection.journal, List.countP_append, first,
      ih fun b hb => h b (List.mem_cons_of_mem a hb)]

theorem report_dispatch (b : Bridge) (body : Octets) :
    (s.dispatch b body).1 = (b.audience? body).map fun tag => (s.broadcast body tag).1 := by
  unfold dispatch Bridge.audience?
  cases Event.Scope.ofOctets body with
  | tenant tag => rfl
  | untagged reason => cases b.policy <;> rfl

theorem evicted_dispatch (b : Bridge) (body : Octets) :
    ((s.dispatch b body).1.toList.map Report.evicted).sum =
      (s.connections.mapIdx fun i c =>
        c.removals s.tuning i (.hand b body)).flatten.countP Removal.isEviction := by
  rw [report_dispatch]
  simp only [Connection.removals]
  cases b.audience? body with
  | none =>
    rw [countP_mapIdx_eq (fun _ => false) _ fun i c => rfl]
    simp
  | some tag =>
    rw [countP_mapIdx_eq _ _ fun i c => countP_eviction s.tuning i tag c]
    simp [evicted_broadcast]

theorem evicted_reportsOf (b : Bridge) (bodies : List Octets) :
    ((s.reportsOf b bodies).map Report.evicted).sum =
      (s.connections.mapIdx fun i c => c.journal (Connection.removals s.tuning i) s.tuning
        (bodies.map (.hand b))).flatten.countP Removal.isEviction := by
  induction bodies generalizing s with
  | nil =>
    rw [countP_mapIdx_eq (fun _ => false) _ fun i c => rfl]
    simp [reportsOf]
  | cons body rest ih =>
    have first := s.evicted_dispatch b body
    have others := ih (s.dispatch b body).2
    rw [connections_dispatch, (s.keeps_dispatch b body).tuning] at others
    rw [reportsOf, List.map_append, List.sum_append, first, others]
    exact (countP_mapIdx_append _).symm

theorem evicted_reportsAt (m : Move) :
    ((s.reportsAt m).map Report.evicted).sum = (s.removalsAt m).countP Removal.isEviction := by
  rw [countP_strays _ _ rfl]
  have silent (h : ∀ i c, ∀ a ∈ s.acts i c m, a.isSilent) :
      0 = (s.connections.mapIdx fun i c => c.journal (Connection.removals s.tuning i) s.tuning
        (s.acts i c m)).flatten.countP Removal.isEviction := by
    rw [countP_mapIdx_eq (fun _ => false) _ fun i c => countP_journal_silent (h i c)]
    simp
  cases m with
  | broadcast body tag =>
    have one (i : Nat) (c : Connection) : (c.journal (Connection.removals s.tuning i) s.tuning
        [.broadcast body tag]).countP Removal.isEviction =
          (c.isTarget tag && !c.accepts s.tuning.capacity).toNat := by
      simpa [Connection.journal, Connection.removals] using countP_eviction s.tuning i tag c
    simp only [acts]
    rw [countP_mapIdx_eq _ _ one]
    simp [reportsAt, evicted_broadcast]
  | hand b body =>
    simpa only [reportsAt, acts, Connection.journal, List.append_nil] using s.evicted_dispatch b body
  | play b broker => exact s.evicted_reportsOf b _
  | turn task =>
    cases task with
    | bridge j =>
      simp only [reportsAt, acts]
      cases s.bridges[j]? with
      | none => exact s.evicted_reportsOf {} []
      | some r => exact s.evicted_reportsOf r.bridge _
    | writer j | reader j =>
      refine silent fun i c a ha => ?_
      cases brings_of_mem_acts ha
      rfl
  | remove _ | deliver _ _ | behave _ _ | receive _ _ | cutOff _ | fetch _ =>
    refine silent fun i c a ha => ?_
    cases brings_of_mem_acts ha <;> rfl
  | register _ _ _ | spawn _ _ | feed _ _ _ | wake _ | tick _ | setStatus _ =>
    refine silent fun i c a ha => ?_
    cases ha

theorem evicted_reports (moves : List Move) :
    ((s.reports moves).map Report.evicted).sum = (s.removals moves).countP Removal.isEviction := by
  induction moves generalizing s with
  | nil => rfl
  | cons m rest ih =>
    rw [reports, removals, List.map_append, List.sum_append, List.countP_append,
      evicted_reportsAt, ih]

end Service

end Fanout.Live
