import Mathlib.Data.Finset.Dedup
import Mathlib.Data.Finset.Card
import Fanout.Proofs.Live.Tally

/-!
Every connection is removed once, whoever gets there first. The connections that are still there are
those that no call took off, so the registry's size and the number of its tenants can be told from
the calls.
-/

namespace Fanout.Live

/-- What became of the calls for the removal of one connection, in order. -/
def outcomes (calls : List Removal) (i : Nat) : List Bool :=
  (calls.filter (·.target = some i)).map Removal.done

/-- A connection is still there just in case none of the calls did it. -/
theorem Called.true_mem_iff {g : List Removal} {c : Connection} (hg : Called g c) :
    true ∈ g.map Removal.done ↔ c.registered = false := by
  cases hr : c.registered with
  | true => simp [hg.present hr]
  | false =>
    obtain ⟨n, hd⟩ := hg.gone hr
    simp [hd]

namespace Service

variable (s : Service)

/-! ### Who is still there -/

theorem length_after (moves : List Move) :
    (s.after moves).connections.length = s.connections.length + s.registrations moves := by
  induction moves generalizing s with
  | nil => rfl
  | cons m rest ih =>
    have first : (s.perform m).connections.length = s.connections.length + (s.born m).length := by
      simp [connections_perform]
    have others := ih (s.perform m)
    rw [registrations]
    simp only [after, List.foldl_cons] at others ⊢
    omega

theorem journal_of_absent {α : Type} {note : Nat → Connection → Act → List α} {i : Nat}
    {moves : List Move} (hn : (s.after moves).connections[i]? = none) :
    s.journal note i moves = [] := by
  induction moves generalizing s with
  | nil => rfl
  | cons m rest ih =>
    have absent : s.connections[i]? = none := by
      have h := s.length_after (m :: rest)
      rw [List.getElem?_eq_none_iff] at hn ⊢
      omega
    rw [journal, entries, absent, ih (s.perform m) hn]
    rfl

theorem numbers_eq_filter (p : Connection → Bool) :
    s.numbers p = (List.range s.connections.length).filter fun i => (s.connections[i]?).any p := by
  unfold numbers
  induction s.connections using List.reverseRecOn with
  | nil => rfl
  | append_singleton l c ih =>
    have shorter : (List.range l.length).filter (fun i => ((l ++ [c])[i]?).any p) =
        (List.range l.length).filter fun i => (l[i]?).any p := by
      refine List.filter_congr fun i hi => ?_
      rw [List.getElem?_append_left (List.mem_range.mp hi)]
    rw [List.zipIdx_append, List.filter_append, List.map_append, ih, List.length_append,
      List.length_singleton, List.range_succ, List.filter_append, shorter]
    cases h : p c <;> simp [h]

theorem map_registry {β : Type} (f : Connection → β) :
    s.registry.map f =
      (s.numbers (·.registered)).filterMap fun i => (s.connections[i]?).map f := by
  let pairs := s.connections.zipIdx.filter fun x => x.1.registered
  have fst : pairs.map Prod.fst = s.registry := by
    have h := List.filter_map (f := Prod.fst) (p := Connection.registered)
      (l := s.connections.zipIdx)
    rw [List.zipIdx_map_fst] at h
    exact h.symm
  have found : ∀ x ∈ pairs, (s.connections[x.2]?).map f = some (f x.1) := by
    intro x hx
    rw [List.mem_zipIdx_iff_getElem?.mp (List.mem_filter.mp hx).1]
    rfl
  calc s.registry.map f
    _ = pairs.map fun x => f x.1 := by rw [← fst, List.map_map]; rfl
    _ = pairs.filterMap fun x => some (f x.1) := (congrFun List.filterMap_eq_map' pairs).symm
    _ = pairs.filterMap fun x => (s.connections[x.2]?).map f := (List.filterMap_congr found).symm
    _ = (s.numbers (·.registered)).filterMap fun i => (s.connections[i]?).map f := by
      rw [numbers, List.filterMap_map]
      rfl

theorem nodup_eraseDups {β : Type} [DecidableEq β] (l : List β) : l.eraseDups.Nodup := by
  match l with
  | [] => simp
  | a :: rest =>
    rw [List.eraseDups_cons, List.nodup_cons]
    refine ⟨?_, nodup_eraseDups _⟩
    simp [List.mem_eraseDups]
termination_by l.length
decreasing_by exact Nat.lt_succ_of_le (List.length_filter_le _ _)

theorem tenants_eq_card :
    s.tenants = (s.registry.map (·.bearer.tenant)).toFinset.card := by
  have same : (s.registry.map (·.bearer.tenant)).eraseDups.toFinset =
      (s.registry.map (·.bearer.tenant)).toFinset := by
    ext x
    simp [List.mem_eraseDups]
  rw [← same, List.toFinset_card_of_nodup (nodup_eraseDups _), tenants]

/-! ### The calls for one connection -/

variable {s} {t : Tuning} {moves : List Move} {i : Nat} {c : Connection}

theorem called_of_run (hc : ((start t).after moves).connections[i]? = some c) :
    Called (((start t).removals moves).filter (·.target = some i)) c := by
  rw [filter_removals]
  refine run_journal_keep (P := Called) ?_ (fun _ g c a _ hg => hg.act a) (allows_any moves) hc
  intro who sink watch
  exact ⟨fun _ => rfl, nofun⟩

/-- The first call does it and all others do nothing. -/
theorem outcomes_of_run (t : Tuning) (moves : List Move) (i : Nat) :
    outcomes ((start t).removals moves) i = [] ∨
      ∃ n, outcomes ((start t).removals moves) i = true :: List.replicate n false := by
  cases hc : ((start t).after moves).connections[i]? with
  | none =>
    left
    rw [outcomes, filter_removals, journal_of_absent _ hc]
    rfl
  | some c =>
    have called := called_of_run hc
    cases hr : c.registered with
    | true => exact .inl (by rw [outcomes, called.present hr]; rfl)
    | false => exact .inr (called.gone hr)

/-- The connections still there are those that no call took off. -/
theorem present_eq_numbers (t : Tuning) (moves : List Move) :
    (List.range ((start t).after moves).connections.length).filter
      (fun i => true ∉ outcomes ((start t).removals moves) i) =
        ((start t).after moves).numbers (·.registered) := by
  rw [numbers_eq_filter]
  refine List.filter_congr fun i hi => ?_
  obtain ⟨c, hc⟩ : ∃ c, ((start t).after moves).connections[i]? = some c :=
    ⟨_, List.getElem?_eq_getElem (List.mem_range.mp hi)⟩
  have hm : true ∈ outcomes ((start t).removals moves) i ↔ c.registered = false :=
    (called_of_run hc).true_mem_iff
  simp [hm, hc]

/-! ### One more call -/

theorem remove_fst (s : Service) (i : Nat) :
    (s.remove i).1 = decide (i ∈ s.numbers (·.registered)) := by
  have there : i ∈ s.numbers (·.registered) ↔ (s.connections[i]?).any (·.registered) := by
    rw [mem_numbers]
    cases s.connections[i]? <;> simp
  unfold remove
  cases hc : s.connections[i]? with
  | none => simp [there, hc]
  | some c => cases hr : c.registered <;> simp [there, hc, hr]

theorem remove_snd_of_not (h : (s.remove i).1 = false) : (s.remove i).2 = s := by
  unfold remove at h ⊢
  cases hc : s.connections[i]? with
  | none => rfl
  | some c => cases hr : c.registered <;> simp_all

theorem remove_of_not_mem_numbers (hc : s.connections[i]? = some c)
    (hi : i ∉ s.numbers (·.registered)) : c.remove = c := by
  refine Connection.remove_of_not_registered ?_
  cases hr : c.registered with
  | true => exact absurd (mem_numbers.mpr ⟨c, hc, hr⟩) hi
  | false => rfl

end Service

/-- In every run, whoever calls for removals, in any order and as often as they like: of the calls
for one connection the first does it and all others do nothing, and a call for a connection that is
not there does nothing. So the connections registered are those still there and one for every call
that did it; and the evictions that the broadcasts report are the calls by which broadcasts did it.
The size of the registry and the number of its tenants are those of the connections that no call
took off. -/
theorem removed_once (t : Tuning) (moves : List Move) :
    let s := (Service.start t).after moves
    let calls := (Service.start t).removals moves
    let present := (List.range s.connections.length).filter fun i => true ∉ outcomes calls i
    (∀ i, outcomes calls i = [] ∨ ∃ n, outcomes calls i = true :: List.replicate n false) ∧
      (∀ x ∈ calls, x.target = none → x.done = false) ∧
      (∀ i, (s.remove i).1 = decide (i ∈ present) ∧ (i ∉ present → (s.remove i).2 = s)) ∧
      (∀ i c, s.connections[i]? = some c → i ∉ present → c.remove = c) ∧
      (Service.start t).registrations moves = s.connections.length ∧
      (Service.start t).registrations moves = s.size + calls.countP (·.done) ∧
      (((Service.start t).reports moves).map Report.evicted).sum =
        calls.countP (fun x => x.done && x.origin == .broadcast) ∧
      s.size = present.length ∧
      s.tenants =
        (present.filterMap fun i => (s.connections[i]?).map (·.bearer.tenant)).toFinset.card := by
  intro s calls present
  have there : present = s.numbers (·.registered) := Service.present_eq_numbers t moves
  have length := (Service.start t).length_after moves
  have total := (Service.start t).registrations_eq moves
  rw [there]
  refine ⟨Service.outcomes_of_run t moves, fun x hx => Service.done_of_stray hx, ?_, ?_, ?_, ?_,
    (Service.start t).evicted_reports moves, ?_, ?_⟩
  · intro i
    have removed := s.remove_fst i
    refine ⟨removed, fun hi => Service.remove_snd_of_not ?_⟩
    simpa [hi] using removed
  · intro i c hc hi
    exact Service.remove_of_not_mem_numbers hc hi
  · exact (length.trans (Nat.zero_add _)).symm
  · exact (Nat.zero_add _).symm.trans total
  · rw [s.length_numbers, s.size_eq]
  · rw [← s.map_registry, s.tenants_eq_card]

end Fanout.Live
