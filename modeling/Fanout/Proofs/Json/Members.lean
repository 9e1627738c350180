import Mathlib.Data.String.Basic
import Fanout.Json.Value

/-!
The members of an object ascend strictly by key, so each key stands once. Under a key a written
sequence counts for its last member, and ascending members are what they are read from.
-/

namespace Fanout.Json.Members

/-- Keys ascend strictly. -/
def Ascending (ms : Members) : Prop := ms.Pairwise (·.1 < ·.1)

instance (ms : Members) : Decidable (Ascending ms) :=
  inferInstanceAs (Decidable (ms.Pairwise (·.1 < ·.1)))

variable {ms : Members} {k : String} {v : Value}

theorem insertIfNew_of_lt (h : ∀ m ∈ ms, k < m.1) : insertIfNew k v ms = (k, v) :: ms := by
  cases ms with
  | nil => rfl
  | cons m ms => exact if_pos (h m List.mem_cons_self)

theorem mem_insertIfNew {m : String × Value} (h : m ∈ insertIfNew k v ms) :
    m = (k, v) ∨ m ∈ ms := by
  induction ms with
  | nil => exact .inl (List.mem_singleton.mp h)
  | cons first ms ih =>
    rw [insertIfNew] at h
    split_ifs at h with before taken
    · exact List.mem_cons.mp h
    · exact .inr h
    · rcases List.mem_cons.mp h with rfl | h
      · exact .inr List.mem_cons_self
      · exact (ih h).imp_right (List.mem_cons_of_mem first)

theorem Ascending.insertIfNew (h : Ascending ms) : Ascending (insertIfNew k v ms) := by
  induction ms with
  | nil => exact List.pairwise_singleton _ _
  | cons first ms ih =>
    obtain ⟨above, rest⟩ := List.pairwise_cons.mp h
    rw [Members.insertIfNew]
    split_ifs with before taken
    · refine List.pairwise_cons.mpr ⟨fun m hm => ?_, h⟩
      rcases List.mem_cons.mp hm with rfl | hm
      · exact before
      · exact before.trans (above m hm)
    · exact h
    · refine List.pairwise_cons.mpr ⟨fun m hm => ?_, ih rest⟩
      rcases mem_insertIfNew hm with rfl | hm
      · exact lt_of_le_of_ne (not_lt.mp before) (Ne.symm taken)
      · exact above m hm

theorem get?_nil (key : String) : get? [] key = none := rfl

theorem get?_cons (ms : Members) (k : String) (v : Value) (key : String) :
    get? ((k, v) :: ms) key = if key = k then some v else get? ms key := by
  rw [get?, get?, List.lookup_cons]
  by_cases h : key = k
  · simp [h]
  · simp [beq_false_of_ne h, h]

theorem get?_eq_none_iff {ms : Members} {key : String} :
    ms.get? key = none ↔ ∀ m ∈ ms, m.1 ≠ key := by
  rw [get?, List.lookup_eq_none_iff]
  refine forall₂_congr fun m _ => ?_
  rw [bne_iff_ne, ne_comm]

/-- A member that is added counts only where its key was not taken. -/
theorem Ascending.get?_insertIfNew (h : Ascending ms) (key : String) :
    (Members.insertIfNew k v ms).get? key = (ms.get? key).or (get? [(k, v)] key) := by
  induction ms with
  | nil => rfl
  | cons first ms ih =>
    obtain ⟨taken, w⟩ := first
    obtain ⟨above, rest⟩ := List.pairwise_cons.mp h
    rw [Members.insertIfNew]
    split_ifs with before same
    · have absent : get? ((taken, w) :: ms) k = none := by
        refine get?_eq_none_iff.mpr fun m hm => ne_of_gt ?_
        rcases List.mem_cons.mp hm with rfl | hm
        · exact before
        · exact before.trans (above m hm)
      by_cases hk : key = k
      · simp [get?_cons _ k, hk, absent]
      · simp [get?_cons _ k, get?_nil, hk]
    · by_cases hk : key = taken
      · simp [get?_cons, hk]
      · simp [get?_cons, get?_nil, same, hk]
    · by_cases hk : key = taken
      · simp [get?_cons, hk]
      · simp [get?_cons _ taken, hk, ih rest]

theorem ascending_ofList (l : List (String × Value)) : Ascending (ofList l) := by
  induction l with
  | nil => exact List.Pairwise.nil
  | cons m l ih => exact ih.insertIfNew

/-- Of the members under one key the last one counts. -/
theorem get?_ofList (l : List (String × Value)) (key : String) :
    (ofList l).get? key = get? l.reverse key := by
  induction l with
  | nil => rfl
  | cons m l ih =>
    calc (ofList (m :: l)).get? key
        = ((ofList l).get? key).or (get? [m] key) := (ascending_ofList l).get?_insertIfNew key
      _ = get? (l.reverse ++ [m]) key := by rw [ih, get?, get?, get?, List.lookup_append]
      _ = get? (m :: l).reverse key := by rw [List.reverse_cons]

theorem mem_ofList {l : List (String × Value)} {m : String × Value} (h : m ∈ ofList l) : m ∈ l := by
  induction l with
  | nil => exact h
  | cons first l ih =>
    rcases mem_insertIfNew h with rfl | h
    · exact List.mem_cons_self
    · exact List.mem_cons_of_mem first (ih h)

theorem key_mem_ofList {l : List (String × Value)} {m : String × Value} (h : m ∈ l) :
    ∃ n ∈ ofList l, n.1 = m.1 := by
  by_contra absent
  have nowhere : (ofList l).get? m.1 = none :=
    get?_eq_none_iff.mpr fun n hn same => absent ⟨n, hn, same⟩
  rw [get?_ofList, get?_eq_none_iff] at nowhere
  exact nowhere m (List.mem_reverse.mpr h) rfl

/-- Members that ascend already stay as they are. -/
theorem Ascending.ofList_eq (h : Ascending ms) : ofList ms = ms := by
  induction ms with
  | nil => rfl
  | cons m ms ih =>
    obtain ⟨above, rest⟩ := List.pairwise_cons.mp h
    calc ofList (m :: ms)
        = Members.insertIfNew m.1 m.2 (ofList ms) := rfl
      _ = Members.insertIfNew m.1 m.2 ms := by rw [ih rest]
      _ = m :: ms := insertIfNew_of_lt above

end Fanout.Json.Members
