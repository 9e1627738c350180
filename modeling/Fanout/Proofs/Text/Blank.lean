import Fanout.Text.Blank
import Mathlib.Data.List.DropRight

/-!
What a text says between the blanks at its ends.
-/

namespace Fanout.Text

/-- A text with blanks around its core. The core may begin or end with further blanks. -/
def Framed (core s : String) : Prop :=
  ∃ before after : List Char, s.toList = before ++ core.toList ++ after ∧
    (∀ c ∈ before, isBlank c) ∧ ∀ c ∈ after, isBlank c

/-- No blank stands at either end. -/
def Tight (s : String) : Prop :=
  (∀ c ∈ s.toList.head?, isBlank c = false) ∧ ∀ c ∈ s.toList.getLast?, isBlank c = false

section Lists

variable {l core before after : List Char} {p : Char → Bool}

theorem dropWhile_eq_self_iff_head : l.dropWhile p = l ↔ ∀ c ∈ l.head?, p c = false := by
  rw [List.dropWhile_eq_self_iff]
  cases l <;> simp

theorem rdropWhile_eq_self_iff_getLast :
    l.rdropWhile p = l ↔ ∀ c ∈ l.getLast?, p c = false := by
  rw [← List.head?_reverse, ← dropWhile_eq_self_iff_head, List.rdropWhile, List.reverse_eq_iff]

theorem trimmed_eq (l : List Char) : trimmed l = (l.dropWhile isBlank).rdropWhile isBlank := rfl

theorem exists_frame (l : List Char) :
    ∃ before after, l = before ++ trimmed l ++ after ∧ (∀ c ∈ before, isBlank c) ∧
      ∀ c ∈ after, isBlank c := by
  refine ⟨l.takeWhile isBlank, (l.dropWhile isBlank).rtakeWhile isBlank, ?_,
    fun c => List.mem_takeWhile_imp, fun c => List.mem_rtakeWhile_imp⟩
  rw [List.append_assoc, trimmed_eq, List.rdropWhile_append_rtakeWhile,
    List.takeWhile_append_dropWhile]

theorem rdropWhile_trimmed (l : List Char) : (trimmed l).rdropWhile isBlank = trimmed l := by
  rw [trimmed_eq, List.rdropWhile_idempotent]

theorem dropWhile_trimmed (l : List Char) : (trimmed l).dropWhile isBlank = trimmed l := by
  have front : ∀ c ∈ (l.dropWhile isBlank).head?, isBlank c = false :=
    dropWhile_eq_self_iff_head.mp (List.dropWhile_idempotent ..)
  rw [dropWhile_eq_self_iff_head]
  intro c first
  obtain ⟨cut, same⟩ : trimmed l <+: l.dropWhile isBlank := List.rdropWhile_prefix isBlank _
  refine front c ?_
  rw [← same, List.head?_append, first]
  rfl

/-- Blanks at the ends are cut off; a core that neither begins nor ends with one stays. -/
theorem trimmed_of_frame (hb : ∀ c ∈ before, isBlank c) (ha : ∀ c ∈ after, isBlank c)
    (first : core.dropWhile isBlank = core) (last : core.rdropWhile isBlank = core) :
    trimmed (before ++ core ++ after) = core := by
  have back : (core ++ after).rdropWhile isBlank = core := by
    have blank : ∀ c ∈ after.reverse, isBlank c := fun c hc => ha c (List.mem_reverse.mp hc)
    rw [List.rdropWhile, List.reverse_append, List.dropWhile_append_of_pos blank]
    exact last
  rw [trimmed_eq, List.append_assoc, List.dropWhile_append_of_pos hb]
  cases core with
  | nil => rw [List.nil_append, List.dropWhile_eq_nil_iff.mpr ha, List.rdropWhile_nil]
  | cons c rest =>
    have mark : isBlank c = false := dropWhile_eq_self_iff_head.mp first c rfl
    rwa [List.cons_append, List.dropWhile_cons_of_neg (by simp [mark])]

end Lists

variable {s core : String}

/-- What remains of a text is its core that has no blanks at its ends. -/
theorem trim_eq_iff : trim s = core ↔ Framed core s ∧ Tight core := by
  have tight : Tight core ↔
      core.toList.dropWhile isBlank = core.toList ∧ core.toList.rdropWhile isBlank = core.toList :=
    and_congr dropWhile_eq_self_iff_head.symm rdropWhile_eq_self_iff_getLast.symm
  constructor
  · rintro rfl
    rw [tight, Framed, trim, String.toList_ofList]
    exact ⟨exists_frame s.toList, dropWhile_trimmed s.toList, rdropWhile_trimmed s.toList⟩
  · rintro ⟨⟨before, after, same, hb, ha⟩, ends⟩
    have stays := trimmed_of_frame hb ha (tight.mp ends).1 (tight.mp ends).2
    rw [trim, same, stays, String.ofList_toList]

theorem framed_trim (s : String) : Framed (trim s) s := (trim_eq_iff.mp rfl).1

theorem tight_trim (s : String) : Tight (trim s) := (trim_eq_iff.mp rfl).2

theorem tight_iff_trim_eq : Tight s ↔ trim s = s :=
  ⟨fun h => trim_eq_iff.mpr ⟨⟨[], [], by simp⟩, h⟩, fun h => (trim_eq_iff.mp h).2⟩

instance : Decidable (Tight s) := decidable_of_iff _ tight_iff_trim_eq.symm

end Fanout.Text
