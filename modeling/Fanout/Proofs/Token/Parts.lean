import Mathlib.Data.List.TakeWhile
import Fanout.Token.Basic

/-!
How a token comes apart. It is cut at its last two dots, so its parts are those that make it up and
of which the last two hold no dot.
-/

namespace Fanout.Token

theorem splitLast?_append {front last : List Char} (h : '.' ∉ last) :
    splitLast? (front ++ '.' :: last) = some (front, last) := by
  have plain : ∀ c ∈ last.reverse, (c != '.') = true := by
    intro c hc
    rw [bne_iff_ne]
    rintro rfl
    exact h (List.mem_reverse.mp hc)
  simp [splitLast?, List.dropWhile_append_of_pos plain, List.takeWhile_append_of_pos plain]

theorem eq_append_of_splitLast? {l front last : List Char} (h : splitLast? l = some (front, last)) :
    l = front ++ '.' :: last ∧ '.' ∉ last := by
  rw [splitLast?] at h
  split at h
  next => cases h
  next dot rest rear =>
    obtain ⟨rfl, rfl⟩ := Prod.mk.inj (Option.some_inj.mp h)
    have stop := List.head_dropWhile_not (· != '.') (w := by rw [rear]; exact List.cons_ne_nil _ _)
    simp only [rear, List.head_cons, bne_eq_false_iff_eq] at stop
    subst stop
    constructor
    · have whole := List.takeWhile_append_dropWhile (p := (· != '.')) (l := l.reverse)
      rw [rear] at whole
      simpa using (congrArg List.reverse whole).symm
    · intro inside
      simpa using List.mem_takeWhile_imp (List.mem_reverse.mp inside)

theorem splitLast?_eq_some_iff {l front last : List Char} :
    splitLast? l = some (front, last) ↔ l = front ++ '.' :: last ∧ '.' ∉ last := by
  constructor
  · exact eq_append_of_splitLast?
  · rintro ⟨rfl, plain⟩
    exact splitLast?_append plain

/-- The last two parts hold no dot. -/
def Parts.Apart (p : Parts) : Prop := '.' ∉ p.payload.toList ∧ '.' ∉ p.signature.toList

instance (p : Parts) : Decidable p.Apart := inferInstanceAs (Decidable (_ ∧ _))

theorem Parts.toList_text (p : Parts) :
    p.text.toList =
      (p.header.toList ++ '.' :: p.payload.toList) ++ '.' :: p.signature.toList := by
  simp [Parts.text, Parts.signed]

/-- A token has the parts that make it up, provided that they are apart. -/
theorem parts?_eq_some_iff {token : String} {p : Parts} :
    parts? token = some p ↔ token = p.text ∧ p.Apart := by
  have lists : token = p.text ↔ token.toList =
      (p.header.toList ++ '.' :: p.payload.toList) ++ '.' :: p.signature.toList := by
    rw [← Parts.toList_text, String.toList_inj]
  rw [lists, Parts.Apart]
  constructor
  · intro cut
    obtain ⟨⟨front, signature⟩, outer, rest⟩ := Option.bind_eq_some_iff.mp cut
    obtain ⟨⟨header, payload⟩, inner, made⟩ := Option.bind_eq_some_iff.mp rest
    obtain rfl := Option.some_inj.mp made
    obtain ⟨whole, noDot⟩ := splitLast?_eq_some_iff.mp outer
    obtain ⟨rfl, noDot'⟩ := splitLast?_eq_some_iff.mp inner
    simpa using ⟨by simpa using whole, noDot', noDot⟩
  · rintro ⟨whole, noDot, noDot'⟩
    have outer := splitLast?_eq_some_iff.mpr ⟨whole, noDot'⟩
    have inner := splitLast?_eq_some_iff.mpr
      ⟨(rfl : p.header.toList ++ '.' :: p.payload.toList = _), noDot⟩
    simp [parts?, outer, inner]

end Fanout.Token
