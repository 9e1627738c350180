import Fanout.Json.Content
import Fanout.Proofs.Json.Entries

/-!
Terms that mean what they say. A term is literal if no object in it begins like a quotation. What has
contents in range has a value then, and the value is a string just if the term is one. An object is
read to its closing brace, and nothing but blanks may stand behind it.
-/

namespace Fanout.Json

open Reader

/-! ### Contents -/

namespace Term

variable {d : Nat} {t : Term}

theorem areContent_iff {ts : List Term} : areContent d ts ↔ ∀ t ∈ ts, t.isContent d := by
  induction ts with
  | nil => simp [areContent]
  | cons t ts ih => simp [areContent, ih]

theorem membersAreContent_iff {ms : List (List Mark × Term)} :
    membersAreContent d ms ↔ ∀ m ∈ ms, (Mark.text? m.1).isSome ∧ m.2.isContent d := by
  induction ms with
  | nil => simp [membersAreContent]
  | cons m ms ih => simp [membersAreContent, ih]

theorem itemsDepth_le_iff {ts : List Term} : itemsDepth ts ≤ d ↔ ∀ t ∈ ts, t.depth ≤ d := by
  induction ts with
  | nil => simp [itemsDepth]
  | cons t ts ih => simp [itemsDepth_cons_le_iff, ih]

theorem membersDepth_le_iff {ms : List (List Mark × Term)} :
    membersDepth ms ≤ d ↔ ∀ m ∈ ms, m.2.depth ≤ d := by
  induction ms with
  | nil => simp [membersDepth]
  | cons m ms ih =>
    rw [List.forall_mem_cons, ← ih]
    exact membersDepth_cons_le_iff

theorem depth_le_of_isContent (h : t.isContent d) : t.depth ≤ d := by
  induction t using Term.induction generalizing d with
  | null | bool b | number n | string marks => exact Nat.zero_le d
  | array items ih =>
    cases d with
    | zero => cases h
    | succ d =>
      have parts := areContent_iff.mp h
      apply Nat.succ_le_succ
      apply itemsDepth_le_iff.mpr
      intro t ht
      exact ih t ht (parts t ht)
  | object ms ih =>
    cases d with
    | zero => cases h
    | succ d =>
      have parts := membersAreContent_iff.mp h
      apply Nat.succ_le_succ
      apply membersDepth_le_iff.mpr
      intro m hm
      exact ih m hm (parts m hm).2

/-- The keys of contents are text. -/
theorem exists_members?_of_content {ms : List (List Mark × Term)} (h : membersAreContent d ms) :
    ∃ l, (object ms).members? = some l := by
  induction ms with
  | nil => exact ⟨[], rfl⟩
  | cons m ms ih =>
    obtain ⟨first, others⟩ := List.forall_mem_cons.mp (membersAreContent_iff.mp h)
    obtain ⟨k, name⟩ := Option.isSome_iff_exists.mp first.1
    obtain ⟨l, rest⟩ := ih (membersAreContent_iff.mpr others)
    exact ⟨(k, m.2) :: l, members?_cons_eq_some_iff.mpr ⟨k, l, name, rest, rfl⟩⟩

theorem exists_mem_of_members? {ms : List (List Mark × Term)} {l : List (String × Term)}
    (h : (object ms).members? = some l) {m : String × Term} (hm : m ∈ l) :
    ∃ n ∈ ms, n.2 = m.2 := by
  induction ms generalizing l with
  | nil =>
    obtain rfl : [] = l := by simpa [members?] using h
    cases hm
  | cons n ms ih =>
    obtain ⟨k, rest, -, others, rfl⟩ := members?_cons_eq_some_iff.mp h
    rcases List.mem_cons.mp hm with rfl | hm
    · exact ⟨n, List.mem_cons_self, rfl⟩
    · obtain ⟨n', hn', same⟩ := ih others hm
      exact ⟨n', List.mem_cons_of_mem n hn', same⟩

end Term

theorem mem_of_lookup_reverse {α : Type} {l : List (String × α)} {key : String} {a : α}
    (h : l.reverse.lookup key = some a) : (key, a) ∈ l := by
  obtain ⟨before, after, split, -⟩ := List.lookup_eq_some_iff.mp h
  rw [← List.mem_reverse, split]
  simp

/-! ### Literal terms -/

mutual

/-- Whether no object in a term begins like a quotation. -/
def Term.isLiteral : Term → Bool
  | .null | .bool _ | .number _ | .string _ => true
  | .array items => Term.areLiteral items
  | .object members => !isQuotation members && Term.membersAreLiteral members

def Term.areLiteral : List Term → Bool
  | [] => true
  | t :: ts => Term.isLiteral t && Term.areLiteral ts

def Term.membersAreLiteral : List (List Mark × Term) → Bool
  | [] => true
  | (_, t) :: ms => Term.isLiteral t && Term.membersAreLiteral ms

end

namespace Term

variable {d : Nat} {t : Term} {quoted : Octets → Option Value}

theorem areLiteral_iff {ts : List Term} : areLiteral ts ↔ ∀ t ∈ ts, t.isLiteral := by
  induction ts with
  | nil => simp [areLiteral]
  | cons t ts ih => simp [areLiteral, ih]

theorem membersAreLiteral_iff {ms : List (List Mark × Term)} :
    membersAreLiteral ms ↔ ∀ m ∈ ms, m.2.isLiteral := by
  induction ms with
  | nil => simp [membersAreLiteral]
  | cons m ms ih => simp [membersAreLiteral, ih]

theorem isLiteral_object_iff {ms : List (List Mark × Term)} :
    (object ms).isLiteral ↔ isQuotation ms = false ∧ ∀ m ∈ ms, m.2.isLiteral := by
  rw [isLiteral, Bool.and_eq_true, Bool.not_eq_true', membersAreLiteral_iff]

theorem isSome_valuesWith? {ts : List Term} (h : ∀ t ∈ ts, (t.valueWith? quoted).isSome) :
    (valuesWith? quoted ts).isSome := by
  induction ts with
  | nil => rfl
  | cons t ts ih =>
    obtain ⟨first, others⟩ := List.forall_mem_cons.mp h
    obtain ⟨v, hv⟩ := Option.isSome_iff_exists.mp first
    simp [valuesWith?, hv, ih others]

theorem isSome_entriesWith? {ms : List (List Mark × Term)}
    (h : ∀ m ∈ ms, (Mark.text? m.1).isSome ∧ (m.2.valueWith? quoted).isSome) :
    (entriesWith? quoted ms).isSome := by
  induction ms with
  | nil => rfl
  | cons m ms ih =>
    obtain ⟨⟨name, first⟩, others⟩ := List.forall_mem_cons.mp h
    obtain ⟨k, hk⟩ := Option.isSome_iff_exists.mp name
    obtain ⟨v, hv⟩ := Option.isSome_iff_exists.mp first
    simp [entriesWith?, hk, hv, ih others]

/-- Only a quotation can keep contents from having a value. -/
theorem isSome_valueWith? (content : t.isContent d) (literal : t.isLiteral) :
    (t.valueWith? quoted).isSome := by
  induction t using Term.induction generalizing d with
  | null | bool b => rfl
  | number n => exact content
  | string marks => rwa [valueWith?, Option.isSome_map]
  | array items ih =>
    cases d with
    | zero => cases content
    | succ d =>
      have inRange := areContent_iff.mp content
      have plain := areLiteral_iff.mp literal
      rw [valueWith?, Option.isSome_map]
      apply isSome_valuesWith?
      intro t ht
      exact ih t ht (inRange t ht) (plain t ht)
  | object ms ih =>
    cases d with
    | zero => cases content
    | succ d =>
      have inRange := membersAreContent_iff.mp content
      obtain ⟨plain, inside⟩ := isLiteral_object_iff.mp literal
      rw [valueWith?, plain, if_neg Bool.false_ne_true, Option.isSome_map]
      apply isSome_entriesWith?
      intro m hm
      exact ⟨(inRange m hm).1, ih m hm (inRange m hm).2 (inside m hm)⟩

/-- A literal term is a string just if its value is one. -/
theorem text?_of_valueWith? (literal : t.isLiteral) {v : Value} (h : t.valueWith? quoted = some v) :
    v.text? = t.text? := by
  cases t with
  | null | bool b =>
    cases h
    rfl
  | number n =>
    rw [valueWith?, Numeral.value?] at h
    split at h
    · cases h
      rfl
    · obtain ⟨x, -, rfl⟩ := Option.map_eq_some_iff.mp h
      rfl
  | string marks =>
    obtain ⟨s, said, rfl⟩ := Option.map_eq_some_iff.mp h
    exact said.symm
  | array items =>
    obtain ⟨vs, -, rfl⟩ := Option.map_eq_some_iff.mp h
    rfl
  | object ms =>
    obtain ⟨plain, -⟩ := isLiteral_object_iff.mp literal
    rw [valueWith?, plain, if_neg Bool.false_ne_true] at h
    obtain ⟨es, -, rfl⟩ := Option.map_eq_some_iff.mp h
    rfl

/-- An object that begins like a quotation has the value of the text that it holds, if it holds a
text and nothing else. Any other object has the value that its members make. -/
theorem value?_of_members? {ms : List (List Mark × Term)} {l : List (String × Term)}
    (h : (object ms).members? = some l) :
    (object ms).value? =
      if beginsQuotation l then
        (quotedText? ms).bind fun s => Value.ofOctets? (Octets.ofText s)
      else (entries? l).map fun es => .object (Members.ofList es) := by
  rw [value?, valueWith?, isQuotation_eq h, entriesWith?_eq h]

end Term

/-! ### Nothing may stand behind an object -/

theorem Reader.term_of_writes_object {ms : List (List Mark × Term)} {o : Octets}
    (h : Writes (.object ms) o) (size d : Nat) (rest : Octets) (hs : o.length ≤ size) :
    term size (d + 1) (o ++ rest) =
      if Term.membersDepth ms ≤ d then some (.object ms, rest) else none := by
  cases h with
  | @noMembers pre h =>
    have close : skip (pre ++ 0x7D :: rest) = 0x7D :: rest := skip_append_cons h (by decide) rest
    rw [List.cons_append, List.append_assoc]
    exact (term_noMembers close).trans (if_pos (Nat.zero_le d)).symm
  | @members ms o h =>
    obtain ⟨r, start⟩ := h.head (0x7D :: rest)
    have inside : o.length ≤ size := by simp at hs; omega
    have all := members_of_writes h size d size rest inside (Nat.le_trans h.length_le inside) []
    rw [List.cons_append, List.append_assoc]
    refine (term_object start).trans ?_
    rw [all]
    by_cases fits : Term.membersDepth ms ≤ d <;> simp [fits]

theorem Term.ofOctets?_of_trailing {ms : List (List Mark × Term)} {pre o post rest : Octets}
    {x : UInt8} (before : Blanks pre) (h : Writes (.object ms) o) (after : Blanks post)
    (hx : isBlank x = false) (d : Nat) :
    Term.ofOctets? (d + 1) (pre ++ (o ++ post) ++ x :: rest) = none := by
  have shape : pre ++ (o ++ post) ++ x :: rest = pre ++ (o ++ (post ++ x :: rest)) := by simp
  have read := term_of_writes_object h (pre ++ (o ++ (post ++ x :: rest))).length d
    (post ++ x :: rest) (by simp; omega)
  have stands : skip (post ++ x :: rest) = x :: rest := skip_append_cons after hx rest
  rw [shape, Term.ofOctets?, term_of_skip_eq (skip_append before _), read]
  by_cases fits : membersDepth ms ≤ d <;> simp [fits, stands]

end Fanout.Json
