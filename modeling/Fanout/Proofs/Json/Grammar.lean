import Fanout.Json.Reader

/-!
The written forms of JSON terms. Blanks may stand around every token, and a byte of a string may be
written as it is or escaped. Numbers are integers here, without a point and without an exponent. The
reader takes every written form, as long as containers do not nest too deep for it.
-/

namespace Fanout.Json

open Reader

/-! ### Blanks -/

/-- Bytes that may stand between tokens. -/
def Blanks (b : Octets) : Prop := ∀ x ∈ b, isBlank x

theorem blanks_nil : Blanks [] := nofun

namespace Reader

theorem skip_append {pre : Octets} (h : Blanks pre) (b : Octets) : skip (pre ++ b) = skip b := by
  induction pre with
  | nil => rfl
  | cons x pre ih =>
    have first : isBlank x := h x List.mem_cons_self
    have others := ih fun y hy => h y (List.mem_cons_of_mem x hy)
    simpa [skip, List.dropWhile_cons, first] using others

theorem skip_cons {x : UInt8} (h : isBlank x = false) (b : Octets) : skip (x :: b) = x :: b := by
  simp [skip, h]

theorem skip_skip (b : Octets) : skip (skip b) = skip b := by
  induction b with
  | nil => rfl
  | cons x b ih =>
    by_cases h : isBlank x
    · simpa [skip, List.dropWhile_cons, h] using ih
    · simp [skip, h]

theorem skip_append_cons {pre : Octets} (hp : Blanks pre) {x : UInt8} (hx : isBlank x = false)
    (b : Octets) : skip (pre ++ x :: b) = x :: b := by
  rw [skip_append hp, skip_cons hx]

end Reader

/-! ### Strings -/

/-- The written form of marks between quotes. -/
inductive WritesMarks : List Mark → Octets → Prop where
  | nil : WritesMarks [] []
  | plain {ms : List Mark} {o : Octets} (b : UInt8) (hq : b ≠ 0x22) (he : b ≠ 0x5C) (hc : 0x20 ≤ b)
      (rest : WritesMarks ms o) : WritesMarks (.byte b :: ms) (b :: o)
  | short {ms : List Mark} {o : Octets} (e c : UInt8) (h : shortEscape? e = some c)
      (rest : WritesMarks ms o) : WritesMarks (.byte c :: ms) (0x5C :: e :: o)
  | unit {ms : List Mark} {o : Octets} (w x y z : UInt8) (u : Nat) (h : unit? w x y z = some u)
      (rest : WritesMarks ms o) :
      WritesMarks (.unit u :: ms) (0x5C :: 0x75 :: w :: x :: y :: z :: o)

theorem Reader.marks_of_writes {ms : List Mark} {o : Octets} (h : WritesMarks ms o) (rest : Octets)
    (acc : List Mark) : marks (o ++ 0x22 :: rest) acc = some (acc.reverse ++ ms, rest) := by
  induction h generalizing acc with
  | nil =>
    rw [List.nil_append, marks.eq_def]
    simp
  | plain b hq he hc _ ih =>
    have control : ¬ b < 0x20 := UInt8.not_lt.mpr hc
    rw [List.cons_append, marks.eq_def]
    simp [hq, he, control, ih]
  | short e c h _ ih =>
    have other : e ≠ 0x75 := by
      rintro rfl
      simp [shortEscape?] at h
    rw [List.cons_append, List.cons_append, marks.eq_def]
    simp [other, h, ih]
  | unit w x y z u h _ ih =>
    simp only [List.cons_append]
    rw [marks.eq_def]
    simp [h, ih]

/-! ### Numbers -/

/-- The digits of a number: a lone zero, or digits that do not begin with one. -/
structure IsWhole (ds : List Nat) : Prop where
  lt_ten : ∀ d ∈ ds, d < 10
  nonempty : ds ≠ []
  head : ds.head? = some 0 → ds = [0]

def digitOctets (ds : List Nat) : Octets := ds.map fun d => UInt8.ofNat (0x30 + d)

/-- What comes after a number does not go on with it. -/
def Follows (rest : Octets) : Prop :=
  ∀ x ∈ rest.head?, isDigit x = false ∧ x ≠ 0x2E ∧ x ≠ 0x65 ∧ x ≠ 0x45

theorem toNat_digitOctet {d : Nat} (h : d < 10) : (UInt8.ofNat (0x30 + d)).toNat = 0x30 + d := by
  rw [UInt8.toNat_ofNat']
  omega

theorem isDigit_digitOctet {d : Nat} (h : d < 10) : isDigit (UInt8.ofNat (0x30 + d)) := by
  have value := toNat_digitOctet h
  simp only [isDigit, Bool.and_eq_true, decide_eq_true_eq, UInt8.le_iff_toNat_le, value]
  simp
  omega

namespace Reader

theorem run_digits {ds : List Nat} (h : ∀ d ∈ ds, d < 10) {rest : Octets} (hr : Follows rest) :
    run (digitOctets ds ++ rest) = (ds, rest) := by
  induction ds with
  | nil =>
    cases rest with
    | nil => rfl
    | cons x rest =>
      have stops : isDigit x = false := (hr x rfl).1
      simp [run, digitOctets, stops]
  | cons d ds ih =>
    have first : d < 10 := h d List.mem_cons_self
    have others := ih fun e he => h e (List.mem_cons_of_mem d he)
    have digit := isDigit_digitOctet first
    have value := toNat_digitOctet first
    simp only [run, digitOctets, Prod.mk.injEq] at others
    simp only [run, digitOctets, List.map_cons, List.cons_append, List.takeWhile_cons,
      List.dropWhile_cons, digit, if_true, value]
    rw [others.1, others.2, Nat.add_sub_cancel_left]

theorem whole_digits {ds : List Nat} (h : IsWhole ds) {rest : Octets} (hr : Follows rest) :
    whole (digitOctets ds ++ rest) = some (ds, rest) := by
  have all := run_digits h.lt_ten hr
  cases ds with
  | nil => exact absurd rfl h.nonempty
  | cons d ds =>
    have first : d < 10 := h.lt_ten d List.mem_cons_self
    by_cases hd : d = 0
    · subst hd
      have alone : ds = [] := by simpa using h.head rfl
      subst alone
      rfl
    · have nonzero : UInt8.ofNat (0x30 + d) ≠ 0x30 := fun same => by
        have := congrArg UInt8.toNat same
        rw [toNat_digitOctet first] at this
        simp at this
        exact hd this
      have found : digits (digitOctets (d :: ds) ++ rest) = some (d :: ds, rest) := by
        rw [digits, all]
      exact (if_neg nonzero).trans found

theorem fraction_follows {rest : Octets} (h : Follows rest) :
    fraction rest = some (none, rest) := by
  cases rest with
  | nil => rfl
  | cons x rest => simp [fraction, (h x rfl).2.1]

theorem exponent_follows {rest : Octets} (h : Follows rest) :
    exponent rest = some (none, rest) := by
  cases rest with
  | nil => rfl
  | cons x rest => simp [exponent, (h x rfl).2.2.1, (h x rfl).2.2.2]

theorem numeral_negative {ds : List Nat} (h : IsWhole ds) {rest : Octets} (hr : Follows rest) :
    numeral (0x2D :: (digitOctets ds ++ rest)) = some (⟨true, ds, none, none⟩, rest) := by
  simp [numeral, whole_digits h hr, fraction_follows hr, exponent_follows hr]

theorem numeral_positive {ds : List Nat} (h : IsWhole ds) {rest : Octets} (hr : Follows rest) :
    numeral (digitOctets ds ++ rest) = some (⟨false, ds, none, none⟩, rest) := by
  have unsigned : ∀ r, digitOctets ds ++ rest ≠ 0x2D :: r := by
    intro r same
    obtain ⟨d, ds', rfl⟩ := List.exists_cons_of_ne_nil h.nonempty
    have first := toNat_digitOctet (h.lt_ten d List.mem_cons_self)
    simp only [digitOctets, List.map_cons, List.cons_append, List.cons.injEq] at same
    rw [same.1] at first
    simp at first
    omega
  -- the branch without a sign is taken by `unsigned`
  simp [numeral, whole_digits h hr, fraction_follows hr, exponent_follows hr]

end Reader

/-! ### Terms -/

mutual

/-- The written form of a term, without blanks around it. -/
inductive Writes : Term → Octets → Prop where
  | null : Writes .null [0x6E, 0x75, 0x6C, 0x6C]
  | yes : Writes (.bool true) [0x74, 0x72, 0x75, 0x65]
  | no : Writes (.bool false) [0x66, 0x61, 0x6C, 0x73, 0x65]
  | number {ds : List Nat} (h : IsWhole ds) :
      Writes (.number ⟨false, ds, none, none⟩) (digitOctets ds)
  | negative {ds : List Nat} (h : IsWhole ds) :
      Writes (.number ⟨true, ds, none, none⟩) (0x2D :: digitOctets ds)
  | string {ms : List Mark} {o : Octets} (h : WritesMarks ms o) :
      Writes (.string ms) (0x22 :: (o ++ [0x22]))
  | noItems {pre : Octets} (h : Blanks pre) : Writes (.array []) (0x5B :: (pre ++ [0x5D]))
  | items {ts : List Term} {o : Octets} (h : WritesItems ts o) :
      Writes (.array ts) (0x5B :: (o ++ [0x5D]))
  | noMembers {pre : Octets} (h : Blanks pre) : Writes (.object []) (0x7B :: (pre ++ [0x7D]))
  | members {ms : List (List Mark × Term)} {o : Octets} (h : WritesMembers ms o) :
      Writes (.object ms) (0x7B :: (o ++ [0x7D]))

/-- The written form of one or more items with commas between them. -/
inductive WritesItems : List Term → Octets → Prop where
  | last {t : Term} {pre o post : Octets} (before : Blanks pre) (item : Writes t o)
      (after : Blanks post) : WritesItems [t] (pre ++ (o ++ post))
  | more {t : Term} {ts : List Term} {pre o post others : Octets} (before : Blanks pre)
      (item : Writes t o) (after : Blanks post) (rest : WritesItems ts others) :
      WritesItems (t :: ts) (pre ++ (o ++ (post ++ 0x2C :: others)))

/-- The written form of one or more members with commas between them. -/
inductive WritesMembers : List (List Mark × Term) → Octets → Prop where
  | last {key : List Mark} {t : Term} {pre k mid gap o post : Octets} (before : Blanks pre)
      (name : WritesMarks key k) (between : Blanks mid) (behind : Blanks gap) (item : Writes t o)
      (after : Blanks post) :
      WritesMembers [(key, t)]
        (pre ++ 0x22 :: (k ++ 0x22 :: (mid ++ 0x3A :: (gap ++ (o ++ post)))))
  | more {key : List Mark} {t : Term} {ms : List (List Mark × Term)}
      {pre k mid gap o post others : Octets} (before : Blanks pre)
      (name : WritesMarks key k) (between : Blanks mid) (behind : Blanks gap) (item : Writes t o)
      (after : Blanks post) (rest : WritesMembers ms others) :
      WritesMembers ((key, t) :: ms)
        (pre ++ 0x22 :: (k ++ 0x22 :: (mid ++ 0x3A :: (gap ++ (o ++ (post ++ 0x2C :: others))))))

end

theorem WritesItems.one {t : Term} {o : Octets} (item : Writes t o) : WritesItems [t] o := by
  simpa using WritesItems.last blanks_nil item blanks_nil

theorem WritesItems.cons {t : Term} {ts : List Term} {o others : Octets} (item : Writes t o)
    (rest : WritesItems ts others) : WritesItems (t :: ts) (o ++ 0x2C :: others) :=
  .more blanks_nil item blanks_nil rest

theorem WritesMembers.one {key : List Mark} {t : Term} {k o : Octets} (name : WritesMarks key k)
    (item : Writes t o) : WritesMembers [(key, t)] (0x22 :: (k ++ 0x22 :: 0x3A :: o)) := by
  simpa using WritesMembers.last blanks_nil name blanks_nil blanks_nil item blanks_nil

theorem WritesMembers.cons {key : List Mark} {t : Term} {ms : List (List Mark × Term)}
    {k o others : Octets} (name : WritesMarks key k) (item : Writes t o)
    (rest : WritesMembers ms others) :
    WritesMembers ((key, t) :: ms) (0x22 :: (k ++ 0x22 :: 0x3A :: (o ++ 0x2C :: others))) :=
  .more blanks_nil name blanks_nil blanks_nil item blanks_nil rest

/-! ### Depth -/

mutual

/-- How deep containers nest in a term. -/
def Term.depth : Term → Nat
  | .null | .bool _ | .number _ | .string _ => 0
  | .array items => Term.itemsDepth items + 1
  | .object members => Term.membersDepth members + 1

def Term.itemsDepth : List Term → Nat
  | [] => 0
  | t :: ts => max (Term.depth t) (Term.itemsDepth ts)

def Term.membersDepth : List (List Mark × Term) → Nat
  | [] => 0
  | (_, t) :: ms => max (Term.depth t) (Term.membersDepth ms)

end

theorem Term.itemsDepth_cons_le_iff {t : Term} {ts : List Term} {d : Nat} :
    Term.itemsDepth (t :: ts) ≤ d ↔ t.depth ≤ d ∧ Term.itemsDepth ts ≤ d := Nat.max_le

theorem Term.membersDepth_cons_le_iff {key : List Mark} {t : Term} {ms : List (List Mark × Term)}
    {d : Nat} :
    Term.membersDepth ((key, t) :: ms) ≤ d ↔ t.depth ≤ d ∧ Term.membersDepth ms ≤ d := Nat.max_le

/-! ### What stands at the front and behind -/

theorem follows_nil : Follows [] := nofun

theorem Blanks.follows {post : Octets} (h : Blanks post) {rest : Octets} (hr : Follows rest) :
    Follows (post ++ rest) := by
  intro y hy
  cases post with
  | nil => exact hr y hy
  | cons z post =>
    obtain rfl : z = y := by simpa using hy
    have blank : isBlank z := h z List.mem_cons_self
    simp only [isBlank, Bool.or_eq_true, beq_iff_eq] at blank
    rcases blank with ((rfl | rfl) | rfl) | rfl <;> decide

theorem follows_separator {x : UInt8} (h : x = 0x2C ∨ x = 0x5D ∨ x = 0x7D) (rest : Octets) :
    Follows (x :: rest) := by
  intro y hy
  obtain rfl : x = y := by simpa using hy
  rcases h with rfl | rfl | rfl <;> decide

theorem isBlank_of_isDigit {x : UInt8} (h : isDigit x) : isBlank x = false := by
  simp only [isBlank, Bool.or_eq_false_iff, beq_eq_false_iff_ne]
  refine ⟨⟨⟨?_, ?_⟩, ?_⟩, ?_⟩ <;> rintro rfl <;> exact absurd h (by decide)

/-- A term begins with a byte that is neither a blank nor a closing bracket. -/
theorem Writes.head {t : Term} {o : Octets} (h : Writes t o) :
    ∃ x r, o = x :: r ∧ isBlank x = false ∧ x ≠ 0x5D := by
  cases h with
  | number h =>
    obtain ⟨d, ds, rfl⟩ := List.exists_cons_of_ne_nil h.nonempty
    have digit := isDigit_digitOctet (h.lt_ten d List.mem_cons_self)
    refine ⟨UInt8.ofNat (0x30 + d), _, rfl, isBlank_of_isDigit digit, fun same => ?_⟩
    rw [same] at digit
    exact absurd digit (by decide)
  | _ => exact ⟨_, _, rfl, by decide, by decide⟩

theorem WritesItems.head {ts : List Term} {o : Octets} (h : WritesItems ts o) (rest : Octets) :
    ∃ x r, skip (o ++ rest) = x :: r ∧ x ≠ 0x5D := by
  cases h with
  | last before item after | more before item after others =>
    obtain ⟨x, r, rfl, hb, hx⟩ := item.head
    rw [List.append_assoc, List.cons_append, List.cons_append, skip_append_cons before hb]
    exact ⟨x, _, rfl, hx⟩

theorem WritesMembers.head {ms : List (List Mark × Term)} {o : Octets} (h : WritesMembers ms o)
    (rest : Octets) : ∃ r, skip (o ++ rest) = 0x22 :: r := by
  cases h with
  | last before | more before =>
    rw [List.append_assoc, List.cons_append, skip_append_cons before (by decide)]
    exact ⟨_, rfl⟩

theorem WritesItems.length_pos {ts : List Term} {o : Octets} (h : WritesItems ts o) :
    0 < ts.length := by
  cases h <;> exact Nat.zero_lt_succ _

theorem WritesMembers.length_pos {ms : List (List Mark × Term)} {o : Octets}
    (h : WritesMembers ms o) : 0 < ms.length := by
  cases h <;> exact Nat.zero_lt_succ _

/-- An item has at least one byte, so the length of a text bounds their number. -/
theorem WritesItems.length_le {ts : List Term} {o : Octets} (h : WritesItems ts o) :
    ts.length ≤ o.length := by
  induction ts generalizing o with
  | nil => exact Nat.zero_le _
  | cons t ts ih =>
    cases h with
    | last before item after =>
      obtain ⟨x, r, rfl, _⟩ := item.head
      simp
      omega
    | more before item after others =>
      have := ih others
      simp
      omega

theorem WritesMembers.length_le {ms : List (List Mark × Term)} {o : Octets}
    (h : WritesMembers ms o) : ms.length ≤ o.length := by
  induction ms generalizing o with
  | nil => exact Nat.zero_le _
  | cons m ms ih =>
    cases h with
    | last =>
      simp
      omega
    | more _ _ _ _ _ _ others =>
      have := ih others
      simp
      omega

/-! ### The reader at the front of a term -/

namespace Reader

variable {size d : Nat} {rest : Octets}

theorem node_number (inner : Option (Reader Term)) {x : UInt8} (h : isDigit x ∨ x = 0x2D)
    (b : Octets) :
    node size inner (x :: b) = (numeral (x :: b)).map fun (n, rest) => (.number n, rest) := by
  have other : ∀ y : UInt8, isDigit y = false → y ≠ 0x2D → x ≠ y := by
    rintro y hy hm rfl
    rcases h with h | h
    · rw [hy] at h
      cases h
    · exact hm h
  have blank : isBlank x = false := by
    rcases h with h | rfl
    · exact isBlank_of_isDigit h
    · decide
  simp [node, skip_cons blank, other 0x22 (by decide) (by decide),
    other 0x5B (by decide) (by decide), other 0x7B (by decide) (by decide),
    other 0x6E (by decide) (by decide), other 0x74 (by decide) (by decide),
    other 0x66 (by decide) (by decide)]

theorem term_eq_node (size d : Nat) : ∃ inner, term size d = node size inner := by
  cases d with
  | zero => exact ⟨none, rfl⟩
  | succ d => exact ⟨some (term size d), rfl⟩

theorem term_of_skip_eq {b c : Octets} (h : skip b = skip c) : term size d b = term size d c := by
  obtain ⟨inner, same⟩ := term_eq_node size d
  rw [same, node, node, h]

theorem term_number {x : UInt8} (h : isDigit x ∨ x = 0x2D) {b : Octets} {n : Numeral}
    (hn : numeral (x :: b) = some (n, rest)) :
    term size d (x :: b) = some (.number n, rest) := by
  obtain ⟨inner, same⟩ := term_eq_node size d
  rw [same, node_number inner h, hn]
  rfl

theorem term_array {b r : Octets} {x : UInt8} (hs : skip b = x :: r) (hx : x ≠ 0x5D) :
    term size (d + 1) (0x5B :: b) =
      (items (term size d) size b []).map fun (ts, rest) => (.array ts, rest) := by
  have same : items (term size d) size (x :: r) [] = items (term size d) size b [] := by
    cases size with
    | zero => rfl
    | succ n =>
      have first : skip (x :: r) = skip b := by rw [← hs, skip_skip]
      rw [items, items, term_of_skip_eq first]
  simp [term, node, skip_cons (show isBlank 0x5B = false by decide), hs, hx, same]

theorem term_noItems {b : Octets} (h : skip b = 0x5D :: rest) :
    term size (d + 1) (0x5B :: b) = some (.array [], rest) := by
  simp [term, node, skip_cons (show isBlank 0x5B = false by decide), h]

theorem term_object {b r : Octets} (hs : skip b = 0x22 :: r) :
    term size (d + 1) (0x7B :: b) =
      (members (term size d) size b []).map fun (ms, rest) => (.object ms, rest) := by
  have same : members (term size d) size (0x22 :: r) [] = members (term size d) size b [] := by
    cases size with
    | zero => rfl
    | succ n =>
      have first : skip (0x22 :: r) = skip b := by rw [← hs, skip_skip]
      rw [members, members, member, member, first]
  simp [term, node, skip_cons (show isBlank 0x7B = false by decide), hs, same]

theorem term_noMembers {b : Octets} (h : skip b = 0x7D :: rest) :
    term size (d + 1) (0x7B :: b) = some (.object [], rest) := by
  simp [term, node, skip_cons (show isBlank 0x7B = false by decide), h]

theorem term_zero {x : UInt8} (h : x = 0x5B ∨ x = 0x7B) (b : Octets) :
    term size 0 (x :: b) = none := by
  rcases h with rfl | rfl
  · rw [term, node, skip_cons (by decide)]
    rfl
  · rw [term, node, skip_cons (by decide)]
    rfl

theorem member_of_writes {item : Reader Term} {key : List Mark} {pre k mid : Octets}
    (before : Blanks pre) (name : WritesMarks key k) (between : Blanks mid) (b : Octets) :
    member item (pre ++ 0x22 :: (k ++ 0x22 :: (mid ++ 0x3A :: b))) =
      (item b).map fun (t, rest) => ((key, t), rest) := by
  have start := skip_append_cons before (show isBlank 0x22 = false by decide)
    (k ++ 0x22 :: (mid ++ 0x3A :: b))
  have colon := skip_append_cons between (show isBlank 0x3A = false by decide) b
  cases h : item b with
  | none => simp [member, start, string, marks_of_writes name, colon, h]
  | some p => simp [member, start, string, marks_of_writes name, colon, h]

/-! ### The reader takes what is written -/

-- By recursion on the written form. The right sides say when the reader gives up as well, so that
-- one part that nests too deep makes the whole fail; `size` is the bound on the number of parts.
mutual

/-- The reader takes a written term, unless its containers nest too deep. -/
theorem term_of_writes {t : Term} {o : Octets} (h : Writes t o) (size d : Nat) (rest : Octets)
    (hs : o.length ≤ size) (hf : Follows rest) :
    term size d (o ++ rest) = if t.depth ≤ d then some (t, rest) else none := by
  obtain ⟨inner, leaf⟩ := term_eq_node size d
  cases h with
  | null | yes | no =>
    rw [leaf, Term.depth, if_pos (Nat.zero_le d)]
    simp [node, skip, isBlank, word]
  | number h =>
    obtain ⟨e, ds, rfl⟩ := List.exists_cons_of_ne_nil h.nonempty
    have digit := isDigit_digitOctet (h.lt_ten e List.mem_cons_self)
    rw [Term.depth, if_pos (Nat.zero_le d)]
    exact term_number (.inl digit) (numeral_positive h hf)
  | negative h =>
    rw [Term.depth, if_pos (Nat.zero_le d)]
    exact term_number (.inr rfl) (numeral_negative h hf)
  | string h =>
    rw [leaf, Term.depth, if_pos (Nat.zero_le d)]
    simp [node, skip, isBlank, marks_of_writes h]
  | @noItems pre h =>
    have close : skip (pre ++ 0x5D :: rest) = 0x5D :: rest := skip_append_cons h (by decide) rest
    rw [List.cons_append, List.append_assoc]
    cases d with
    | zero => exact term_zero (.inl rfl) _
    | succ d => exact (term_noItems close).trans (if_pos (Nat.le_add_left 1 d)).symm
  | @items ts o h =>
    obtain ⟨x, r, start, hx⟩ := h.head (0x5D :: rest)
    rw [List.cons_append, List.append_assoc, Term.depth]
    cases d with
    | zero => exact term_zero (.inl rfl) _
    | succ d =>
      have inside : o.length ≤ size := by simp at hs; omega
      have all := items_of_writes h size d size rest inside (Nat.le_trans h.length_le inside) []
      refine (term_array start hx).trans ?_
      rw [all]
      by_cases fits : Term.itemsDepth ts ≤ d <;> simp [fits]
  | @noMembers pre h =>
    have close : skip (pre ++ 0x7D :: rest) = 0x7D :: rest := skip_append_cons h (by decide) rest
    rw [List.cons_append, List.append_assoc]
    cases d with
    | zero => exact term_zero (.inr rfl) _
    | succ d => exact (term_noMembers close).trans (if_pos (Nat.le_add_left 1 d)).symm
  | @members ms o h =>
    obtain ⟨r, start⟩ := h.head (0x7D :: rest)
    rw [List.cons_append, List.append_assoc, Term.depth]
    cases d with
    | zero => exact term_zero (.inr rfl) _
    | succ d =>
      have inside : o.length ≤ size := by simp at hs; omega
      have all := members_of_writes h size d size rest inside (Nat.le_trans h.length_le inside) []
      refine (term_object start).trans ?_
      rw [all]
      by_cases fits : Term.membersDepth ms ≤ d <;> simp [fits]

theorem items_of_writes {ts : List Term} {o : Octets} (h : WritesItems ts o) (size d n : Nat)
    (rest : Octets) (hs : o.length ≤ size) (hn : ts.length ≤ n) (acc : List Term) :
    items (term size d) n (o ++ 0x5D :: rest) acc =
      if Term.itemsDepth ts ≤ d then some (acc.reverse ++ ts, rest) else none := by
  cases n with
  | zero => exact absurd hn (Nat.not_le_of_gt h.length_pos)
  | succ n =>
    cases h with
    | @last t pre o post before item after =>
      have first := term_of_writes item size d (post ++ 0x5D :: rest) (by simp at hs; omega)
        (after.follows (follows_separator (.inr (.inl rfl)) rest))
      simp only [List.append_assoc]
      rw [items, term_of_skip_eq (skip_append before _), first]
      by_cases fits : t.depth ≤ d <;>
        simp [Term.itemsDepth, fits, skip_append after,
          skip_cons (show isBlank 0x5D = false by decide)]
    | @more t ts pre o post others before item after tail =>
      have first := term_of_writes item size d (post ++ 0x2C :: (others ++ 0x5D :: rest))
        (by simp at hs; omega)
        (after.follows (follows_separator (.inl rfl) _))
      have next := items_of_writes tail size d n rest (by simp at hs; omega) (by simp at hn; omega)
        (t :: acc)
      simp only [List.append_assoc, List.cons_append]
      rw [items, term_of_skip_eq (skip_append before _), first]
      by_cases fits : t.depth ≤ d
      · simp [Term.itemsDepth_cons_le_iff, fits, skip_append after,
          skip_cons (show isBlank 0x2C = false by decide), next]
      · simp [Term.itemsDepth_cons_le_iff, fits]

theorem members_of_writes {ms : List (List Mark × Term)} {o : Octets} (h : WritesMembers ms o)
    (size d n : Nat) (rest : Octets) (hs : o.length ≤ size) (hn : ms.length ≤ n)
    (acc : List (List Mark × Term)) :
    members (term size d) n (o ++ 0x7D :: rest) acc =
      if Term.membersDepth ms ≤ d then some (acc.reverse ++ ms, rest) else none := by
  cases n with
  | zero => exact absurd hn (Nat.not_le_of_gt h.length_pos)
  | succ n =>
    cases h with
    | @last key t pre k mid gap o post before name between behind item after =>
      have first := term_of_writes item size d (post ++ 0x7D :: rest) (by simp at hs; omega)
        (after.follows (follows_separator (.inr (.inr rfl)) rest))
      simp only [List.append_assoc, List.cons_append]
      rw [members, member_of_writes before name between,
        term_of_skip_eq (skip_append behind _), first]
      by_cases fits : t.depth ≤ d <;>
        simp [Term.membersDepth, fits, skip_append after,
          skip_cons (show isBlank 0x7D = false by decide)]
    | @more key t ms pre k mid gap o post others before name between behind item after tail =>
      have first := term_of_writes item size d (post ++ 0x2C :: (others ++ 0x7D :: rest))
        (by simp at hs; omega)
        (after.follows (follows_separator (.inl rfl) _))
      have next := members_of_writes tail size d n rest (by simp at hs; omega)
        (by simp at hn; omega) ((key, t) :: acc)
      simp only [List.append_assoc, List.cons_append]
      rw [members, member_of_writes before name between,
        term_of_skip_eq (skip_append behind _), first]
      by_cases fits : t.depth ≤ d
      · simp [Term.membersDepth_cons_le_iff, fits, skip_append after,
          skip_cons (show isBlank 0x2C = false by decide), next]
      · simp [Term.membersDepth_cons_le_iff, fits]

end

end Reader

/-- A text that is one term with blanks around it is read, unless its containers nest too deep. -/
theorem Term.ofOctets?_of_writes {t : Term} {pre o post : Octets} (before : Blanks pre)
    (h : Writes t o) (after : Blanks post) (d : Nat) :
    Term.ofOctets? d (pre ++ (o ++ post)) = if t.depth ≤ d then some t else none := by
  have ended : Follows post := by simpa using after.follows follows_nil
  have read := term_of_writes h (pre ++ (o ++ post)).length d post (by simp; omega) ended
  have nothing : skip post = [] := by simpa [skip] using skip_append after []
  rw [Term.ofOctets?, term_of_skip_eq (skip_append before _), read]
  by_cases fits : t.depth ≤ d <;> simp [fits, nothing]

theorem Term.ofOctets?_written {t : Term} {o : Octets} (h : Writes t o) (d : Nat) :
    Term.ofOctets? d o = if t.depth ≤ d then some t else none := by
  have read := Term.ofOctets?_of_writes blanks_nil h blanks_nil d
  rwa [List.nil_append, List.append_nil] at read

end Fanout.Json
