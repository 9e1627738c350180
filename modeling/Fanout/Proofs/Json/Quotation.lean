import Mathlib.Algebra.GroupWithZero.Nat
import Fanout.Proofs.Json.Written

/-!
Quotations. What the strings of a term stand for takes no more bytes than the term does when it is
written, so a quoted text is shorter than the text around it. The bound on how deep quotations nest
is therefore never met: the value of a text is the value of its term.
-/

namespace Fanout.Json

/-! ### How much the strings of a term stand for -/

namespace Mark

/-- The fewest bytes in which a mark is written; it stands for no more. -/
def weight : Mark → Nat
  | .byte _ => 1
  | .unit _ => 6

def weights (ms : List Mark) : Nat := (ms.map weight).sum

@[simp] theorem weights_nil : weights [] = 0 := rfl

@[simp] theorem weights_cons (m : Mark) (ms : List Mark) :
    weights (m :: ms) = m.weight + weights ms := by
  simp [weights]

@[simp] theorem weights_reverse (ms : List Mark) : weights ms.reverse = weights ms := by
  simp [weights]

theorem length_octetsOnto?_le {ms : List Mark} {acc o : Octets}
    (h : octetsOnto? ms acc = some o) : o.length ≤ acc.length + weights ms := by
  have narrow : ∀ c : Char, (String.utf8EncodeChar c).length ≤ 4 := by
    intro c
    rw [String.length_utf8EncodeChar]
    exact c.utf8Size_le_four
  fun_induction octetsOnto? ms acc with
  | case1 acc =>
    obtain rfl := Option.some_inj.mp h
    simp
  | case2 b rest acc ih =>
    have others := ih h
    simp [weight] at others ⊢
    omega
  | case4 u acc _ _ v rest _ ih =>
    have width := narrow (Char.ofNat (paired u v))
    have others := ih h
    rw [List.length_append, List.length_reverse] at others
    simp only [weights_cons, weight]
    omega
  | case7 u rest acc _ _ ih =>
    have width := narrow (Char.ofNat u)
    have others := ih h
    rw [List.length_append, List.length_reverse] at others
    simp only [weights_cons, weight]
    omega
  | _ => cases h

theorem length_ofText_le {ms : List Mark} {s : String} (h : text? ms = some s) :
    (Octets.ofText s).length ≤ weights ms := by
  obtain ⟨o, said, text⟩ := Option.bind_eq_some_iff.mp h
  rw [Octets.ofText_of_text?_eq_some text]
  simpa using length_octetsOnto?_le said

end Mark

mutual

/-- How much the strings in a term, keys apart, stand for at most, with a quote for each. -/
def Term.weight : Term → Nat
  | .null | .bool _ | .number _ => 0
  | .string marks => Mark.weights marks + 1
  | .array items => Term.itemsWeight items
  | .object members => Term.membersWeight members

def Term.itemsWeight : List Term → Nat
  | [] => 0
  | t :: ts => Term.weight t + Term.itemsWeight ts

def Term.membersWeight : List (List Mark × Term) → Nat
  | [] => 0
  | (_, t) :: ms => Term.weight t + Term.membersWeight ms

end

theorem Term.itemsWeight_eq (ts : List Term) :
    Term.itemsWeight ts = (ts.map Term.weight).sum := by
  induction ts with
  | nil => rfl
  | cons t ts ih => simp [Term.itemsWeight, ih]

theorem Term.membersWeight_eq (ms : List (List Mark × Term)) :
    Term.membersWeight ms = (ms.map fun m => m.2.weight).sum := by
  induction ms with
  | nil => rfl
  | cons m ms ih => simp [Term.membersWeight, ih]

theorem Term.weight_le_itemsWeight {t : Term} {ts : List Term} (h : t ∈ ts) :
    t.weight ≤ Term.itemsWeight ts := by
  induction h with
  | head => exact Nat.le_add_right _ _
  | tail _ _ ih => exact Nat.le_add_left_of_le ih

theorem Term.weight_le_membersWeight {m : List Mark × Term} {ms : List (List Mark × Term)}
    (h : m ∈ ms) : m.2.weight ≤ Term.membersWeight ms := by
  induction h with
  | head => exact Nat.le_add_right _ _
  | tail _ _ ih => exact Nat.le_add_left_of_le ih

/-! ### What a reader takes -/

namespace Reader

/-- A reader does not put anything in front of what it leaves. -/
def Shortens {α : Type} (r : Reader α) : Prop :=
  ∀ b a rest, r b = some (a, rest) → rest.length ≤ b.length

/-- What a reader takes off the front is no shorter than the term that it makes of it weighs. -/
def Covers (item : Reader Term) : Prop :=
  ∀ b t rest, item b = some (t, rest) → t.weight + rest.length ≤ b.length

theorem length_skip_le (b : Octets) : (skip b).length ≤ b.length :=
  (List.dropWhile_suffix isBlank).length_le

theorem length_lt_of_skip_eq_cons {b rest : Octets} {x : UInt8} (h : skip b = x :: rest) :
    rest.length < b.length := by
  have whole := length_skip_le b
  rw [h] at whole
  exact whole

theorem shortens_digits : Shortens digits := by
  intro b ds rest h
  rw [digits] at h
  split at h
  · cases h
  · obtain ⟨-, rfl⟩ := Prod.mk.inj (Option.some_inj.mp h)
    exact (List.dropWhile_suffix isDigit).length_le

theorem shortens_whole : Shortens whole := by
  intro b ds rest h
  cases b with
  | nil => cases h
  | cons x b =>
    rw [whole] at h
    split_ifs at h with zero
    · obtain ⟨-, rfl⟩ := Prod.mk.inj (Option.some_inj.mp h)
      simp
    · exact shortens_digits _ _ _ h

theorem shortens_fraction : Shortens fraction := by
  intro b ds rest h
  cases b with
  | nil =>
    obtain ⟨-, rfl⟩ := Prod.mk.inj (Option.some_inj.mp h)
    exact Nat.le_refl _
  | cons x b =>
    rw [fraction] at h
    split_ifs at h with point
    · obtain ⟨⟨es, others⟩, found, same⟩ := Option.map_eq_some_iff.mp h
      obtain ⟨-, rfl⟩ := Prod.mk.inj same
      exact Nat.le_succ_of_le (shortens_digits _ _ _ found)
    · obtain ⟨-, rfl⟩ := Prod.mk.inj (Option.some_inj.mp h)
      exact Nat.le_refl _

theorem length_sign_le (b : Octets) : (sign b).2.length ≤ b.length := by
  cases b with
  | nil => exact Nat.le_refl _
  | cons x b =>
    rw [sign]
    split_ifs <;> simp

theorem shortens_exponent : Shortens exponent := by
  intro b e rest h
  cases b with
  | nil =>
    obtain ⟨-, rfl⟩ := Prod.mk.inj (Option.some_inj.mp h)
    exact Nat.le_refl _
  | cons x b =>
    have signed := length_sign_le b
    rw [exponent] at h
    split_ifs at h with letter
    · cases split : sign b with
      | mk negative tail =>
        rw [split] at h signed
        obtain ⟨⟨ds, others⟩, found, same⟩ := Option.map_eq_some_iff.mp h
        obtain ⟨-, rfl⟩ := Prod.mk.inj same
        have unsigned := shortens_digits _ _ _ found
        exact Nat.le_succ_of_le (unsigned.trans signed)
    · obtain ⟨-, rfl⟩ := Prod.mk.inj (Option.some_inj.mp h)
      exact Nat.le_refl _

theorem shortens_numeral : Shortens numeral := by
  intro b n rest h
  rw [numeral.eq_def] at h
  split at h
  next negative tail signed =>
    have short : tail.length ≤ b.length := by
      split at signed
      · obtain ⟨-, rfl⟩ := Prod.mk.inj signed
        simp
      · obtain ⟨-, rfl⟩ := Prod.mk.inj signed
        exact Nat.le_refl _
    -- the same three pieces follow whether there is a sign or not
    simp only [Option.bind_eq_bind, Option.bind_eq_some_iff, Option.pure_def, Option.some.injEq,
      Prod.exists, Prod.mk.injEq] at h
    obtain ⟨ds, b₁, first, fr, b₂, second, ex, b₃, third, -, rfl⟩ := h
    have pieces : b₃.length ≤ tail.length :=
      (shortens_exponent _ _ _ third).trans
        ((shortens_fraction _ _ _ second).trans (shortens_whole _ _ _ first))
    exact pieces.trans short

theorem shortens_word (w : Octets) : Shortens (word w) := by
  intro b u rest h
  rw [word] at h
  split_ifs at h with front
  obtain ⟨-, rfl⟩ := Prod.mk.inj (Option.some_inj.mp h)
  simp

theorem weights_marks_le {b rest : Octets} {acc ms : List Mark}
    (h : marks b acc = some (ms, rest)) :
    Mark.weights ms + rest.length + 1 ≤ Mark.weights acc + b.length := by
  fun_induction marks b acc with
  | case2 b acc =>
    obtain ⟨rfl, rfl⟩ := Prod.mk.inj (Option.some_inj.mp h)
    have same := Mark.weights_reverse acc
    have longer : (0x22 :: b).length = b.length + 1 := List.length_cons
    omega
  | case4 acc w x y z b u _ _ ih | case7 acc e b _ c _ _ ih | case10 c b acc _ _ _ ih =>
    have others := ih h
    simp [Mark.weight] at others ⊢
    omega
  | _ => cases h

theorem weight_items_le {item : Reader Term} (hi : Covers item) {n : Nat}
    {b rest : Octets} {acc ts : List Term} (h : items item n b acc = some (ts, rest)) :
    Term.itemsWeight ts + rest.length ≤ Term.itemsWeight acc + b.length := by
  fun_induction items item n b acc with
  | case3 n b acc t mid found tail next ih =>
    have others := ih h
    have first := hi _ _ _ found
    have comma := length_lt_of_skip_eq_cons next
    rw [Term.itemsWeight] at others
    omega
  | case4 n b acc t mid found tail next =>
    obtain ⟨rfl, rfl⟩ := Prod.mk.inj (Option.some_inj.mp h)
    have first := hi _ _ _ found
    have close := length_lt_of_skip_eq_cons next
    simp [Term.itemsWeight_eq]
    omega
  | _ => cases h

theorem weight_member_le {item : Reader Term} (hi : Covers item) {b rest : Octets}
    {m : List Mark × Term} (h : member item b = some (m, rest)) :
    m.2.weight + rest.length ≤ b.length := by
  simp only [member, Option.bind_eq_bind, Option.bind_eq_some_iff, Prod.exists] at h
  obtain ⟨key, b₁, name, h⟩ := h
  have first : b₁.length ≤ b.length := by
    have blank := length_skip_le b
    rw [string.eq_def] at name
    split at name
    · cases name
    · next x b₂ start =>
      split_ifs at name with quote
      have inside := weights_marks_le name
      rw [start] at blank
      simp at blank inside
      omega
  split at h
  · next b₃ colon =>
    simp only [Option.bind_eq_some_iff, Prod.exists, Option.pure_def, Option.some.injEq,
      Prod.mk.injEq] at h
    obtain ⟨t, _, found, rfl, rfl⟩ := h
    have second := length_lt_of_skip_eq_cons colon
    have third := hi _ _ _ found
    change t.weight + _ ≤ _
    omega
  · cases h

theorem weight_members_le {item : Reader Term} (hi : Covers item) {n : Nat}
    {b rest : Octets} {acc ms : List (List Mark × Term)}
    (h : members item n b acc = some (ms, rest)) :
    Term.membersWeight ms + rest.length ≤ Term.membersWeight acc + b.length := by
  fun_induction members item n b acc with
  | case3 n b acc m mid found tail next ih =>
    have others := ih h
    have first := weight_member_le hi found
    have comma := length_lt_of_skip_eq_cons next
    rw [Term.membersWeight] at others
    omega
  | case4 n b acc m mid found tail next =>
    obtain ⟨rfl, rfl⟩ := Prod.mk.inj (Option.some_inj.mp h)
    have first := weight_member_le hi found
    have close := length_lt_of_skip_eq_cons next
    simp [Term.membersWeight_eq]
    omega
  | _ => cases h

theorem covers_node {size : Nat} {inner : Option (Reader Term)}
    (hi : ∀ item ∈ inner, Covers item) : Covers (node size inner) := by
  intro b t rest h
  have word {w : Octets} {tail : Octets} {leaf : Term} (light : leaf.weight = 0)
      (said : (word w tail).map (fun found => (leaf, found.2)) = some (t, rest)) :
      t.weight + rest.length ≤ tail.length := by
    obtain ⟨⟨_, others⟩, found, same⟩ := Option.map_eq_some_iff.mp said
    obtain ⟨rfl, rfl⟩ := Prod.mk.inj same
    simpa [light] using shortens_word w _ _ _ found
  rw [node.eq_def] at h
  split at h
  · cases h
  next tail start =>
    have first := length_lt_of_skip_eq_cons start
    obtain ⟨⟨ms, others⟩, found, same⟩ := Option.map_eq_some_iff.mp h
    obtain ⟨rfl, rfl⟩ := Prod.mk.inj same
    have inside := weights_marks_le found
    simp [Term.weight] at inside ⊢
    omega
  next tail start =>
    have first := length_lt_of_skip_eq_cons start
    have blanks := length_skip_le tail
    split at h
    · cases h
    next item others close =>
      obtain ⟨rfl, rfl⟩ := Prod.mk.inj (Option.some_inj.mp h)
      have closed := length_lt_of_skip_eq_cons close
      simp [Term.weight, Term.itemsWeight]
      omega
    next item _ =>
      obtain ⟨⟨ts, others⟩, found, same⟩ := Option.map_eq_some_iff.mp h
      obtain ⟨rfl, rfl⟩ := Prod.mk.inj same
      have inside := weight_items_le (hi item rfl) found
      simp [Term.weight, Term.itemsWeight] at inside ⊢
      omega
  next tail start =>
    have first := length_lt_of_skip_eq_cons start
    have blanks := length_skip_le tail
    split at h
    · cases h
    next item others close =>
      obtain ⟨rfl, rfl⟩ := Prod.mk.inj (Option.some_inj.mp h)
      have closed := length_lt_of_skip_eq_cons close
      simp [Term.weight, Term.membersWeight]
      omega
    next item _ =>
      obtain ⟨⟨ms, others⟩, found, same⟩ := Option.map_eq_some_iff.mp h
      obtain ⟨rfl, rfl⟩ := Prod.mk.inj same
      have inside := weight_members_le (hi item rfl) found
      simp [Term.weight, Term.membersWeight] at inside ⊢
      omega
  next x tail _ _ _ start =>
    have first := length_lt_of_skip_eq_cons start
    split_ifs at h
    · exact (word rfl h).trans first.le
    · exact (word rfl h).trans first.le
    · exact (word rfl h).trans first.le
    · obtain ⟨⟨n, others⟩, found, same⟩ := Option.map_eq_some_iff.mp h
      obtain ⟨rfl, rfl⟩ := Prod.mk.inj same
      have short := shortens_numeral _ _ _ found
      simp [Term.weight] at short ⊢
      omega

theorem covers_term (size d : Nat) : Covers (term size d) := by
  induction d with
  | zero => exact covers_node nofun
  | succ d ih =>
    apply covers_node
    intro item hi
    obtain rfl := Option.mem_some_iff.mp hi
    exact ih

end Reader

theorem Term.weight_le_length {d : Nat} {b : Octets} {t : Term} (h : Term.ofOctets? d b = some t) :
    t.weight ≤ b.length := by
  rw [Term.ofOctets?] at h
  split at h
  next read rest found =>
    split_ifs at h with ended
    obtain rfl := Option.some_inj.mp h
    exact le_of_add_le_left (Reader.covers_term _ _ _ _ _ found)
  next => cases h

/-! ### The value of a term -/

namespace Term

variable {n : Nat} {quoted quoted' : Octets → Option Value}

theorem valuesWith?_congr {ts : List Term}
    (h : ∀ t ∈ ts, t.valueWith? quoted = t.valueWith? quoted') :
    valuesWith? quoted ts = valuesWith? quoted' ts := by
  induction ts with
  | nil => rfl
  | cons t ts ih =>
    obtain ⟨first, others⟩ := List.forall_mem_cons.mp h
    rw [valuesWith?, valuesWith?, first, ih others]

theorem entriesWith?_congr {ms : List (List Mark × Term)}
    (h : ∀ m ∈ ms, m.2.valueWith? quoted = m.2.valueWith? quoted') :
    entriesWith? quoted ms = entriesWith? quoted' ms := by
  induction ms with
  | nil => rfl
  | cons m ms ih =>
    obtain ⟨first, others⟩ := List.forall_mem_cons.mp h
    rw [entriesWith?, entriesWith?, first, ih others]

theorem length_quotedText?_lt {ms : List (List Mark × Term)} {s : String}
    (h : quotedText? ms = some s) : (Octets.ofText s).length < membersWeight ms := by
  match ms, h with
  | [(_, t)], h =>
    cases t with
    | string marks =>
      have short := Mark.length_ofText_le h
      simp [membersWeight, weight]
      omega
    | _ => cases h

/-- The value of a term depends on quoted texts only that are shorter than the term weighs. -/
theorem valueWith?_congr (same : ∀ b : Octets, b.length < n → quoted b = quoted' b) {t : Term}
    (light : t.weight ≤ n) : t.valueWith? quoted = t.valueWith? quoted' := by
  induction t using Term.induction with
  | null | bool b | number m | string marks => rfl
  | array items ih =>
    have parts : ∀ t ∈ items, t.valueWith? quoted = t.valueWith? quoted' := by
      intro t ht
      exact ih t ht ((weight_le_itemsWeight ht).trans light)
    rw [valueWith?, valueWith?, valuesWith?_congr parts]
  | object ms ih =>
    rw [valueWith?, valueWith?]
    split_ifs with quotes
    · cases text : quotedText? ms with
      | none => rfl
      | some s => exact same _ ((length_quotedText?_lt text).trans_le light)
    · have parts : ∀ m ∈ ms, m.2.valueWith? quoted = m.2.valueWith? quoted' := by
        intro m hm
        exact ih m hm ((weight_le_membersWeight hm).trans light)
      rw [entriesWith?_congr parts]

end Term

namespace Value

theorem ofOctetsWithin?_congr {b : Octets} :
    ∀ {n m : Nat}, b.length < n → b.length < m → ofOctetsWithin? n b = ofOctetsWithin? m b := by
  induction hl : b.length using Nat.strong_induction_on generalizing b with
  | _ l ih =>
    intro n m hn hm
    obtain ⟨n, rfl⟩ := Nat.exists_eq_succ_of_ne_zero (Nat.ne_zero_of_lt hn)
    obtain ⟨m, rfl⟩ := Nat.exists_eq_succ_of_ne_zero (Nat.ne_zero_of_lt hm)
    rw [ofOctetsWithin?, ofOctetsWithin?]
    cases read : Term.ofOctets? greatestDepth b with
    | none => rfl
    | some t =>
      have light : t.weight ≤ l := hl ▸ Term.weight_le_length read
      refine Term.valueWith?_congr (fun c hc => ?_) light
      exact ih c.length hc rfl (by omega) (by omega)

/-- The value of a text is that of its term: there is always room for the quotations in it. -/
theorem ofOctets?_eq (b : Octets) :
    ofOctets? b = (Term.ofOctets? greatestDepth b).bind Term.value? := by
  rw [ofOctets?, ofOctetsWithin?]
  cases read : Term.ofOctets? greatestDepth b with
  | none => rfl
  | some t =>
    refine Term.valueWith?_congr (fun c hc => ?_) (Term.weight_le_length read)
    exact ofOctetsWithin?_congr hc (Nat.lt_succ_self _)

end Value

end Fanout.Json
