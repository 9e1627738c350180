import Fanout.Json.Evaluation
import Fanout.Proofs.Json.Members
import Fanout.Proofs.Json.Spelling

/-!
Values as they are written and read. A value that was read has integers in range and ascending
members, and its written form, if no double is in it, is a text for one term. That term has the
same value again, unless containers nest too deep or an object is taken for a quotation.
-/

namespace Fanout.Json

/-! ### Induction and parts -/

namespace Value

/-- What is shown for every scalar, and for a container from its parts, holds of all values. -/
@[elab_as_elim]
theorem induction {motive : Value → Prop} (null : motive .null) (bool : ∀ b, motive (.bool b))
    (int : ∀ n, motive (.int n)) (double : ∀ x, motive (.double x))
    (string : ∀ s, motive (.string s))
    (array : ∀ items, (∀ v ∈ items, motive v) → motive (.array items))
    (object : ∀ ms, (∀ m ∈ ms, motive m.2) → motive (.object ms)) (v : Value) : motive v :=
  @Value.rec motive (fun items => ∀ v ∈ items, motive v) (fun ms => ∀ m ∈ ms, motive m.2)
    (fun m => motive m.2) null bool int double string array object nofun
    (fun _ _ h hs => List.forall_mem_cons.mpr ⟨h, hs⟩) nofun
    (fun _ _ h hs => List.forall_mem_cons.mpr ⟨h, hs⟩) (fun _ _ h => h) v

end Value

/-- What is shown for every scalar, and for a container from its parts, holds of all terms. -/
@[elab_as_elim]
theorem Term.induction {motive : Term → Prop} (null : motive .null) (bool : ∀ b, motive (.bool b))
    (number : ∀ n, motive (.number n)) (string : ∀ marks, motive (.string marks))
    (array : ∀ items, (∀ t ∈ items, motive t) → motive (.array items))
    (object : ∀ ms, (∀ m ∈ ms, motive m.2) → motive (.object ms)) (t : Term) : motive t :=
  @Term.rec motive (fun items => ∀ t ∈ items, motive t) (fun ms => ∀ m ∈ ms, motive m.2)
    (fun m => motive m.2) null bool number string array object nofun
    (fun _ _ h hs => List.forall_mem_cons.mpr ⟨h, hs⟩) nofun
    (fun _ _ h hs => List.forall_mem_cons.mpr ⟨h, hs⟩) (fun _ _ h => h) t

mutual

/-- Whether a value and all values in it pass a test. -/
def Value.all (p : Value → Bool) : Value → Bool
  | .null => p .null
  | .bool b => p (.bool b)
  | .int n => p (.int n)
  | .double x => p (.double x)
  | .string s => p (.string s)
  | .array items => p (.array items) && Value.allItems p items
  | .object members => p (.object members) && Value.allMembers p members

def Value.allItems (p : Value → Bool) : List Value → Bool
  | [] => true
  | v :: vs => Value.all p v && Value.allItems p vs

def Value.allMembers (p : Value → Bool) : List (String × Value) → Bool
  | [] => true
  | (_, v) :: ms => Value.all p v && Value.allMembers p ms

end

mutual

/-- The term that a value is written as if no double is in it. -/
def Value.term : Value → Term
  | .null | .double _ => .null
  | .bool b => .bool b
  | .int n => .number (.ofInt n)
  | .string s => .string (Mark.ofText s)
  | .array items => .array (Value.itemTerms items)
  | .object members => .object (Value.memberTerms members)

def Value.itemTerms : List Value → List Term
  | [] => []
  | v :: vs => Value.term v :: Value.itemTerms vs

def Value.memberTerms : List (String × Value) → List (List Mark × Term)
  | [] => []
  | (k, v) :: ms => (Mark.ofText k, Value.term v) :: Value.memberTerms ms

end

namespace Value

def isDouble : Value → Bool
  | double _ => true
  | _ => false

/-- Whether there is no double in a value. -/
def isExact (v : Value) : Bool := v.all fun w => !w.isDouble

/-- Whether the members of an object would be taken for a quotation. -/
def opensQuotation : List (String × Value) → Bool
  | [] => false
  | (k, _) :: _ => k == quotationKey

/-- Whether no object in a value would be taken for a quotation. -/
def isPlain (v : Value) : Bool := v.all fun
  | .object ms => !opensQuotation ms
  | _ => true

/-- Whether a value can be what was read: an integer is in range, and the members of an object
ascend and are not a lone quotation. -/
def isProper : Value → Bool
  | .int n => decide (-2 ^ 63 ≤ n ∧ n < 2 ^ 64)
  | .object ms => decide (Members.Ascending ms) && ms.map Prod.fst != [quotationKey]
  | _ => true

theorem allItems_eq (p : Value → Bool) (items : List Value) :
    allItems p items = items.all (all p) := by
  induction items with
  | nil => rfl
  | cons v items ih => simp [allItems, ih]

theorem allMembers_eq (p : Value → Bool) (ms : List (String × Value)) :
    allMembers p ms = ms.all fun m => all p m.2 := by
  induction ms with
  | nil => rfl
  | cons m ms ih => simp [allMembers, ih]

theorem all_array (p : Value → Bool) (items : List Value) :
    (array items).all p = (p (.array items) && items.all (all p)) := by
  rw [all, allItems_eq]

theorem all_object (p : Value → Bool) (ms : List (String × Value)) :
    (object ms).all p = (p (.object ms) && ms.all fun m => m.2.all p) := by
  rw [all, allMembers_eq]

theorem isExact_array {items : List Value} : (array items).isExact ↔ ∀ v ∈ items, v.isExact := by
  simp [isExact, all_array, isDouble]

theorem isExact_object {ms : List (String × Value)} :
    (object ms).isExact ↔ ∀ m ∈ ms, m.2.isExact := by
  simp [isExact, all_object, isDouble]

theorem isPlain_array (items : List Value) : (array items).isPlain = items.all isPlain := by
  rw [isPlain, all_array, Bool.true_and]
  rfl

theorem isPlain_object (ms : List (String × Value)) :
    (object ms).isPlain = (!opensQuotation ms && ms.all fun m => m.2.isPlain) := by
  rw [isPlain, all_object]
  rfl

/-! ### Writing -/

theorem writesItems_terms {items : List Value} (h : ∀ v ∈ items, Writes v.term v.octets)
    (ne : items ≠ []) : WritesItems (itemTerms items) (itemsOctets items) := by
  induction items with
  | nil => exact absurd rfl ne
  | cons v items ih =>
    obtain ⟨first, others⟩ := List.forall_mem_cons.mp h
    cases items with
    | nil => exact .one first
    | cons w items => exact .cons first (ih others (List.cons_ne_nil w items))

theorem writesMembers_terms {ms : List (String × Value)} (h : ∀ m ∈ ms, Writes m.2.term m.2.octets)
    (ne : ms ≠ []) : WritesMembers (memberTerms ms) (membersOctets ms) := by
  induction ms with
  | nil => exact absurd rfl ne
  | cons m ms ih =>
    obtain ⟨key, v⟩ := m
    obtain ⟨first, others⟩ := List.forall_mem_cons.mp h
    have name := writesMarks_ofText key
    cases ms with
    | nil =>
      rw [membersOctets, quoted, List.cons_append, List.append_assoc]
      exact .one name first
    | cons m ms =>
      rw [membersOctets, quoted, List.cons_append, List.append_assoc]
      exact .cons name first (ih others (List.cons_ne_nil m ms))

/-- A value without doubles is written as the text of its term. -/
theorem writes {v : Value} (exact : v.isExact) : Writes v.term v.octets := by
  induction v using Value.induction with
  | null => exact .null
  | bool b => cases b <;> constructor
  | int n => exact writes_int n
  | double x => cases exact
  | string s => exact .string (writesMarks_ofText s)
  | array items ih =>
    have parts := fun v hv => ih v hv (isExact_array.mp exact v hv)
    cases items with
    | nil => exact .noItems blanks_nil
    | cons v items => exact .items (writesItems_terms parts (List.cons_ne_nil v items))
  | object ms ih =>
    have parts := fun m hm => ih m hm (isExact_object.mp exact m hm)
    cases ms with
    | nil => exact .noMembers blanks_nil
    | cons m ms => exact .members (writesMembers_terms parts (List.cons_ne_nil m ms))

theorem isText_itemsOctets {items : List Value} (h : ∀ v ∈ items, IsText v.octets) :
    IsText (itemsOctets items) := by
  induction items with
  | nil => exact ⟨"", rfl⟩
  | cons v items ih =>
    obtain ⟨first, others⟩ := List.forall_mem_cons.mp h
    cases items with
    | nil => exact first
    | cons w items => exact isText_append first (isText_cons (by decide) (ih others))

theorem isText_membersOctets {ms : List (String × Value)} (h : ∀ m ∈ ms, IsText m.2.octets) :
    IsText (membersOctets ms) := by
  induction ms with
  | nil => exact ⟨"", rfl⟩
  | cons m ms ih =>
    obtain ⟨key, v⟩ := m
    obtain ⟨first, others⟩ := List.forall_mem_cons.mp h
    have name := isText_quoted key
    cases ms with
    | nil => exact isText_append name (isText_cons (by decide) first)
    | cons m ms =>
      have rest := isText_append first (isText_cons (b := 0x2C) (by decide) (ih others))
      exact isText_append name (isText_cons (by decide) rest)

/-- All that is written is text. -/
theorem isText_octets {v : Value} (exact : v.isExact) : IsText v.octets := by
  induction v using Value.induction with
  | null => exact isText_ascii (by decide)
  | bool b => cases b <;> exact isText_ascii (by decide)
  | int n => exact isText_int n
  | double x => cases exact
  | string s => exact isText_quoted s
  | array items ih =>
    have parts := isText_itemsOctets fun v hv => ih v hv (isExact_array.mp exact v hv)
    exact isText_cons (by decide) (isText_append parts (isText_ascii (by decide)))
  | object ms ih =>
    have parts := isText_membersOctets fun m hm => ih m hm (isExact_object.mp exact m hm)
    exact isText_cons (by decide) (isText_append parts (isText_ascii (by decide)))

/-! ### Reading back -/

variable {quoted : Octets → Option Value}

theorem valuesWith?_itemTerms {items : List Value}
    (h : ∀ v ∈ items, v.term.valueWith? quoted = if v.isPlain then some v else none) :
    Term.valuesWith? quoted (itemTerms items) = if items.all isPlain then some items else none := by
  induction items with
  | nil => rfl
  | cons v items ih =>
    obtain ⟨first, others⟩ := List.forall_mem_cons.mp h
    rw [itemTerms, Term.valuesWith?, first, ih others, List.all_cons]
    cases v.isPlain <;> cases items.all isPlain <;> rfl

theorem entriesWith?_memberTerms {ms : List (String × Value)}
    (h : ∀ m ∈ ms, m.2.term.valueWith? quoted = if m.2.isPlain then some m.2 else none) :
    Term.entriesWith? quoted (memberTerms ms) =
      if ms.all fun m => m.2.isPlain then some ms else none := by
  induction ms with
  | nil => rfl
  | cons m ms ih =>
    obtain ⟨key, v⟩ := m
    obtain ⟨first, others⟩ := List.forall_mem_cons.mp h
    rw [memberTerms, Term.entriesWith?, first, ih others, List.all_cons, Mark.text?_ofText]
    cases v.isPlain <;> cases (ms.all fun m => m.2.isPlain) <;> rfl

theorem members?_memberTerms (ms : List (String × Value)) :
    (Term.object (memberTerms ms)).members? = some (ms.map fun m => (m.1, m.2.term)) := by
  rw [Term.members?]
  induction ms with
  | nil => rfl
  | cons m ms ih => simp [memberTerms, ih]

theorem isQuotation_memberTerms (ms : List (String × Value)) :
    isQuotation (memberTerms ms) = opensQuotation ms := by
  cases ms with
  | nil => rfl
  | cons m ms => simp [memberTerms, isQuotation, opensQuotation]

/-- An object that begins with the key of a quotation has more members, so it quotes nothing. -/
theorem quotedText?_memberTerms {ms : List (String × Value)} (opens : opensQuotation ms)
    (more : ms.map Prod.fst ≠ [quotationKey]) : quotedText? (memberTerms ms) = none := by
  match ms, opens with
  | [(key, v)], opens => exact absurd (by simpa [opensQuotation] using opens) more
  | _ :: _ :: _, _ => rfl

/-- The term of a value that can have been read has this value, unless an object in it would be
taken for a quotation. -/
theorem valueWith?_term {v : Value} (exact : v.isExact) (proper : v.all isProper) :
    v.term.valueWith? quoted = if v.isPlain then some v else none := by
  induction v using Value.induction with
  | null | bool b => rfl
  | int n =>
    have range : -2 ^ 63 ≤ n ∧ n < 2 ^ 64 := by simpa [all, isProper] using proper
    exact Numeral.value?_ofInt range.1 range.2
  | double x => cases exact
  | string s =>
    rw [term, Term.valueWith?, Mark.text?_ofText]
    rfl
  | array items ih =>
    rw [all_array, Bool.and_eq_true, List.all_eq_true] at proper
    have parts := fun v hv => ih v hv (isExact_array.mp exact v hv) (proper.2 v hv)
    rw [term, Term.valueWith?, valuesWith?_itemTerms parts, isPlain_array]
    cases items.all isPlain <;> rfl
  | object ms ih =>
    rw [all_object, Bool.and_eq_true, List.all_eq_true] at proper
    have parts := fun m hm => ih m hm (isExact_object.mp exact m hm) (proper.2 m hm)
    have own : Members.Ascending ms ∧ ms.map Prod.fst ≠ [quotationKey] := by
      simpa [isProper] using proper.1
    rw [term, Term.valueWith?, isQuotation_memberTerms, entriesWith?_memberTerms parts,
      isPlain_object]
    cases opens : opensQuotation ms with
    | true => simp [quotedText?_memberTerms opens own.2]
    | false => cases (ms.all fun m => m.2.isPlain) <;> simp [own.1.ofList_eq]

/-! ### What was read -/

theorem mem_of_valuesWith? {items : List Term} {vs : List Value}
    (h : Term.valuesWith? quoted items = some vs) :
    ∀ v ∈ vs, ∃ t ∈ items, t.valueWith? quoted = some v := by
  induction items generalizing vs with
  | nil =>
    obtain rfl : [] = vs := by simpa [Term.valuesWith?] using h
    nofun
  | cons t items ih =>
    rw [Term.valuesWith?] at h
    cases first : t.valueWith? quoted with
    | none => simp [first] at h
    | some w =>
      obtain ⟨ws, others, rfl⟩ : ∃ ws, Term.valuesWith? quoted items = some ws ∧ w :: ws = vs := by
        simpa [first] using h
      refine List.forall_mem_cons.mpr ⟨⟨t, List.mem_cons_self, first⟩, fun v hv => ?_⟩
      obtain ⟨u, hu, said⟩ := ih others v hv
      exact ⟨u, List.mem_cons_of_mem t hu, said⟩

theorem entriesWith?_cons {key : List Mark} {t : Term} {ms : List (List Mark × Term)}
    {es : List (String × Value)} (h : Term.entriesWith? quoted ((key, t) :: ms) = some es) :
    ∃ k v rest, Mark.text? key = some k ∧ t.valueWith? quoted = some v ∧
      Term.entriesWith? quoted ms = some rest ∧ es = (k, v) :: rest := by
  rw [Term.entriesWith?] at h
  split at h
  next k v name first =>
    obtain ⟨rest, others, rfl⟩ := Option.map_eq_some_iff.mp h
    exact ⟨k, v, rest, name, first, others, rfl⟩
  next => cases h

theorem mem_of_entriesWith? {ms : List (List Mark × Term)} {es : List (String × Value)}
    (h : Term.entriesWith? quoted ms = some es) :
    ∀ e ∈ es, ∃ m ∈ ms, m.2.valueWith? quoted = some e.2 := by
  induction ms generalizing es with
  | nil =>
    obtain rfl : [] = es := by simpa [Term.entriesWith?] using h
    nofun
  | cons m ms ih =>
    obtain ⟨k, v, rest, -, first, others, rfl⟩ := entriesWith?_cons h
    refine List.forall_mem_cons.mpr ⟨⟨m, List.mem_cons_self, first⟩, fun e he => ?_⟩
    obtain ⟨n, hn, said⟩ := ih others e he
    exact ⟨n, List.mem_cons_of_mem m hn, said⟩

theorem opensQuotation_of_entriesWith? {ms : List (List Mark × Term)} {es : List (String × Value)}
    (h : Term.entriesWith? quoted ms = some es) : opensQuotation es = isQuotation ms := by
  cases ms with
  | nil =>
    obtain rfl : [] = es := by simpa [Term.entriesWith?] using h
    rfl
  | cons m ms =>
    obtain ⟨k, v, rest, name, -, -, rfl⟩ := entriesWith?_cons h
    simp [opensQuotation, isQuotation, name]

/-- Members that do not begin with the key of a quotation are not a lone one. -/
theorem isProper_ofMembers {es : List (String × Value)} (h : opensQuotation es = false) :
    isProper (.object (Members.ofList es)) := by
  have more : (Members.ofList es).map Prod.fst ≠ [quotationKey] := by
    intro lone
    cases es with
    | nil => cases lone
    | cons e es =>
      obtain ⟨n, hn, same⟩ := Members.key_mem_ofList (List.mem_cons_self (a := e) (l := es))
      have key : n.1 = quotationKey := by simpa [lone] using List.mem_map_of_mem (f := Prod.fst) hn
      simp [opensQuotation, ← same, key] at h
  simp [isProper, Members.ascending_ofList, more]

theorem isProper_value? {n : Numeral} {v : Value} (h : n.value? = some v) : v.all isProper := by
  rw [Numeral.value?] at h
  cases whole : n.integer? with
  | none =>
    obtain ⟨x, -, rfl⟩ := Option.map_eq_some_iff.mp (by simpa only [whole] using h)
    rfl
  | some i =>
    obtain rfl : Value.int i = v := by simpa [whole] using h
    exact decide_eq_true (Numeral.integer?_range whole)

theorem isProper_of_valueWith? (hq : ∀ b v, quoted b = some v → v.all isProper) {t : Term}
    {v : Value} (h : t.valueWith? quoted = some v) : v.all isProper := by
  induction t using Term.induction generalizing v with
  | null | bool b =>
    obtain rfl := Option.some_inj.mp h
    rfl
  | number n => exact isProper_value? h
  | string marks =>
    obtain ⟨s, -, rfl⟩ := Option.map_eq_some_iff.mp h
    rfl
  | array items ih =>
    obtain ⟨vs, said, rfl⟩ := Option.map_eq_some_iff.mp h
    rw [all_array, Bool.and_eq_true, List.all_eq_true]
    refine ⟨rfl, fun v hv => ?_⟩
    obtain ⟨t, ht, read⟩ := mem_of_valuesWith? said v hv
    exact ih t ht read
  | object ms ih =>
    rw [Term.valueWith?] at h
    split_ifs at h with quotes
    · obtain ⟨s, -, read⟩ := Option.bind_eq_some_iff.mp h
      exact hq _ _ read
    · obtain ⟨es, said, rfl⟩ := Option.map_eq_some_iff.mp h
      rw [all_object, Bool.and_eq_true, List.all_eq_true]
      have opens := opensQuotation_of_entriesWith? said
      refine ⟨isProper_ofMembers (opens.trans (Bool.eq_false_iff.mpr quotes)), fun m hm => ?_⟩
      obtain ⟨n, hn, read⟩ := mem_of_entriesWith? said m (Members.mem_ofList hm)
      exact ih n hn read

theorem isProper_of_ofOctetsWithin? {n : Nat} {b : Octets} {v : Value}
    (h : ofOctetsWithin? n b = some v) : v.all isProper := by
  induction n generalizing b v with
  | zero => cases h
  | succ n ih =>
    obtain ⟨t, -, said⟩ := Option.bind_eq_some_iff.mp h
    exact isProper_of_valueWith? (fun _ _ read => ih read) said

theorem isProper_of_ofOctets? {b : Octets} {v : Value} (h : ofOctets? b = some v) :
    v.all isProper :=
  isProper_of_ofOctetsWithin? h

end Value

end Fanout.Json
