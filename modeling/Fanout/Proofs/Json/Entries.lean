import Fanout.Proofs.Json.Quotation

/-!
The members of an object under the texts of their keys. They have values if every one of them has,
and what stands last under a key in the terms stands last in the values. An object that does not
begin like a quotation has the value that its members make.
-/

namespace Fanout.Json

/-- The members of the object that a text consists of. -/
def topMembers? (b : Octets) : Option (List (String × Term)) :=
  (Term.ofOctets? greatestDepth b).bind Term.members?

/-- The values of members, if all have one. -/
def entries? (l : List (String × Term)) : Option (List (String × Value)) :=
  l.mapM fun (key, t) => t.value?.map fun v => (key, v)

/-- Whether members begin like a quotation. -/
def beginsQuotation : List (String × Term) → Bool
  | [] => false
  | (key, _) :: _ => key == quotationKey

/-! ### Values of members -/

theorem entries?_cons_eq_some_iff {m : String × Term} {l : List (String × Term)}
    {es : List (String × Value)} :
    entries? (m :: l) = some es ↔
      ∃ v rest, m.2.value? = some v ∧ entries? l = some rest ∧ (m.1, v) :: rest = es := by
  simp [entries?, List.mapM_cons, Option.bind_eq_some_iff]

theorem isSome_entries?_iff {l : List (String × Term)} :
    (entries? l).isSome ↔ ∀ m ∈ l, m.2.value?.isSome := by
  induction l with
  | nil => simp [entries?]
  | cons m l ih =>
    rw [List.forall_mem_cons, ← ih]
    simp only [Option.isSome_iff_exists, entries?_cons_eq_some_iff]
    constructor
    · rintro ⟨_, v, rest, first, others, rfl⟩
      exact ⟨⟨v, first⟩, rest, others⟩
    · rintro ⟨⟨v, first⟩, rest, others⟩
      exact ⟨_, v, rest, first, others, rfl⟩

theorem lookup_entries? {l : List (String × Term)} {es : List (String × Value)}
    (h : entries? l = some es) (key : String) :
    es.lookup key = (l.lookup key).bind Term.value? := by
  induction l generalizing es with
  | nil =>
    obtain rfl : [] = es := by simpa [entries?] using h
    rfl
  | cons m l ih =>
    obtain ⟨v, rest, first, others, rfl⟩ := entries?_cons_eq_some_iff.mp h
    rw [List.lookup_cons, List.lookup_cons]
    by_cases same : key == m.1
    · simp [same, first]
    · simp [same, ih others]

theorem entries?_reverse {l : List (String × Term)} {es : List (String × Value)}
    (h : entries? l = some es) : entries? l.reverse = some es.reverse := by
  induction l generalizing es with
  | nil =>
    obtain rfl : [] = es := by simpa [entries?] using h
    rfl
  | cons m l ih =>
    obtain ⟨v, rest, first, others, rfl⟩ := entries?_cons_eq_some_iff.mp h
    have front : l.reverse.mapM (fun (key, t) => t.value?.map fun v => (key, v)) =
        some rest.reverse := ih others
    rw [entries?, List.reverse_cons, List.mapM_append, front]
    simp [first]

/-- Of the members under one key the value of the last one counts. -/
theorem get?_ofList_entries? {l : List (String × Term)} {es : List (String × Value)}
    (h : entries? l = some es) (key : String) :
    (Members.ofList es).get? key = (l.reverse.lookup key).bind Term.value? := by
  rw [Members.get?_ofList, Members.get?, lookup_entries? (entries?_reverse h)]

/-! ### The value of an object -/

namespace Term

theorem value?_of_text? {t : Term} {s : String} (h : t.text? = some s) :
    t.value? = some (.string s) := by
  cases t with
  | string marks => exact congrArg (Option.map Value.string) h
  | _ => cases h

theorem members?_cons_eq_some_iff {key : List Mark} {t : Term} {ms : List (List Mark × Term)}
    {l : List (String × Term)} :
    (object ((key, t) :: ms)).members? = some l ↔
      ∃ k rest, Mark.text? key = some k ∧ (object ms).members? = some rest ∧
        (k, t) :: rest = l := by
  simp [members?, List.mapM_cons, Option.bind_eq_some_iff]

theorem entriesWith?_eq {ms : List (List Mark × Term)} {l : List (String × Term)}
    (h : (object ms).members? = some l) : entriesWith? Value.ofOctets? ms = entries? l := by
  induction ms generalizing l with
  | nil =>
    obtain rfl : [] = l := by simpa [members?] using h
    rfl
  | cons m ms ih =>
    obtain ⟨k, rest, name, others, rfl⟩ := members?_cons_eq_some_iff.mp h
    have tail : rest.mapM (fun (key, t) => t.value?.map fun v => (key, v)) =
        entriesWith? Value.ofOctets? ms := (ih others).symm
    rw [entriesWith?, entries?, List.mapM_cons, name, tail]
    cases first : m.2.valueWith? Value.ofOctets? with
    | none => simp [value?, first]
    | some v => cases entriesWith? Value.ofOctets? ms <;> simp [value?, first]

theorem isQuotation_eq {ms : List (List Mark × Term)} {l : List (String × Term)}
    (h : (object ms).members? = some l) : isQuotation ms = beginsQuotation l := by
  cases ms with
  | nil =>
    obtain rfl : [] = l := by simpa [members?] using h
    rfl
  | cons m ms =>
    obtain ⟨k, rest, name, -, rfl⟩ := members?_cons_eq_some_iff.mp h
    rw [isQuotation, name, beginsQuotation]
    rfl

theorem length_of_members? {ms : List (List Mark × Term)} {l : List (String × Term)}
    (h : (object ms).members? = some l) : ms.length = l.length := by
  induction ms generalizing l with
  | nil =>
    obtain rfl : [] = l := by simpa [members?] using h
    rfl
  | cons m ms ih =>
    obtain ⟨k, rest, -, others, rfl⟩ := members?_cons_eq_some_iff.mp h
    rw [List.length_cons, List.length_cons, ih others]

/-- An object of several members is no quotation of anything, and no object either if it begins like
a quotation. -/
theorem value?_object {ms : List (List Mark × Term)} {l : List (String × Term)}
    (h : (object ms).members? = some l) (several : 2 ≤ l.length) :
    (object ms).value? =
      if beginsQuotation l then none
      else (entries? l).map fun es => .object (Members.ofList es) := by
  rw [value?, valueWith?, isQuotation_eq h, entriesWith?_eq h]
  rw [← length_of_members? h] at several
  have nothing : quotedText? ms = none := by
    obtain _ | ⟨_, _ | ⟨_, _⟩⟩ := ms
    · simp at several
    · simp at several
    · rfl
  rw [nothing, Option.bind_none]

end Term

/-- The value of a text that is an object of several members. -/
theorem Value.ofOctets?_of_topMembers? {b : Octets} {l : List (String × Term)}
    (h : topMembers? b = some l) (several : 2 ≤ l.length) :
    Value.ofOctets? b =
      if beginsQuotation l then none
      else (entries? l).map fun es => .object (Members.ofList es) := by
  obtain ⟨t, read, named⟩ := Option.bind_eq_some_iff.mp h
  rw [Value.ofOctets?_eq, read, Option.bind_some]
  cases t with
  | object ms => exact Term.value?_object named several
  | _ => cases named

end Fanout.Json
