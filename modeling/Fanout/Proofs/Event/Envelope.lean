import Fanout.Event.Envelope
import Fanout.Frame
import Fanout.Json.Content
import Fanout.Proofs.Json.Written
import Mathlib.Data.Option.Basic

/-!
What becomes of the body of an envelope. It is text, so clients get it in a text frame. It is read
as the envelope again, and the bridge finds its tenant, unless a member of the payload nests deeper
than the reader goes or holds an object that begins with the key of a quotation; then it is neither.
-/

namespace Fanout.Event

open Json (Value Members)

namespace Envelope

/-- Whether containers in the payload nest no deeper than a reader of the body goes. -/
def isShallow (e : Envelope) : Bool :=
  e.payload.all fun m => decide (m.2.term.depth ≤ Json.memberDepth)

/-- Whether no object in the payload would be taken for a quotation. -/
def isPlain (e : Envelope) : Bool := e.payload.all fun m => m.2.isPlain

/-- Whether the body can be read. -/
def isLegible (e : Envelope) : Bool := e.isShallow && e.isPlain

/-- What clients, readers and the bridge make of the body. -/
structure Conveyed (e : Envelope) : Prop where
  frame : ∃ s, Frame.ofBody e.octets = .text s ∧ Octets.ofText s = e.octets
  reading : ofOctets? e.octets = if e.isLegible then some e else none
  scope : Scope.ofOctets e.octets =
    if e.isLegible then
      if e.tenant.isEmpty then .untagged .emptyTenant else .tenant e.tenant
    else .untagged .notObject

/-- The payload ascends by key, leaves the envelope's own keys alone, and holds values that can have
been read. -/
structure Sound (e : Envelope) : Prop where
  ascending : Members.Ascending e.payload
  own : ∀ m ∈ e.payload, m.1 ≠ typeKey ∧ m.1 ≠ tenantKey
  proper : ∀ m ∈ e.payload, m.2.all Value.isProper

variable {e : Envelope}

/-! ### The body as a text of one term -/

theorem isExact_members (exact : ∀ m ∈ e.payload, m.2.isExact) : (Value.object e.members).isExact :=
  Value.isExact_object.mpr
    (List.forall_mem_cons.mpr ⟨rfl, List.forall_mem_cons.mpr ⟨rfl, exact⟩⟩)

theorem ofBody_octets (exact : ∀ m ∈ e.payload, m.2.isExact) :
    ∃ s, Frame.ofBody e.octets = .text s ∧ Octets.ofText s = e.octets := by
  obtain ⟨s, same⟩ : Json.IsText e.octets := Value.isText_octets (isExact_members exact)
  refine ⟨s, ?_, same⟩
  rw [← same, Frame.ofBody, Octets.text?_ofText]

theorem depth_members_le_iff :
    (Value.object e.members).term.depth ≤ Json.greatestDepth ↔ e.isShallow := by
  have inside : ∀ ms : List (String × Value), ∀ d,
      Json.Term.membersDepth (Value.memberTerms ms) ≤ d ↔ ∀ m ∈ ms, m.2.term.depth ≤ d := by
    intro ms d
    induction ms with
    | nil => simp [Value.memberTerms, Json.Term.membersDepth]
    | cons m ms ih => simp [Value.memberTerms, Json.Term.membersDepth_cons_le_iff, ih]
  have bound : Json.greatestDepth = Json.memberDepth + 1 := rfl
  rw [Value.term, Json.Term.depth, bound, Nat.add_le_add_iff_right, inside]
  simp [members, isShallow, Value.term, Json.Term.depth]

theorem termOfOctets?_octets (exact : ∀ m ∈ e.payload, m.2.isExact) :
    Json.Term.ofOctets? Json.greatestDepth e.octets =
      if e.isShallow then some (.object (Value.memberTerms e.members)) else none := by
  have body : Json.Writes (.object (Value.memberTerms e.members)) e.octets :=
    Value.writes (isExact_members exact)
  rw [Json.Term.ofOctets?_written body]
  exact if_congr depth_members_le_iff rfl rfl

/-! ### Reading the body as an envelope -/

theorem mapM_value?_terms {ms : List (String × Value)}
    (exact : ∀ m ∈ ms, m.2.isExact) (proper : ∀ m ∈ ms, m.2.all Value.isProper) :
    ((ms.map fun m => (m.1, m.2.term)).mapM fun (key, t) => t.value?.map fun v => (key, v)) =
      if ms.all fun m => m.2.isPlain then some ms else none := by
  induction ms with
  | nil => rfl
  | cons m ms ih =>
    obtain ⟨exactFirst, exactOthers⟩ := List.forall_mem_cons.mp exact
    obtain ⟨properFirst, properOthers⟩ := List.forall_mem_cons.mp proper
    have first : m.2.term.value? = if m.2.isPlain then some m.2 else none :=
      Value.valueWith?_term exactFirst properFirst
    simp only [List.map_cons, List.mapM_cons, first, ih exactOthers properOthers, List.all_cons]
    by_cases here : m.2.isPlain
    · by_cases rest : ms.all fun m => m.2.isPlain <;> simp [here, rest]
    · simp [here]

/-- Members that begin with the envelope's own keys, which do not come again, make an envelope if
the others have values. -/
theorem ofMembers?_own {rest : List (String × Json.Term)} (type tenant : String)
    (own : ∀ m ∈ rest, m.1 ≠ typeKey ∧ m.1 ≠ tenantKey) :
    ofMembers?
        ((typeKey, (Value.string type).term) :: (tenantKey, (Value.string tenant).term) :: rest) =
      (rest.mapM fun ((key, t) : String × Json.Term) => t.value?.map fun v => (key, v)).map
        fun payload => ⟨type, ⟨tenant⟩, Members.ofList payload⟩ := by
  have apart : typeKey ≠ tenantKey := by decide
  have noType : rest.filter (·.1 == typeKey) = [] :=
    List.filter_eq_nil_iff.mpr fun m hm => by simp [(own m hm).1]
  have noTenant : rest.filter (·.1 == tenantKey) = [] :=
    List.filter_eq_nil_iff.mpr fun m hm => by simp [(own m hm).2]
  have others : rest.filter (fun m => m.1 != typeKey && m.1 != tenantKey) = rest :=
    List.filter_eq_self.mpr fun m hm => by simp [own m hm]
  simp [ofMembers?, Json.required?, Json.field, noType, noTenant, others, apart, apart.symm,
    Value.term, Json.Term.text?, Tenant.ofTerm?, Option.map_eq_bind]

theorem ofMembers?_terms (sound : e.Sound) (exact : ∀ m ∈ e.payload, m.2.isExact) :
    ofMembers? (e.members.map fun m => (m.1, m.2.term)) = if e.isPlain then some e else none := by
  have own : ∀ m ∈ e.payload.map fun m => (m.1, m.2.term), m.1 ≠ typeKey ∧ m.1 ≠ tenantKey :=
    List.forall_mem_map.mpr sound.own
  refine (ofMembers?_own e.type e.tenant.id own).trans ?_
  rw [mapM_value?_terms exact sound.proper, isPlain]
  split
  · rw [Option.map_some, sound.ascending.ofList_eq]
  · rfl

theorem ofOctets?_octets (sound : e.Sound) (exact : ∀ m ∈ e.payload, m.2.isExact) :
    ofOctets? e.octets = if e.isLegible then some e else none := by
  rw [ofOctets?, termOfOctets?_octets exact, isLegible]
  cases e.isShallow with
  | false => rfl
  | true => simpa [ofTerm?, Value.members?_memberTerms] using ofMembers?_terms sound exact

/-! ### Reading the body as a value -/

theorem valueOfOctets?_octets (sound : e.Sound) (exact : ∀ m ∈ e.payload, m.2.isExact) :
    Value.ofOctets? e.octets =
      if e.isLegible then some (.object (Members.ofList e.members)) else none := by
  have proper : ∀ m ∈ e.members, m.2.all Value.isProper :=
    List.forall_mem_cons.mpr ⟨rfl, List.forall_mem_cons.mpr ⟨rfl, sound.proper⟩⟩
  have parts : ∀ m ∈ e.members, m.2.term.valueWith? (Value.ofOctetsWithin? e.octets.length) =
      if m.2.isPlain then some m.2 else none := fun m hm =>
    Value.valueWith?_term (Value.isExact_object.mp (isExact_members exact) m hm) (proper m hm)
  have opens : Value.opensQuotation e.members = false := rfl
  have plain : (e.members.all fun m => m.2.isPlain) = e.isPlain := rfl
  rw [Value.ofOctets?, Value.ofOctetsWithin?, termOfOctets?_octets exact, isLegible]
  cases e.isShallow with
  | false => rfl
  | true =>
    simp [Json.Term.valueWith?, Value.isQuotation_memberTerms, opens,
      Value.entriesWith?_memberTerms parts, plain]

theorem get?_tenantKey (sound : e.Sound) :
    (Members.ofList e.members).get? tenantKey = some (.string e.tenant.id) := by
  have absent : Members.get? e.payload.reverse tenantKey = none :=
    Members.get?_eq_none_iff.mpr fun m hm => (sound.own m (List.mem_reverse.mp hm)).2
  rw [Members.get?_ofList, members, List.reverse_cons, List.reverse_cons, Members.get?,
    List.lookup_append, List.lookup_append]
  rw [Members.get?] at absent
  simp [absent, List.lookup_cons]

theorem scopeOfOctets_octets (sound : e.Sound) (exact : ∀ m ∈ e.payload, m.2.isExact) :
    Scope.ofOctets e.octets =
      if e.isLegible then
        if e.tenant.isEmpty then .untagged .emptyTenant else .tenant e.tenant
      else .untagged .notObject := by
  rw [Scope.ofOctets, valueOfOctets?_octets sound exact]
  cases e.isLegible with
  | false => rfl
  | true => simp [Scope.ofValue, get?_tenantKey sound, Scope.ofMember?, Tenant.isEmpty]

theorem Sound.conveyed (sound : e.Sound) (exact : ∀ m ∈ e.payload, m.2.isExact) : e.Conveyed :=
  ⟨ofBody_octets exact, ofOctets?_octets sound exact, scopeOfOctets_octets sound exact⟩

/-! ### Envelopes that are made and envelopes that are read -/

theorem reservedKey?_eq_none_iff {ms : Members} :
    reservedKey? ms = none ↔ ∀ m ∈ ms, m.1 ≠ typeKey ∧ m.1 ≠ tenantKey := by
  have both : reservedKey? ms = none ↔ ms.get? typeKey = none ∧ ms.get? tenantKey = none := by
    simp [reservedKey?]
  rw [both, Members.get?_eq_none_iff, Members.get?_eq_none_iff, ← forall₂_and]

theorem ofPayload_eq_ok_iff {type : String} {tenant : Tenant} {v : Value} :
    ofPayload type tenant v = .ok e ↔
      ∃ ms, payloadMembers? v = some ms ∧ (∀ m ∈ ms, m.1 ≠ typeKey ∧ m.1 ≠ tenantKey) ∧
        e = ⟨type, tenant, ms⟩ := by
  rw [ofPayload]
  cases payloadMembers? v with
  | none => simp
  | some ms =>
    simp only [← reservedKey?_eq_none_iff]
    cases reserved : reservedKey? ms with
    | none => simp [reserved, eq_comm]
    | some key => simp [reserved]

theorem payloadMembers?_eq_some_iff {v : Value} {ms : Members} :
    payloadMembers? v = some ms ↔ v = .null ∧ ms = [] ∨ v = .object ms := by
  cases v <;> simp [payloadMembers?, eq_comm]

theorem sound_of_ofPayload {type : String} {tenant : Tenant} {v : Value}
    (proper : v.all Value.isProper) (h : ofPayload type tenant v = .ok e) : e.Sound := by
  obtain ⟨ms, said, own, rfl⟩ := ofPayload_eq_ok_iff.mp h
  rcases payloadMembers?_eq_some_iff.mp said with ⟨-, rfl⟩ | rfl
  · exact ⟨List.Pairwise.nil, nofun, nofun⟩
  · rw [Value.all_object, Bool.and_eq_true, List.all_eq_true, Value.isProper, Bool.and_eq_true,
      decide_eq_true_eq] at proper
    exact ⟨proper.1.1, own, proper.2⟩

theorem mem_of_mapM_value? {ms : List (String × Json.Term)} {payload : Members}
    (h : (ms.mapM fun (key, t) => t.value?.map fun v => (key, v)) = some payload) :
    ∀ m ∈ payload, ∃ n ∈ ms, n.1 = m.1 ∧ n.2.value? = some m.2 := by
  induction ms generalizing payload with
  | nil =>
    obtain rfl : [] = payload := by simpa using h
    nofun
  | cons n ms ih =>
    obtain ⟨v, first, rest, others, rfl⟩ : ∃ v, n.2.value? = some v ∧ ∃ rest,
        (ms.mapM fun (key, t) => t.value?.map fun v => (key, v)) = some rest ∧
          (n.1, v) :: rest = payload := by
      simpa [List.mapM_cons, Option.bind_eq_some_iff] using h
    refine List.forall_mem_cons.mpr ⟨⟨n, List.mem_cons_self, rfl, first⟩, fun m hm => ?_⟩
    obtain ⟨o, ho, said⟩ := ih others m hm
    exact ⟨o, List.mem_cons_of_mem n ho, said⟩

theorem sound_of_ofOctets? {body : Octets} (h : ofOctets? body = some e) : e.Sound := by
  obtain ⟨t, -, said⟩ := Option.bind_eq_some_iff.mp h
  obtain ⟨ms, -, made⟩ := Option.bind_eq_some_iff.mp said
  simp only [ofMembers?, Option.bind_eq_bind, Option.bind_eq_some_iff, Option.pure_def,
    Option.some.injEq] at made
  obtain ⟨_, -, _, -, _, -, _, -, payload, read, rfl⟩ := made
  have source := fun m hm => mem_of_mapM_value? read m (Members.mem_ofList hm)
  refine ⟨Members.ascending_ofList payload, fun m hm => ?_, fun m hm => ?_⟩
  · obtain ⟨n, hn, same, -⟩ := source m hm
    rw [← same]
    simpa using (List.mem_filter.mp hn).2
  · obtain ⟨n, -, -, said⟩ := source m hm
    exact Value.isProper_of_valueWith? (fun _ _ => Value.isProper_of_ofOctets?) said

theorem exists_ofPayload_iff {type : String} {tenant : Tenant} {v : Value} :
    (∃ e, ofPayload type tenant v = .ok e) ↔
      v = .null ∨ ∃ ms, v = .object ms ∧ ∀ m ∈ ms, m.1 ≠ typeKey ∧ m.1 ≠ tenantKey := by
  constructor
  · rintro ⟨e, made⟩
    obtain ⟨ms, said, own, rfl⟩ := ofPayload_eq_ok_iff.mp made
    rcases payloadMembers?_eq_some_iff.mp said with ⟨null, -⟩ | object
    · exact .inl null
    · exact .inr ⟨ms, object, own⟩
  · rintro (rfl | ⟨ms, rfl, own⟩)
    · exact ⟨_, ofPayload_eq_ok_iff.mpr ⟨[], rfl, nofun, rfl⟩⟩
    · exact ⟨_, ofPayload_eq_ok_iff.mpr ⟨ms, rfl, own, rfl⟩⟩

theorem isExact_payload {ms : Members} {v : Value} (said : payloadMembers? v = some ms)
    (exact : v.isExact) : ∀ m ∈ ms, m.2.isExact := by
  rcases payloadMembers?_eq_some_iff.mp said with ⟨-, rfl⟩ | rfl
  · nofun
  · exact Value.isExact_object.mp exact

end Envelope

/-- An envelope can be made around null and around an object that leaves its own keys alone, and
around nothing else. What is made around a payload that was read is conveyed if no double is in it,
and so is an envelope that was read. -/
theorem envelope_conveyed (type : String) (tenant : Tenant) (b : Octets) :
    (∀ v, Value.ofOctets? b = some v → v.isExact →
      ((∃ e, Envelope.ofPayload type tenant v = .ok e) ↔
        v = .null ∨ ∃ ms, v = .object ms ∧ ∀ m ∈ ms, m.1 ≠ typeKey ∧ m.1 ≠ tenantKey) ∧
      ∀ e, Envelope.ofPayload type tenant v = .ok e →
        e.type = type ∧ e.tenant = tenant ∧ Envelope.payloadMembers? v = some e.payload ∧
          e.Conveyed) ∧
    ∀ e, Envelope.ofOctets? b = some e → (∀ m ∈ e.payload, m.2.isExact) → e.Conveyed := by
  refine ⟨fun v read exact => ⟨Envelope.exists_ofPayload_iff, fun e made => ?_⟩,
    fun e read => (Envelope.sound_of_ofOctets? read).conveyed⟩
  have sound := Envelope.sound_of_ofPayload (Value.isProper_of_ofOctets? read) made
  obtain ⟨ms, said, -, rfl⟩ := Envelope.ofPayload_eq_ok_iff.mp made
  exact ⟨rfl, rfl, said, sound.conveyed (Envelope.isExact_payload said exact)⟩

theorem envelope_conveyed_greeting :
    let text := "\x7b\"text\":\"hi\"\x7d"
    let e : Envelope := ⟨"message.sent", ⟨"acme"⟩, [("text", .string "hi")]⟩
    Value.ofOctets? (Octets.ofText text) = some (.object e.payload) ∧ e.Conveyed ∧ e.isLegible :=
  have payload := (envelope_conveyed "message.sent" ⟨"acme"⟩
    (Octets.ofText "\x7b\"text\":\"hi\"\x7d")).1 _ rfl rfl
  ⟨rfl, (payload.2 _ rfl).2.2.2, by decide⟩

/-- The second member of an object comes first when it is written, and there it makes a quotation
of the object. So the body is not read any more, and the bridge does not find its tenant. -/
theorem envelope_lost_quoting :
    let member : String × Value :=
      ("a", .object [(Json.quotationKey, .string "x"), ("b", .int 1)])
    let e : Envelope := ⟨"t", ⟨"acme"⟩, [member]⟩
    Value.ofOctets?
        (Octets.ofText "\x7b\"a\":\x7b\"b\":1,\"$serde_json::private::RawValue\":\"x\"\x7d\x7d") =
          some (.object [member]) ∧
      (Value.object [member]).isExact ∧ Envelope.ofPayload "t" ⟨"acme"⟩ (.object [member]) = .ok e ∧
        Envelope.ofOctets? e.octets = none ∧ Scope.ofOctets e.octets = .untagged .notObject :=
  let e : Envelope := ⟨"t", ⟨"acme"⟩,
    [("a", .object [(Json.quotationKey, .string "x"), ("b", .int 1)])]⟩
  have made : Envelope.ofPayload "t" ⟨"acme"⟩ (.object e.payload) = .ok e := rfl
  have lost : e.Conveyed :=
    (Envelope.sound_of_ofPayload (by decide) made).conveyed (by decide)
  ⟨rfl, rfl, made, lost.reading, lost.scope⟩

end Fanout.Event
