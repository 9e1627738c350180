import Fanout.Event.Envelope
import Fanout.Proofs.Json.Entries
import Fanout.Proofs.Json.Field

/-!
The tenant of a body, as its envelope names it and as the bridge finds it. The two agree, except
where a quotation comes in: a body that begins like one is an envelope but no object to the bridge,
and a quoted tenant is a tenant to the bridge but makes no envelope.
-/

namespace Fanout.Event

open Json (Value Members topMembers? entries? beginsQuotation required?)

/-! ### The scope of an object -/

/-- Whether a body is an object that begins like a quotation. -/
def opensQuoting (body : Octets) : Bool := (topMembers? body).any beginsQuotation

theorem Scope.ofOctets_of_topMembers? {body : Octets} {l : List (String × Json.Term)}
    (top : topMembers? body = some l) (several : 2 ≤ l.length) :
    Scope.ofOctets body =
      if beginsQuotation l || (entries? l).isNone then .untagged .notObject
      else Scope.ofMember? ((l.reverse.lookup tenantKey).bind Json.Term.value?) := by
  rw [Scope.ofOctets, Value.ofOctets?_of_topMembers? top several]
  cases beginsQuotation l with
  | true => rfl
  | false =>
    cases values : entries? l with
    | none => rfl
    | some es => exact congrArg Scope.ofMember? (Json.get?_ofList_entries? values tenantKey)

/-! ### The envelope of an object -/

namespace Envelope

/-- The members that are neither the type nor the tenant. -/
def further (l : List (String × Json.Term)) : List (String × Json.Term) :=
  l.filter fun m => m.1 != typeKey && m.1 != tenantKey

theorem ofOctets?_of_topMembers? {body : Octets} {l : List (String × Json.Term)}
    (top : topMembers? body = some l) : ofOctets? body = ofMembers? l := by
  obtain ⟨t, read, named⟩ := Option.bind_eq_some_iff.mp top
  rw [ofOctets?, read, Option.bind_some, ofTerm?, named, Option.bind_some]

theorem topMembers?_of_ofOctets? {body : Octets} {e : Envelope} (h : ofOctets? body = some e) :
    ∃ l, topMembers? body = some l ∧ ofMembers? l = some e := by
  obtain ⟨t, read, said⟩ := Option.bind_eq_some_iff.mp h
  obtain ⟨l, named, made⟩ := Option.bind_eq_some_iff.mp said
  exact ⟨l, Option.bind_eq_some_iff.mpr ⟨t, read, named⟩, made⟩

theorem ofMembers?_eq_some_iff {l : List (String × Json.Term)} {e : Envelope} :
    ofMembers? l = some e ↔
      ∃ y u, required? l typeKey = some y ∧ y.text? = some e.type ∧
        required? l tenantKey = some u ∧ u.text? = some e.tenant.id ∧
          (entries? (further l)).map Members.ofList = some e.payload := by
  obtain ⟨type, ⟨tenant⟩, payload⟩ := e
  simp only [ofMembers?, Tenant.ofTerm?, Option.bind_eq_bind, Option.bind_eq_some_iff,
    Option.map_eq_some_iff, Option.pure_def, Option.some.injEq, mk.injEq]
  constructor
  · rintro ⟨y, one, _, hy, u, two, _, ⟨_, hu, rfl⟩, es, values, rfl, same, rfl⟩
    exact ⟨y, u, one, hy, two, hu.trans (congrArg some (Tenant.mk.inj same)), es, values, rfl⟩
  · rintro ⟨y, u, one, hy, two, hu, es, values, rfl⟩
    exact ⟨y, one, type, hy, u, two, _, ⟨tenant, hu, rfl⟩, es, values, rfl, rfl, rfl⟩

variable {l : List (String × Json.Term)} {y u : Json.Term}

/-- The type and the tenant are two different members. -/
theorem two_le_length (one : required? l typeKey = some y) (two : required? l tenantKey = some u) :
    2 ≤ l.length := by
  have first := Json.mem_of_required? one
  have second := Json.mem_of_required? two
  match l, first, second with
  | [m], first, second =>
    have same := (List.mem_singleton.mp first).trans (List.mem_singleton.mp second).symm
    exact absurd (congrArg Prod.fst same) (show typeKey ≠ tenantKey by decide)
  | _ :: _ :: l, _, _ => exact Nat.le_add_left 2 l.length

/-- If the type and the tenant have values, then all members have, once the others have. -/
theorem isSome_entries?_further (one : required? l typeKey = some y) (hy : y.value?.isSome)
    (two : required? l tenantKey = some u) (hu : u.value?.isSome) :
    (entries? (further l)).isSome ↔ (entries? l).isSome := by
  rw [Json.isSome_entries?_iff, Json.isSome_entries?_iff]
  constructor
  · intro others m hm
    by_cases type : m.1 = typeKey
    · rwa [Json.eq_of_required? one hm type]
    · by_cases tenant : m.1 = tenantKey
      · rwa [Json.eq_of_required? two hm tenant]
      · exact others m (List.mem_filter.mpr ⟨hm, by simp [type, tenant]⟩)
  · intro all m hm
    exact all m (List.mem_filter.mp hm).1

/-- An object whose type is a string and whose tenant stands once is an envelope if the tenant is a
string and all members have values. -/
theorem tenant_ofMembers? (one : required? l typeKey = some y) (hy : y.text?.isSome)
    (two : required? l tenantKey = some u) :
    (ofMembers? l).map Envelope.tenant =
      if (entries? l).isSome then u.text?.map Tenant.mk else none := by
  obtain ⟨type, hy⟩ := Option.isSome_iff_exists.mp hy
  cases hu : u.text? with
  | none =>
    have nothing : ofMembers? l = none := by
      rw [Option.eq_none_iff_forall_ne_some]
      intro e made
      obtain ⟨_, v, -, -, two', hv, -⟩ := ofMembers?_eq_some_iff.mp made
      obtain rfl := Option.some_inj.mp (two.symm.trans two')
      rw [hu] at hv
      cases hv
    simp [nothing]
  | some id =>
    have values : (entries? (further l)).isSome ↔ (entries? l).isSome :=
      isSome_entries?_further one (by simp [Json.Term.value?_of_text? hy]) two
        (by simp [Json.Term.value?_of_text? hu])
    split_ifs with all
    · obtain ⟨es, others⟩ := Option.isSome_iff_exists.mp (values.mpr all)
      have made : ofMembers? l = some ⟨type, ⟨id⟩, Members.ofList es⟩ :=
        ofMembers?_eq_some_iff.mpr ⟨y, u, one, hy, two, hu, by rw [others]; rfl⟩
      rw [made]
      rfl
    · rw [Option.map_eq_none_iff, Option.eq_none_iff_forall_ne_some]
      intro e made
      obtain ⟨_, _, -, -, -, -, others⟩ := ofMembers?_eq_some_iff.mp made
      obtain ⟨es, others, -⟩ := Option.map_eq_some_iff.mp others
      exact all (values.mp (by rw [others]; rfl))

end Envelope

/-! ### Both readings -/

variable {body : Octets} {l : List (String × Json.Term)} {y u : Json.Term}

theorem scope_of_required? (top : topMembers? body = some l)
    (one : required? l typeKey = some y) (two : required? l tenantKey = some u) :
    Scope.ofOctets body =
      if beginsQuotation l || (entries? l).isNone then .untagged .notObject
      else Scope.ofMember? u.value? := by
  rw [Scope.ofOctets_of_topMembers? top (Envelope.two_le_length one two),
    Json.lookup_reverse_of_required? two, Option.bind_some]

theorem scope_of_envelope {e : Envelope} (h : Envelope.ofOctets? body = some e) :
    Scope.ofOctets body =
      if opensQuoting body then .untagged .notObject
      else if e.tenant.isEmpty then .untagged .emptyTenant else .tenant e.tenant := by
  obtain ⟨l, top, made⟩ := Envelope.topMembers?_of_ofOctets? h
  obtain ⟨y, u, one, hy, two, hu, others⟩ := Envelope.ofMembers?_eq_some_iff.mp made
  have values : (entries? l).isSome := by
    apply (Envelope.isSome_entries?_further one (by simp [Json.Term.value?_of_text? hy]) two
      (by simp [Json.Term.value?_of_text? hu])).mp
    obtain ⟨es, others, -⟩ := Option.map_eq_some_iff.mp others
    rw [others]
    rfl
  have quoting : opensQuoting body = beginsQuotation l := by rw [opensQuoting, top]; rfl
  rw [scope_of_required? top one two, Json.Term.value?_of_text? hu, quoting,
    Option.isNone_eq_false_iff.mpr values, Bool.or_false]
  rfl

theorem tenant_of_scope (top : topMembers? body = some l) (one : required? l typeKey = some y)
    (hy : y.text?.isSome) (two : required? l tenantKey = some u)
    (named : Scope.ofOctets body = .untagged .emptyTenant ∨ ∃ t, Scope.ofOctets body = .tenant t) :
    (Envelope.ofOctets? body).map Envelope.tenant =
      if u.text?.isSome then some (Scope.ofOctets body).tag else none := by
  rw [scope_of_required? top one two] at named ⊢
  rw [Envelope.ofOctets?_of_topMembers? top, Envelope.tenant_ofMembers? one hy two]
  cases lost : beginsQuotation l || (entries? l).isNone with
  | true => simp [lost] at named
  | false =>
    have values : (entries? l).isSome := by
      rw [← Option.isNone_eq_false_iff]
      exact (Bool.or_eq_false_iff.mp lost).2
    cases text : u.text? with
    | none => simp [values]
    | some id =>
      have tag : (Scope.ofMember? (some (.string id))).tag = ⟨id⟩ := by
        rw [Scope.ofMember?]
        split_ifs with empty
        · rw [String.isEmpty_iff.mp empty]
          rfl
        · rfl
      simp [values, Json.Term.value?_of_text? text, tag]

/-- A body that is an envelope is scoped by the tenant of the envelope, unless it begins like a
quotation. A body that is scoped by a tenant, has one tenant and one type, and this a string, is an
envelope with that tenant if the tenant is a string, and else it is quoted and makes no envelope. -/
theorem readings_agree (body : Octets) :
    (∀ e, Envelope.ofOctets? body = some e →
      Scope.ofOctets body =
        if opensQuoting body then .untagged .notObject
        else if e.tenant.isEmpty then .untagged .emptyTenant else .tenant e.tenant) ∧
    ∀ l y u, topMembers? body = some l → required? l typeKey = some y → y.text?.isSome →
      required? l tenantKey = some u →
        (Scope.ofOctets body = .untagged .emptyTenant ∨ ∃ t, Scope.ofOctets body = .tenant t) →
          (Envelope.ofOctets? body).map Envelope.tenant =
            if u.text?.isSome then some (Scope.ofOctets body).tag else none := by
  constructor
  · intro e read
    exact scope_of_envelope read
  · intro l y u top one text two named
    exact tenant_of_scope top one text two named

/-- Blanks, an escaped key, a repeated key and a nested tenant make no difference. -/
theorem readings_agree_escaped :
    let body := Octets.ofText
      "\x7b \"tenant\\u005fid\": \"acme\",\n\"type\":\"t\", \"x\":1, \"x\":\x7b\"tenant_id\":\"b\"\x7d\x7d"
    let e : Envelope := ⟨"t", ⟨"acme"⟩, [("x", .object [("tenant_id", .string "b")])]⟩
    Envelope.ofOctets? body = some e ∧ Scope.ofOctets body = .tenant e.tenant ∧
      (Envelope.ofOctets? body).map Envelope.tenant = some (Scope.ofOctets body).tag :=
  let body := Octets.ofText
    "\x7b \"tenant\\u005fid\": \"acme\",\n\"type\":\"t\", \"x\":1, \"x\":\x7b\"tenant_id\":\"b\"\x7d\x7d"
  have scope : Scope.ofOctets body = .tenant ⟨"acme"⟩ :=
    (readings_agree body).1 ⟨"t", ⟨"acme"⟩, [("x", .object [("tenant_id", .string "b")])]⟩ rfl
  ⟨rfl, scope, (readings_agree body).2 _ _ _ rfl rfl rfl rfl (.inr ⟨_, scope⟩)⟩

/-- The key of a quotation in front hides the tenant of an envelope from the bridge; a tenant in a
quotation is one to the bridge and to no reader of envelopes. -/
theorem readings_differ_quoting :
    let opened := Octets.ofText
      "\x7b\"$serde_json::private::RawValue\":\"1\",\"type\":\"t\",\"tenant_id\":\"acme\"\x7d"
    let quoted := Octets.ofText
      "\x7b\"type\":\"t\",\"tenant_id\":\x7b\"$serde_json::private::RawValue\":\"\\\"acme\\\"\"\x7d\x7d"
    ((Envelope.ofOctets? opened).map Envelope.tenant = some ⟨"acme"⟩ ∧
        Scope.ofOctets opened = .untagged .notObject) ∧
      (topMembers? quoted).map (List.map Prod.fst) = some [typeKey, tenantKey] ∧
        ((topMembers? quoted).bind fun l => (required? l typeKey).bind Json.Term.text?) = some "t" ∧
          Scope.ofOctets quoted = .tenant ⟨"acme"⟩ ∧ Envelope.ofOctets? quoted = none :=
  ⟨⟨rfl, rfl⟩, rfl, rfl, rfl, rfl⟩

end Fanout.Event
