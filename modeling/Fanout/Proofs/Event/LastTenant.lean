import Fanout.Event.Scope
import Fanout.Proofs.Json.Literal

/-!
Which member of a body decides about its tenant: the last one under the tenant's key and no other, as
long as no object in the body begins like a quotation. One that does is read as the text it holds, and
then the tenant may be found where it does not stand, or not be found where it stands.
-/

namespace Fanout.Event

open Json (Value Members Writes Blanks beginsQuotation entries? quotedText?)

namespace Scope

/-- The scope that the term under the tenant's key says by itself. -/
def ofTerm? : Option Json.Term → Scope
  | none => untagged .missingTenant
  | some t =>
    match t.text? with
    | none => untagged .tenantNotString
    | some s => if s.isEmpty then untagged .emptyTenant else tenant ⟨s⟩

theorem ofMember?_some (v : Value) :
    ofMember? (some v) =
      match v.text? with
      | none => untagged .tenantNotString
      | some s => if s.isEmpty then untagged .emptyTenant else tenant ⟨s⟩ := by
  cases v <;> rfl

/-- The value of a literal term says the same as the term. -/
theorem ofMember?_value? {t : Json.Term} (literal : t.isLiteral) (valued : t.value?.isSome) :
    ofMember? t.value? = ofTerm? (some t) := by
  obtain ⟨v, hv⟩ := Option.isSome_iff_exists.mp valued
  rw [hv, ofMember?_some, Json.Term.text?_of_valueWith? literal hv]
  rfl

/-- The scope of a text whose term is an object with these members. -/
theorem ofOctets_of_members? {body : Octets} {ms : List (List Json.Mark × Json.Term)}
    {l : List (String × Json.Term)}
    (read : Json.Term.ofOctets? Json.greatestDepth body = some (.object ms))
    (named : (Json.Term.object ms).members? = some l) :
    ofOctets body =
      if beginsQuotation l then
        match quotedText? ms with
        | some s => ofOctets (Octets.ofText s)
        | none => untagged .notObject
      else if ∃ m ∈ l, m.2.value? = none then untagged .notObject
      else ofMember? ((l.reverse.lookup tenantKey).bind Json.Term.value?) := by
  have lost : (∃ m ∈ l, m.2.value? = none) ↔ entries? l = none := by
    rw [← Option.not_isSome_iff_eq_none, Json.isSome_entries?_iff]
    simp
  rw [ofOctets, Value.ofOctets?_eq, read, Option.bind_some, Json.Term.value?_of_members? named]
  cases beginsQuotation l with
  | true =>
    cases quotedText? ms with
    | none => rfl
    | some s => rfl
  | false =>
    cases values : entries? l with
    | none =>
      rw [if_pos (lost.mpr values)]
      rfl
    | some es =>
      have whole : ¬ ∃ m ∈ l, m.2.value? = none := by
        rw [lost, values]
        exact Option.some_ne_none es
      rw [if_neg whole]
      exact congrArg ofMember? (Json.get?_ofList_entries? values tenantKey)

end Scope

/-- A body is scoped by the last member under the tenant's key alone, if it is one object, without an
object in it that begins like a quotation. In general a body that begins like one is scoped as the
text that it holds, if it holds one and nothing else; a member that has no value spoils the body; and
else the value of the last member under the key decides. A body with anything but blanks behind the
object is none. -/
theorem scope_of_last_tenant {ms : List (List Json.Mark × Json.Term)} {pre o post : Octets}
    (written : Writes (.object ms) o) (content : Json.Term.membersAreContent Json.memberDepth ms)
    (before : Blanks pre) (after : Blanks post) :
    let body := pre ++ (o ++ post)
    ∃ l, (Json.Term.object ms).members? = some l ∧
      ((Json.Term.object ms).isLiteral →
        Scope.ofOctets body = Scope.ofTerm? (l.reverse.lookup tenantKey)) ∧
      (Scope.ofOctets body =
        if beginsQuotation l then
          match quotedText? ms with
          | some s => Scope.ofOctets (Octets.ofText s)
          | none => .untagged .notObject
        else if ∃ m ∈ l, m.2.value? = none then .untagged .notObject
        else Scope.ofMember? ((l.reverse.lookup tenantKey).bind Json.Term.value?)) ∧
      ∀ x rest, Json.Reader.isBlank x = false →
        Scope.ofOctets (body ++ x :: rest) = .untagged .notObject := by
  intro body
  obtain ⟨l, named⟩ := Json.Term.exists_members?_of_content content
  have shallow : (Json.Term.object ms).depth ≤ Json.greatestDepth :=
    Json.Term.depth_le_of_isContent (d := Json.memberDepth + 1) content
  have read : Json.Term.ofOctets? Json.greatestDepth body = some (.object ms) := by
    rw [Json.Term.ofOctets?_of_writes before written after, if_pos shallow]
  have scope := Scope.ofOctets_of_members? read named
  refine ⟨l, named, ?_, scope, ?_⟩
  · intro literal
    obtain ⟨plain, inside⟩ := Json.Term.isLiteral_object_iff.mp literal
    have valued : ∀ m ∈ l, m.2.isLiteral ∧ m.2.value?.isSome := by
      intro m hm
      obtain ⟨n, hn, same⟩ := Json.Term.exists_mem_of_members? named hm
      rw [← same]
      have inRange := (Json.Term.membersAreContent_iff.mp content n hn).2
      exact ⟨inside n hn, Json.Term.isSome_valueWith? inRange (inside n hn)⟩
    have none : ¬ ∃ m ∈ l, m.2.value? = none := by
      rintro ⟨m, hm, lost⟩
      have some := (valued m hm).2
      rw [lost] at some
      cases some
    rw [scope, ← Json.Term.isQuotation_eq named, plain, if_neg Bool.false_ne_true, if_neg none]
    cases last : l.reverse.lookup tenantKey with
    | none => rfl
    | some t =>
      obtain ⟨literal, valued⟩ := valued _ (Json.mem_of_lookup_reverse last)
      exact Scope.ofMember?_value? literal valued
  · intro x rest hx
    have nothing : Json.Term.ofOctets? Json.greatestDepth (body ++ x :: rest) = none :=
      Json.Term.ofOctets?_of_trailing before written after hx Json.memberDepth
    rw [Scope.ofOctets, Value.ofOctets?_eq, nothing]
    rfl

/-- A tenant in front of the last one and a tenant inside a member make no difference. -/
theorem scope_of_last_tenant_repeated :
    let body := Octets.ofText
      " \x7b\"tenant_id\":1,\"a\":\x7b\"tenant_id\":\"b\"\x7d,\"tenant_id\":\"acme\"\x7d\n"
    Scope.ofOctets body = .tenant ⟨"acme"⟩ ∧
      Scope.ofOctets (body ++ Octets.ofText "x") = .untagged .notObject := by
  intro body
  let members : List (String × Value) :=
    [("tenant_id", .int 1), ("a", .object [("tenant_id", .string "b")]), ("tenant_id", .string "acme")]
  have blank : Blanks [0x20] ∧ Blanks [0x0A] := by
    constructor <;> simp [Blanks, Json.Reader.isBlank]
  obtain ⟨l, named, literal, -, behind⟩ :=
    scope_of_last_tenant (Value.writes (v := .object members) rfl) (by decide +kernel) blank.1 blank.2
  obtain rfl := Option.some.inj ((Value.members?_memberTerms members).symm.trans named)
  have last : Scope.ofTerm? ((members.map fun m => (m.1, m.2.term)).reverse.lookup tenantKey) =
      .tenant ⟨"acme"⟩ := by decide +kernel
  have written : body = [0x20] ++ ((Value.object members).octets ++ [0x0A]) := by decide +kernel
  rw [written]
  exact ⟨(literal (by decide +kernel)).trans last, behind 0x78 [] (by decide)⟩

/-- A tenant that is no string, but quotes one, is taken for one. A string is not found behind the key
of a quotation. -/
theorem scope_not_of_last_tenant :
    let said (body : Octets) : Option Scope :=
      (Json.topMembers? body).map fun l => Scope.ofTerm? (l.reverse.lookup tenantKey)
    let quoting := Octets.ofText
      "\x7b\"tenant_id\":\x7b\"$serde_json::private::RawValue\":\"\\\"acme\\\"\"\x7d\x7d"
    let opened := Octets.ofText
      "\x7b\"$serde_json::private::RawValue\":\"1\",\"tenant_id\":\"acme\"\x7d"
    (said quoting = some (.untagged .tenantNotString) ∧
        Scope.ofOctets quoting = .tenant ⟨"acme"⟩) ∧
      said opened = some (.tenant ⟨"acme"⟩) ∧ Scope.ofOctets opened = .untagged .notObject :=
  ⟨⟨rfl, rfl⟩, rfl, rfl⟩

end Fanout.Event
