import Fanout.Proofs.Http.Socket
import Fanout.Proofs.Text.Blank
import Fanout.Proofs.Text.Form

/-!
Which credential a request shows, and that it does not matter where. The first pair named `token` counts
unless it is blank, then the first field of authorization. Requests that show the same credential and
agree in everything else are answered alike.
-/

namespace Fanout

open Text (Framed Tight)

/-! ### Cores of texts -/

namespace Credential

/-- A credential in a text: what stands between its blanks, if anything does. -/
structure Held (s t : String) : Prop where
  framed : Framed t s
  tight : Tight t
  nonempty : t ≠ ""

/-- A text without a credential. -/
def Blank (s : String) : Prop := Framed "" s

variable {s t : String}

theorem trimmed?_eq_some_iff : trimmed? s = some t ↔ Held s t := by
  have cut : trimmed? s = if Text.trim s = "" then none else some (Text.trim s) := by
    simp [trimmed?]
  rw [cut]
  constructor
  · intro h
    split at h
    · cases h
    · next filled =>
      cases h
      exact ⟨Text.framed_trim s, Text.tight_trim s, filled⟩
  · rintro ⟨framed, tight, filled⟩
    rw [Text.trim_eq_iff.mpr ⟨framed, tight⟩, if_neg filled]

theorem trimmed?_eq_none_iff : trimmed? s = none ↔ Blank s := by
  have empty : Tight "" := by decide
  have cut : trimmed? s = none ↔ Text.trim s = "" := by simp [trimmed?]
  rw [cut, Text.trim_eq_iff, and_iff_left empty, Blank]

theorem trimmed?_of_tight (h : Tight t) (filled : t ≠ "") : trimmed? t = some t := by
  rw [trimmed?, Text.tight_iff_trim_eq.mp h, if_neg (by simpa using filled)]

/-- What follows a start is the rest of the text. -/
theorem after?_eq_some_iff {start rest : String} : after? start s = some rest ↔ s = start ++ rest := by
  rw [after?]
  constructor
  · intro h
    split at h
    · next isPrefix =>
      cases h
      obtain ⟨tail, same⟩ := List.isPrefixOf_iff_prefix.mp isPrefix
      apply String.toList_injective
      rw [String.toList_append, String.toList_ofList, ← same, ← String.length_toList,
        List.drop_left]
    · cases h
  · rintro rfl
    rw [String.toList_append, if_pos (List.isPrefixOf_iff_prefix.mpr ⟨_, rfl⟩),
      ← String.length_toList, List.drop_left, String.ofList_toList]

theorem ofPairs?_eq_some_iff {pairs : List (String × String)} {v : String} :
    ofPairs? pairs = some v ↔
      ∃ before after, pairs = before ++ ("token", v) :: after ∧ ∀ p ∈ before, p.1 ≠ "token" := by
  rw [ofPairs?, Option.map_eq_some_iff]
  constructor
  · rintro ⟨⟨name, value⟩, found, rfl⟩
    obtain ⟨named, before, after, rfl, none⟩ := List.find?_eq_some_iff_append.mp found
    obtain rfl : name = "token" := by simpa using named
    exact ⟨before, after, rfl, fun p hp => by simpa using none p hp⟩
  · rintro ⟨before, after, rfl, none⟩
    refine ⟨("token", v), List.find?_eq_some_iff_append.mpr ⟨by simp, before, after, rfl, ?_⟩, rfl⟩
    exact fun p hp => by simpa using none p hp

end Credential

namespace Http

/-! ### The first field of a name -/

theorem Headers.get?_eq_some_iff {h : Headers} {name : String} {value : Octets} :
    h.get? name = some value ↔
      ∃ before field after, h = before ++ field :: after ∧ field.isNamed name ∧ field.value = value ∧
        ∀ f ∈ before, f.isNamed name = false := by
  rw [get?, Option.map_eq_some_iff]
  constructor
  · rintro ⟨field, found, rfl⟩
    obtain ⟨named, before, after, rfl, none⟩ := List.find?_eq_some_iff_append.mp found
    exact ⟨before, field, after, rfl, named, rfl, fun f hf => by simpa using none f hf⟩
  · rintro ⟨before, field, after, rfl, named, rfl, none⟩
    refine ⟨field, List.find?_eq_some_iff_append.mpr ⟨named, before, after, rfl, ?_⟩, rfl⟩
    exact fun f hf => by simpa using none f hf

theorem Headers.text?_eq_some_iff {h : Headers} {name s : String} :
    h.text? name = some s ↔ h.get? name = some (Octets.ofText s) ∧
      (Octets.ofText s).all isTextOctet := by
  rw [text?, Option.bind_eq_some_iff]
  constructor
  · rintro ⟨value, found, read⟩
    split at read
    · next isText =>
      obtain rfl := Octets.ofText_of_text?_eq_some read
      exact ⟨found, isText⟩
    · cases read
  · rintro ⟨found, isText⟩
    exact ⟨_, found, by rw [if_pos isText, Octets.text?_ofText]⟩

/-- Fields with the credential. -/
def Field.isAuthorization (f : Field) : Bool := f.isNamed "authorization"

/-- The fields of a request but those with a credential. -/
def Headers.others (h : Headers) : Headers := h.filter fun f => !f.isAuthorization

/-- A field of another name is found among the others. -/
theorem Headers.get?_others {name : String} (h : Headers)
    (other : (Octets.ofText "authorization").map Octets.lowerAscii ≠
      (Octets.ofText name).map Octets.lowerAscii) :
    h.others.get? name = h.get? name := by
  have apart : ∀ f : Field, f.isNamed name → f.isAuthorization = false := by
    intro f named
    rw [Field.isNamed, Octets.eqIgnoringCase, beq_iff_eq] at named
    rw [Field.isAuthorization, Field.isNamed, Octets.eqIgnoringCase, named]
    simpa using Ne.symm other
  rw [get?, others, List.find?_filter, get?]
  congr 2
  funext f
  rw [Bool.eq_iff_iff, decide_eq_true_iff, Bool.not_eq_true', and_iff_right_iff_imp]
  exact apart f

/-- The handshake does not look at fields with a credential. -/
theorem upgradeFault?_others (method : String) (h : Headers) (transport : Bool) :
    upgradeFault? method h.others transport = upgradeFault? method h transport := by
  have mentions : h.others.mentions "connection" "upgrade" = h.mentions "connection" "upgrade" := by
    rw [Headers.mentions, h.get?_others (by decide), Headers.mentions]
  have upgrade : h.others.equals "upgrade" "websocket" = h.equals "upgrade" "websocket" := by
    rw [Headers.equals, h.get?_others (by decide), Headers.equals]
  have version :
      h.others.equals "sec-websocket-version" "13" = h.equals "sec-websocket-version" "13" := by
    rw [Headers.equals, h.get?_others (by decide), Headers.equals]
  have key : h.others.get? "sec-websocket-key" = h.get? "sec-websocket-key" :=
    h.get?_others (by decide)
  rw [upgradeFault?, mentions, upgrade, version, key, upgradeFault?]

namespace Request

variable {r r' : Request} {v t : String}

/-! ### What a request shows -/

def queryPairs (r : Request) : List (String × String) := Text.Form.pairs (r.target.query.getD [])

/-- The value of the first pair named `token`. -/
def FirstToken (r : Request) (v : String) : Prop :=
  ∃ before after, r.queryPairs = before ++ ("token", v) :: after ∧ ∀ p ∈ before, p.1 ≠ "token"

/-- The value of the first field of authorization. -/
def FirstAuthorization (r : Request) (value : Octets) : Prop :=
  ∃ before field after, r.headers = before ++ field :: after ∧ field.isAuthorization ∧
    field.value = value ∧ ∀ f ∈ before, f.isAuthorization = false

/-- A credential that a request shows: in the query, or in a field if the query has none. -/
inductive Shows (r : Request) (t : String) : Prop
  | query (v : String) (first : r.FirstToken v) (held : Credential.Held v t)
  | field (blank : ∀ v, r.FirstToken v → Credential.Blank v) (rest : String)
      (first : r.FirstAuthorization (Octets.ofText ("Bearer " ++ rest)))
      (isText : (Octets.ofText ("Bearer " ++ rest)).all Headers.isTextOctet)
      (held : Credential.Held rest t)

theorem ofQuery?_eq_some_iff : Credential.ofQuery? r.target.query = some v ↔ r.FirstToken v :=
  Credential.ofPairs?_eq_some_iff

theorem ofHeaders?_eq_some_iff : Credential.ofHeaders? r.headers = some t ↔
    ∃ rest, r.FirstAuthorization (Octets.ofText ("Bearer " ++ rest)) ∧
      (Octets.ofText ("Bearer " ++ rest)).all Headers.isTextOctet ∧ Credential.Held rest t := by
  simp only [Credential.ofHeaders?, Option.bind_eq_some_iff, Headers.text?_eq_some_iff,
    Credential.after?_eq_some_iff, Credential.trimmed?_eq_some_iff]
  constructor
  · rintro ⟨rest, ⟨s, ⟨found, isText⟩, rfl⟩, held⟩
    exact ⟨rest, Headers.get?_eq_some_iff.mp found, isText, held⟩
  · rintro ⟨rest, first, isText, held⟩
    exact ⟨rest, ⟨_, ⟨Headers.get?_eq_some_iff.mpr first, isText⟩, rfl⟩, held⟩

theorem credential_eq_some_iff : r.credential = some t ↔ r.Shows t := by
  have blank_iff : (Credential.ofQuery? r.target.query).bind Credential.trimmed? = none ↔
      ∀ v, r.FirstToken v → Credential.Blank v := by
    simp only [Option.bind_eq_none_iff, Credential.trimmed?_eq_none_iff, ofQuery?_eq_some_iff]
  rw [credential, Credential.find?, Option.or_eq_some_iff, Option.bind_eq_some_iff, blank_iff,
    ofHeaders?_eq_some_iff]
  simp only [ofQuery?_eq_some_iff, Credential.trimmed?_eq_some_iff]
  constructor
  · rintro (⟨v, first, held⟩ | ⟨blank, rest, first, isText, held⟩)
    · exact .query v first held
    · exact .field blank rest first isText held
  · rintro (⟨v, first, held⟩ | ⟨blank, rest, first, isText, held⟩)
    · exact .inl ⟨v, first, held⟩
    · exact .inr ⟨blank, rest, first, isText, held⟩

theorem Shows.held (h : r.Shows t) : Tight t ∧ t ≠ "" := by
  cases h with
  | query v first held => exact ⟨held.tight, held.nonempty⟩
  | field blank rest first isText held => exact ⟨held.tight, held.nonempty⟩

/-! ### Requests that are answered alike -/

/-- Two requests get the same response, whatever the state of the service is. Over a connection that
could become a socket one is opened for both and for the same bearer, or both are turned down alike. -/
def AnsweredAlike (r r' : Request) : Prop :=
  ∀ c : Context, r.respond c = r'.respond c ∧
    ∀ transport, r.openSocket c transport = r'.openSocket c transport

theorem answeredAlike_of_credential (method : r.method = r'.method)
    (path : r.target.path = r'.target.path) (others : r.headers.others = r'.headers.others)
    (credential : r.credential = r'.credential) : AnsweredAlike r r' := by
  intro c
  have opened : ∀ transport, r.openSocket c transport = r'.openSocket c transport := by
    intro transport
    have handshake : upgradeFault? r.method r.headers transport =
        upgradeFault? r'.method r'.headers transport := by
      rw [← upgradeFault?_others, others, upgradeFault?_others, method]
    rw [openSocket, openSocket, bearer_eq, bearer_eq, credential, handshake]
  have answered : ∀ route : Route, route.answer c r = route.answer c r' := by
    intro route
    cases route with
    | health => rfl
    | realtime => rfl
    | socket => rw [Route.answer, Route.answer, opened false]
  refine ⟨?_, opened⟩
  rw [respond, respond, routed, routed, options, options, method, path]
  simp only [answered]

theorem FirstToken.unique {w : String} (h : r.FirstToken v) (h' : r.FirstToken w) : v = w :=
  Option.some.inj ((ofQuery?_eq_some_iff.mpr h).symm.trans (ofQuery?_eq_some_iff.mpr h'))

theorem credential_of_firstToken (first : r.FirstToken v) (filled : ¬ Credential.Blank v) :
    r.credential = Credential.trimmed? v := by
  obtain ⟨t, held⟩ : ∃ t, Credential.trimmed? v = some t := by
    rw [← Credential.trimmed?_eq_none_iff] at filled
    exact Option.ne_none_iff_exists'.mp filled
  rw [held, credential_eq_some_iff]
  exact .query v first (Credential.trimmed?_eq_some_iff.mp held)

theorem credential_of_noToken (blank : ∀ v, r.FirstToken v → Credential.Blank v) :
    r.credential = Credential.ofHeaders? r.headers := by
  have none : (Credential.ofQuery? r.target.query).bind Credential.trimmed? = none := by
    simpa only [Option.bind_eq_none_iff, Credential.trimmed?_eq_none_iff, ofQuery?_eq_some_iff]
  rw [credential, Credential.find?, none, Option.none_or]

end Request

/-! ### Tokens that may be sent either way -/

/-- A token that a field can hold as it stands: visible characters of ASCII. -/
structure Plain (t : String) : Prop where
  nonempty : t ≠ ""
  visible : ∀ c ∈ t.toList, 0x21 ≤ c.toNat ∧ c.toNat ≤ 0x7E

namespace Plain

variable {t : String}

theorem isAscii (h : Plain t) : Text.IsAscii t := by
  intro c hc
  have visible := h.visible c hc
  omega

theorem tight (h : Plain t) : Tight t := by
  have table : ∀ n < 0x7F, 0x21 ≤ n → Text.isBlank (Char.ofNat n) = false := by decide
  have marks : ∀ c ∈ t.toList, Text.isBlank c = false := by
    intro c hc
    have visible := h.visible c hc
    have entry := table c.toNat (by omega) visible.1
    rwa [Char.ofNat_toNat] at entry
  exact ⟨fun c hc => marks c (List.mem_of_mem_head? hc),
    fun c hc => marks c (List.mem_of_getLast? hc)⟩

theorem held (h : Plain t) : Credential.Held t t :=
  Credential.trimmed?_eq_some_iff.mp (Credential.trimmed?_of_tight h.tight h.nonempty)

/-- A field holds the token after its scheme. -/
theorem isField (h : Plain t) :
    (Octets.ofText ("Bearer " ++ t)).all Headers.isTextOctet ∧
      (Octets.ofText ("Bearer " ++ t)).all isFieldOctet := by
  have table : ∀ n < 0x7F, 0x21 ≤ n →
      Headers.isTextOctet (UInt8.ofNat n) ∧ isFieldOctet (UInt8.ofNat n) := by decide
  have scheme : (Octets.ofText "Bearer ").all Headers.isTextOctet ∧
      (Octets.ofText "Bearer ").all isFieldOctet := by decide
  have each : ∀ b ∈ Octets.ofText t, Headers.isTextOctet b ∧ isFieldOctet b := by
    rw [Text.ofText_ascii h.isAscii, Json.asciiOctets]
    intro b hb
    obtain ⟨c, hc, rfl⟩ := List.mem_map.mp hb
    have visible := h.visible c hc
    exact table c.toNat (by omega) visible.1
  rw [Octets.ofText_append, List.all_append, List.all_append, Bool.and_eq_true, Bool.and_eq_true,
    List.all_eq_true, List.all_eq_true, List.all_eq_true, List.all_eq_true]
  rw [List.all_eq_true, List.all_eq_true] at scheme
  exact ⟨⟨scheme.1, fun b hb => (each b hb).1⟩, scheme.2, fun b hb => (each b hb).2⟩

end Plain

theorem isTokenOctet_of_lowerAscii :
    ∀ n < 256, Octets.lowerAscii (UInt8.ofNat n) ∈ Octets.ofText "authorization" →
      isTokenOctet (UInt8.ofNat n) := by
  decide +kernel

/-- The name of authorization is a name in any case of its letters. -/
theorem Field.isFieldName_of_isAuthorization {f : Field} (h : f.isAuthorization) :
    isFieldName f.name := by
  have lower : (Octets.ofText "authorization").map Octets.lowerAscii =
      Octets.ofText "authorization" := by decide
  rw [Field.isAuthorization, Field.isNamed, Octets.eqIgnoringCase, beq_iff_eq, lower] at h
  have length : f.name.length = 13 := by
    rw [← List.length_map (f := Octets.lowerAscii), h]
    decide
  have letters : f.name.all isTokenOctet := by
    rw [List.all_eq_true]
    intro b hb
    have entry := isTokenOctet_of_lowerAscii b.toNat b.toNat_lt
    rw [UInt8.ofNat_toNat] at entry
    exact entry (h ▸ List.mem_map_of_mem hb)
  have filled : f.name.isEmpty = false := by
    rw [List.isEmpty_eq_false_iff, ← List.length_pos_iff, length]
    decide
  simp [isFieldName, isToken, filled, letters, length, greatestName]

theorem Headers.ofList_eq_ok_iff {l : List Field} :
    ofList l = .ok l ↔ ∀ f ∈ l, fault? f = none := by
  rw [ofList]
  cases found : l.findSome? fault? with
  | none => simpa using List.findSome?_eq_none_iff.mp found
  | some e =>
    obtain ⟨f, hf, fault⟩ := List.exists_of_findSome?_eq_some found
    refine iff_of_false nofun fun none => ?_
    rw [none f hf] at fault
    cases fault

/-- A field with a plain token can be put among any fields. -/
theorem Headers.ofList_insert {before after : List Field} {auth : Field} {t : String} (plain : Plain t)
    (named : auth.isAuthorization) (value : auth.value = Octets.ofText ("Bearer " ++ t))
    (h : ofList (before ++ after) = .ok (before ++ after)) :
    ofList (before ++ auth :: after) = .ok (before ++ auth :: after) := by
  rw [ofList_eq_ok_iff] at h ⊢
  have sound : fault? auth = none := by
    simp [fault?, Field.isFieldName_of_isAuthorization named, value, plain.isField.2]
  intro f hf
  simp only [List.mem_append, List.mem_cons] at hf
  rcases hf with hf | rfl | hf
  · exact h f (List.mem_append_left _ hf)
  · exact sound
  · exact h f (List.mem_append_right _ hf)

/-! ### Targets with a token -/

namespace Uri

open Text.Form (Escaped)

theorem isQueryOctet_of_hexValue? : ∀ n < 256, (Octets.hexValue? (UInt8.ofNat n)).isSome →
    isQueryOctet (UInt8.ofNat n) ∧ UInt8.ofNat n ≠ 0x23 := by
  decide +kernel

theorem ofPath?_append {path query : Octets}
    (hp : ∀ x ∈ path, isPathOctet x ∧ x ≠ 0x23 ∧ x ≠ 0x3F)
    (hq : ∀ x ∈ query, isQueryOctet x ∧ x ≠ 0x23)
    (isText : (Octets.text? (path ++ 0x3F :: query)).isSome) :
    ofPath? (path ++ 0x3F :: query) = some ⟨path, some query⟩ := by
  have noFragment : (path ++ 0x3F :: query).takeWhile (· != 0x23) = path ++ 0x3F :: query := by
    rw [List.takeWhile_eq_self_iff]
    intro x hx
    rw [bne_iff_ne]
    simp only [List.mem_append, List.mem_cons] at hx
    rcases hx with hx | rfl | hx
    · exact (hp x hx).2.1
    · decide
    · exact (hq x hx).2
  have front : ∀ x ∈ path, (x != 0x3F) = true := fun x hx => bne_iff_ne.mpr (hp x hx).2.2
  have pathOctets : path.all isPathOctet := List.all_eq_true.mpr fun x hx => (hp x hx).1
  have queryOctets : query.all isQueryOctet := List.all_eq_true.mpr fun x hx => (hq x hx).1
  rw [ofPath?, noFragment, List.takeWhile_append_of_pos front, List.dropWhile_append_of_pos front]
  simp [pathOctets, queryOctets, isText]

theorem ofOctets?_slash {rest : Octets} (short : (0x2F :: rest).length ≤ greatestLength) :
    ofOctets? (0x2F :: rest) = ofPath? (0x2F :: rest) := by
  rw [ofOctets?]
  simp only [List.isEmpty_cons, Bool.false_or, decide_eq_true_eq, Nat.not_lt.mpr short, if_false]
  simp

/-- The target of a request for a socket with a token in its query. -/
def withToken (escaped : String) : String := "/ws?token=" ++ escaped

/-- What is escaped byte by byte can stand in a target, which may not be too long. -/
theorem ofOctets?_withToken {plain : Octets} {e : String}
    (h : Escaped plain (Octets.ofText e))
    (short : (Octets.ofText (withToken e)).length ≤ greatestLength) :
    ofOctets? (Octets.ofText (withToken e)) =
      some ⟨Octets.ofText "/ws", some (Octets.ofText "token=" ++ Octets.ofText e)⟩ := by
  have digits : ∀ x ∈ Octets.ofText e, isQueryOctet x ∧ x ≠ 0x23 := by
    intro x hx
    rcases h.mem hx with rfl | digit
    · decide
    · have entry := isQueryOctet_of_hexValue? x.toNat x.toNat_lt
      rw [UInt8.ofNat_toNat] at entry
      exact entry digit
  have name : ∀ x ∈ Octets.ofText "token=", isQueryOctet x ∧ x ≠ 0x23 := by decide +kernel
  have path : ∀ x ∈ Octets.ofText "/ws", isPathOctet x ∧ x ≠ 0x23 ∧ x ≠ 0x3F := by
    decide +kernel
  have whole : Octets.ofText (withToken e) =
      Octets.ofText "/ws" ++ 0x3F :: (Octets.ofText "token=" ++ Octets.ofText e) := by
    have start :
        Octets.ofText "/ws?token=" = Octets.ofText "/ws" ++ 0x3F :: Octets.ofText "token=" := by
      decide
    rw [withToken, Octets.ofText_append, start]
    simp
  have isText : (Octets.text? (Octets.ofText (withToken e))).isSome := by
    rw [Octets.text?_ofText]
    rfl
  rw [whole] at isText short ⊢
  have slash : ∃ rest, Octets.ofText "/ws" = 0x2F :: rest := ⟨_, rfl⟩
  obtain ⟨rest, slash⟩ := slash
  have read := ofPath?_append path (fun x hx => (List.mem_append.mp hx).elim (name x) (digits x)) isText
  rw [slash] at short read ⊢
  rw [List.cons_append] at short read ⊢
  rw [ofOctets?_slash short, read]

end Uri

/-! ### Either way -/

theorem Request.credential_of_escaped {r : Request} {t e : String} (plain : Plain t)
    (escaped : Text.Form.Escaped (Octets.ofText t) (Octets.ofText e))
    (query : r.target.query = some (Octets.ofText "token=" ++ Octets.ofText e)) :
    r.credential = some t := by
  have name : Octets.ofText "token=" = Octets.ofText "token" ++ [0x3D] := by decide
  have pairs : r.queryPairs = [("token", t)] := by
    have read : Text.Form.pairs (Octets.ofText "token" ++ 0x3D :: Octets.ofText e) =
        [(Text.Form.text (Octets.ofText "token"), t)] :=
      Text.Form.pairs_of_escaped plain.isAscii escaped (by decide) (by decide)
    have token : Text.Form.text (Octets.ofText "token") = "token" := by decide
    rw [queryPairs, query, Option.getD_some, name, List.append_assoc, List.singleton_append, read, token]
  exact credential_eq_some_iff.mpr (.query t ⟨[], [], pairs, nofun⟩ plain.held)

theorem Request.credential_of_field {r : Request} {t : String} (plain : Plain t)
    {before after : List Field} {auth : Field} (none : r.target.query = none)
    (headers : r.headers = before ++ auth :: after) (named : auth.isAuthorization)
    (value : auth.value = Octets.ofText ("Bearer " ++ t))
    (first : ∀ f ∈ before, f.isAuthorization = false) : r.credential = some t := by
  have absent : ∀ v, ¬ r.FirstToken v := by
    rintro v ⟨before, after, pairs, -⟩
    rw [queryPairs, none] at pairs
    have length := congrArg List.length pairs
    simp [Text.Form.pairs, Text.Form.pieces] at length
  exact credential_eq_some_iff.mpr (.field (fun v h => absurd h (absent v)) t
    ⟨before, auth, after, headers, named, value, first⟩ plain.isField.1 plain.held)

/-- A request by some method for a socket, from its target and its fields. -/
theorem Request.ofParts_eq_ok {method target : String} {uri : Uri} {fields : List Field}
    (token : isToken (Octets.ofText method)) (read : Uri.ofOctets? (Octets.ofText target) = some uri)
    (sound : Headers.ofList fields = .ok fields) :
    ofParts method target fields = .ok ⟨method, uri, fields⟩ := by
  simp [ofParts, token, read, sound]

/-- The credential of a request is that of its first pair named `token`, or else that of its first field
of authorization, without the blanks around it. So fields of authorization and later pairs count for
nothing beside a token in the query, whereas a blank one counts as if the query held none. A plain token
can be sent either way, with each of its bytes escaped in the query or as it stands in a field. -/
theorem credential_by_either_way :
    (∀ (r : Request) (t : String), (r.credential = some t ↔ r.Shows t) ∧
        (r.credential = some t → Tight t ∧ t ≠ "")) ∧
      (∀ (r r' : Request) (v : String), r.method = r'.method → r.target.path = r'.target.path →
        r.headers.others = r'.headers.others → r.FirstToken v → r'.FirstToken v →
        ¬ Credential.Blank v → r.AnsweredAlike r') ∧
      (∀ (r r' : Request) (v : String), r.method = r'.method → r.target.path = r'.target.path →
        r.headers = r'.headers → r.FirstToken v → Credential.Blank v → (∀ w, ¬ r'.FirstToken w) →
        r.AnsweredAlike r') ∧
      ∀ (method t e : String) (before after : List Field) (auth : Field),
        isToken (Octets.ofText method) → Headers.ofList (before ++ after) = .ok (before ++ after) →
        Plain t → Text.Form.Escaped (Octets.ofText t) (Octets.ofText e) →
        (Octets.ofText (Uri.withToken e)).length ≤ Uri.greatestLength →
        auth.isAuthorization → auth.value = Octets.ofText ("Bearer " ++ t) →
        (∀ f ∈ before, f.isAuthorization = false) →
        ∃ r r', Request.ofParts method (Uri.withToken e) (before ++ after) = .ok r ∧
          Request.ofParts method "/ws" (before ++ auth :: after) = .ok r' ∧
          r.credential = some t ∧ r.AnsweredAlike r' := by
  refine ⟨?_, ?_, ?_, ?_⟩
  · intro r t
    refine ⟨Request.credential_eq_some_iff, fun shown => ?_⟩
    exact (Request.credential_eq_some_iff.mp shown).held
  · intro r r' v method path others first first' filled
    apply Request.answeredAlike_of_credential method path others
    rw [Request.credential_of_firstToken first filled, Request.credential_of_firstToken first' filled]
  · intro r r' v method path headers first blank none
    apply Request.answeredAlike_of_credential method path (by rw [headers])
    rw [Request.credential_of_noToken fun w h => h.unique first ▸ blank,
      Request.credential_of_noToken fun w h => absurd h (none w), headers]
  · intro method t e before after auth token sound plain escaped short named value first
    have target := Uri.ofOctets?_withToken escaped short
    have bare : Uri.ofOctets? (Octets.ofText "/ws") = some ⟨Octets.ofText "/ws", none⟩ := by decide
    refine ⟨_, _, Request.ofParts_eq_ok token target sound, Request.ofParts_eq_ok token bare
      (Headers.ofList_insert plain named value sound), ?_, ?_⟩
    · exact Request.credential_of_escaped plain escaped rfl
    · refine Request.answeredAlike_of_credential rfl rfl ?_ ?_
      · simp [Headers.others, List.filter_append, named]
      · rw [Request.credential_of_escaped plain escaped rfl,
          Request.credential_of_field plain rfl rfl named value first]

/-- Requests for a socket with the token `a.b`: beside a field and another pair, and alone; with a blank
pair before it, and with no pair; and either way. -/
theorem credential_by_either_way_plain :
    let asking : String → List Field → Request := fun query fields =>
      ⟨"GET", ⟨Octets.ofText "/ws", some (Octets.ofText query)⟩, fields ++ handshake⟩
    let field : Field := ⟨Octets.ofText "Authorization", Octets.ofText "Bearer a.b"⟩
    (asking "token=+a.b&token=c" [field]).AnsweredAlike (asking "token=+a.b" []) ∧
      (asking "token=%20&token=a.b" []).AnsweredAlike (asking "a=b" []) ∧
      ∃ r r', Request.ofParts "GET" "/ws?token=%61%2e%62" handshake = .ok r ∧
        Request.ofParts "GET" "/ws" (field :: handshake) = .ok r' ∧
        r.credential = some "a.b" ∧ r.AnsweredAlike r' := by
  intro asking field
  obtain ⟨-, beside, blank, either⟩ := credential_by_either_way
  have filled : ¬ Credential.Blank " a.b" := by
    rw [← Credential.trimmed?_eq_none_iff]
    decide +kernel
  have empty : Credential.Blank " " := by
    rw [← Credential.trimmed?_eq_none_iff]
    decide +kernel
  have plain : Plain "a.b" := ⟨by decide, by simp⟩
  have escaped : Text.Form.Escaped (Octets.ofText "a.b") (Octets.ofText "%61%2e%62") :=
    .cons (by decide) (by decide) (.cons (by decide) (by decide) (.cons (by decide) (by decide) .nil))
  refine ⟨?_, ?_, ?_⟩
  · exact beside _ _ " a.b" rfl rfl (by decide +kernel) ⟨[], [("token", "c")], by decide +kernel, nofun⟩
      ⟨[], [], by decide +kernel, nofun⟩ filled
  · refine blank _ _ " " rfl rfl rfl ⟨[], [("token", "a.b")], by decide +kernel, nofun⟩ empty ?_
    intro w first
    have none : Credential.ofQuery? (asking "a=b" []).target.query = none := by decide +kernel
    rw [Request.ofQuery?_eq_some_iff.mpr first] at none
    cases none
  · exact either "GET" "a.b" "%61%2e%62" [] handshake field (by decide) (by decide +kernel) plain escaped
      (by decide) (by decide) (by decide) nofun

end Http

end Fanout
