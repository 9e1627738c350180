import Fanout.Admission
import Fanout.Proofs.Text.Base64Url
import Fanout.Proofs.Token.Claims
import Fanout.Proofs.Token.Parts

/-!
Which tokens are taken. Each part is asked in its turn: the header for its algorithm, the signature,
then the claims. So a token whose signature is wrong is turned down for its header or for its
signature, whatever it claims. The present time is taken from the first minute of the epoch on, so that
the leeway can be taken off it.
-/

namespace Fanout.Token

open Json (Term AtMostOnce)
open Text

theorem bind_eq_ok_iff {ε α β : Type} {x : Except ε α} {f : α → Except ε β} {b : β} :
    x >>= f = .ok b ↔ ∃ a, x = .ok a ∧ f a = .ok b := by
  cases x <;> simp [bind, Except.bind]

theorem eq_ok_of_toOption {ε α : Type} {x : Except ε α} {a : α} (h : x.toOption = some a) :
    x = .ok a := by
  cases x with
  | ok b => exact congrArg Except.ok (Option.some_inj.mp h)
  | error e => cases h

/-! ### The text in a part -/

/-- A part is the written form of a JSON text. -/
def Holds (part : String) (t : Term) : Prop :=
  ∃ b, part = Base64Url.encode b ∧ Term.ofOctets? b.length b = some t

theorem segment_eq_ok_iff {part : String} {t : Term} : segment part = .ok t ↔ Holds part t := by
  simp only [Holds, ← Base64Url.decode?_eq_some_iff, segment]
  cases Base64Url.decode? part with
  | none => simp
  | some b => cases read : Term.ofOctets? b.length b <;> simp [read]

theorem algorithmOf_eq_ok_iff {p : Parts} {a : String} :
    algorithmOf p = .ok a ↔ ∃ t, Holds p.header t ∧ Header.Names a t := by
  simp only [algorithmOf, bind_eq_ok_iff, segment_eq_ok_iff, ← Header.algorithmOf?_eq_some_iff]
  refine exists_congr fun t => and_congr_right fun _ => ?_
  cases Header.algorithmOf? t <;> simp

theorem fault_of_segment {part : String} {e : TokenError} (h : segment part = .error e) :
    Base64Url.decode? part = none ∧ e = .defective .base64 ∨
      (Base64Url.decode? part).isSome ∧ e = .defective .json := by
  rw [segment] at h
  cases decoded : Base64Url.decode? part with
  | none =>
    rw [decoded] at h
    cases h
    exact .inl ⟨rfl, rfl⟩
  | some b =>
    cases read : Term.ofOctets? b.length b with
    | none =>
      simp only [decoded, read] at h
      cases h
      exact .inr ⟨rfl, rfl⟩
    | some t => simp [decoded, read] at h

theorem fault_of_algorithmOf {p : Parts} {e : TokenError} (h : algorithmOf p = .error e) :
    Base64Url.decode? p.header = none ∧ e = .defective .base64 ∨
      (Base64Url.decode? p.header).isSome ∧ e = .defective .json := by
  rw [algorithmOf] at h
  cases held : segment p.header with
  | error f =>
    rw [held] at h
    cases h
    exact fault_of_segment held
  | ok t =>
    obtain ⟨b, spelled, -⟩ := segment_eq_ok_iff.mp held
    cases said : Header.algorithmOf? t with
    | none =>
      simp only [held, bind, Except.bind, said] at h
      cases h
      exact .inr ⟨by rw [Base64Url.decode?_eq_some_iff.mpr spelled]; rfl, rfl⟩
    | some a => simp [held, bind, Except.bind, said] at h

/-! ### Claims -/

theorem verdict_eq_ok_iff {now : Int} {l : List (String × Term)} {c d : Claims}
    (present : 60 ≤ now) (once : AtMostOnce l "aud") :
    verdict now l c = .ok d ↔
      0 ≤ c.expires ∧ now - leeway ≤ c.expires ∧
        (∀ t, ("aud", t) ∈ l → Registered.isAudience t = false) ∧ c = d := by
  have counted : ¬now < leeway := Int.not_lt.mpr present
  rw [← Registered.hasAudience_eq_false_iff once, verdict]
  simp only [counted, false_or]
  split_ifs with early late audience
  · simp [Int.not_le.mpr early]
  · simp [Int.not_le.mpr late]
  · simp [audience]
  · simp [Int.not_lt.mp early, Int.not_lt.mp late, audience]

/-- Members that state claims which have not expired. None with a meaning stands twice, and no
audience is named. -/
structure Claims.Current (now : Int) (l : List (String × Term)) (c : Claims) : Prop where
  stated : Claims.Stated l c
  once : ∀ e ∈ Registered.shapes, AtMostOnce l e.1
  begun : 0 ≤ c.expires
  unexpired : now - leeway ≤ c.expires
  noAudience : ∀ t, ("aud", t) ∈ l → Registered.isAudience t = false

/-- Claims that can be read are judged by the clock and by their audience. -/
theorem claimsOf_of_stated {now : Int} {p : Parts} {t : Term} {l : List (String × Term)}
    {c : Claims} (held : Holds p.payload t) (named : t.members? = some l)
    (stated : Claims.Stated l c) (once : ∀ e ∈ Registered.shapes, AtMostOnce l e.1)
    (passable : Registered.Passable l) :
    claimsOf now p = verdict now l c := by
  have made := Claims.ofMembers?_eq_some_iff.mpr stated
  have readable := Registered.readable_iff.mpr ⟨once, passable⟩
  simp [claimsOf, segment_eq_ok_iff.mpr held, bind, Except.bind, named, made, readable]

theorem aud_mem : ("aud", Registered.spent Json.memberDepth) ∈ Registered.shapes := by
  simp [Registered.shapes]

theorem claimsOf_eq_ok_iff {now : Int} {p : Parts} {c : Claims} (present : 60 ≤ now) :
    claimsOf now p = .ok c ↔
      ∃ t l, Holds p.payload t ∧ t.members? = some l ∧ c.Current now l ∧ Registered.Passable l := by
  constructor
  · intro read
    obtain ⟨t, held, read⟩ := bind_eq_ok_iff.mp read
    rw [segment_eq_ok_iff] at held
    cases named : t.members? with
    | none => simp [named] at read
    | some l =>
      cases made : Claims.ofMembers? l with
      | none => simp [named, made] at read
      | some d =>
        simp only [named, made] at read
        split_ifs at read with readable
        obtain ⟨once, passable⟩ := Registered.readable_iff.mp readable
        obtain ⟨begun, unexpired, noAudience, rfl⟩ :=
          (verdict_eq_ok_iff present (once _ aud_mem)).mp read
        have stated := Claims.ofMembers?_eq_some_iff.mp made
        exact ⟨t, l, held, named, ⟨stated, once, begun, unexpired, noAudience⟩, passable⟩
  · rintro ⟨t, l, held, named, ⟨stated, once, begun, unexpired, noAudience⟩, passable⟩
    rw [claimsOf_of_stated held named stated once passable]
    exact (verdict_eq_ok_iff present (once _ aud_mem)).mpr ⟨begun, unexpired, noAudience, rfl⟩

/-! ### Whole tokens -/

/-- Parts that are apart: a header that names the algorithm, a payload of members that state claims
which have not expired, and the signature of both under the secret. -/
structure Genuine (secret : String) (now : Int) (p : Parts) (l : List (String × Term))
    (c : Claims) : Prop where
  apart : p.Apart
  header : ∃ t, Holds p.header t ∧ Header.Names signingAlgorithm t
  signature : p.signature = sign secret p.signed
  payload : ∃ t, Holds p.payload t ∧ t.members? = some l
  claims : c.Current now l

theorem validate_text {secret : String} {now : Int} {p : Parts} (apart : p.Apart) :
    validate secret now p.text =
      match algorithmOf p with
      | .error e => .error e
      | .ok a =>
        if a ≠ signingAlgorithm then .error .invalid
        else if p.signature ≠ sign secret p.signed then .error .invalid
        else claimsOf now p := by
  have cut : parts? p.text = some p := parts?_eq_some_iff.mpr ⟨rfl, apart⟩
  cases named : algorithmOf p <;> simp only [validate, cut, named]

theorem validate_of_signed {secret : String} {now : Int} {p : Parts} (apart : p.Apart)
    (named : algorithmOf p = .ok signingAlgorithm) (signed : p.signature = sign secret p.signed) :
    validate secret now p.text = claimsOf now p := by
  rw [validate_text apart, named]
  simp [signed]

theorem validate_eq_ok_iff {secret : String} {now : Int} {token : String} {c : Claims}
    (present : 60 ≤ now) :
    validate secret now token = .ok c ↔
      ∃ p l, token = p.text ∧ Genuine secret now p l c ∧ Registered.Passable l := by
  constructor
  · intro read
    cases cut : parts? token with
    | none => simp [validate, cut] at read
    | some p =>
      obtain ⟨rfl, apart⟩ := parts?_eq_some_iff.mp cut
      rw [validate_text apart] at read
      split at read
      next => cases read
      next a named =>
        split_ifs at read with same signed
        rw [not_not] at same signed
        subst same
        obtain ⟨t, l, held, members, current, passable⟩ := (claimsOf_eq_ok_iff present).mp read
        exact ⟨p, l, rfl, ⟨apart, algorithmOf_eq_ok_iff.mp named, signed, ⟨t, held, members⟩,
          current⟩, passable⟩
  · rintro ⟨p, l, rfl, ⟨apart, header, signature, ⟨t, held, members⟩, current⟩, passable⟩
    rw [validate_of_signed apart (algorithmOf_eq_ok_iff.mpr header) signature]
    exact (claimsOf_eq_ok_iff present).mpr ⟨t, l, held, members, current, passable⟩

/-! ### Tokens that are not signed -/

/-- What is wrong with a token that is not signed: its header, or nothing but the signature. -/
inductive HeaderFault (header : String) : TokenError → Prop where
  | foreign (undecoded : Base64Url.decode? header = none) :
      HeaderFault header (.defective .base64)
  | malformed (decoded : (Base64Url.decode? header).isSome)
      (unnamed : ∀ t a, Holds header t → ¬Header.Names a t) : HeaderFault header (.defective .json)
  | sound {t : Term} {a : String} (held : Holds header t) (named : Header.Names a t) :
      HeaderFault header .invalid

/-- The fault of a token that is not signed. -/
def unsignedFault (header : String) : TokenError :=
  match algorithmOf ⟨header, "", ""⟩ with
  | .error e => e
  | .ok _ => .invalid

theorem headerFault_unsignedFault (header : String) :
    HeaderFault header (unsignedFault header) := by
  rw [unsignedFault]
  cases said : algorithmOf ⟨header, "", ""⟩ with
  | ok a =>
    obtain ⟨t, held, named⟩ := algorithmOf_eq_ok_iff.mp said
    exact .sound held named
  | error e =>
    rcases fault_of_algorithmOf said with ⟨undecoded, rfl⟩ | ⟨decoded, rfl⟩
    · exact .foreign undecoded
    · refine .malformed decoded fun t a held named => ?_
      have read : algorithmOf ⟨header, "", ""⟩ = .ok a := algorithmOf_eq_ok_iff.mpr ⟨t, held, named⟩
      rw [said] at read
      cases read

theorem validate_of_unsigned {secret : String} {now : Int} {p : Parts} (apart : p.Apart)
    (unsigned : p.signature ≠ sign secret p.signed) :
    validate secret now p.text = .error (unsignedFault p.header) := by
  have same : algorithmOf p = algorithmOf ⟨p.header, "", ""⟩ := rfl
  rw [validate_text apart, unsignedFault, same]
  cases algorithmOf ⟨p.header, "", ""⟩ with
  | error e => rfl
  | ok a => simp [unsigned]

/-! ### Bearers -/

theorem ofCredential_eq_ok_iff {secret : String} {now : Int} {token : String} {who : Bearer}
    (present : 60 ≤ now) :
    Bearer.ofCredential secret now (some token) = .ok who ↔
      ∃ p l c, token = p.text ∧ Genuine secret now p l c ∧ Registered.Passable l ∧
        c.bearer = who := by
  have taken : Bearer.ofCredential secret now (some token) = .ok who ↔
      ∃ c, validate secret now token = .ok c ∧ c.bearer = who := by
    rw [Bearer.ofCredential]
    cases validate secret now token <;> simp
  simp only [taken, validate_eq_ok_iff present]
  constructor
  · rintro ⟨c, ⟨p, l, spelled, genuine, passable⟩, same⟩
    exact ⟨p, l, c, spelled, genuine, passable, same⟩
  · rintro ⟨p, l, c, spelled, genuine, passable, same⟩
    exact ⟨c, ⟨p, l, spelled, genuine, passable⟩, same⟩

theorem ofCredential_of_unsigned {secret : String} {now : Int} {p : Parts} (apart : p.Apart)
    (unsigned : p.signature ≠ sign secret p.signed) :
    Bearer.ofCredential secret now (some p.text) =
      .error (.badCredential (unsignedFault p.header)) := by
  rw [Bearer.ofCredential, validate_of_unsigned apart unsigned]

/-- Once the leeway has passed since the epoch, a token is taken exactly if it is genuine and the second
look passes over its registered claims, and then its bearer is the one that it states. A token that is
not signed is turned down for what its header is, and another one with this header in the same way. -/
theorem accepted_iff_genuine (secret : String) (now : Int) (present : 60 ≤ now) (token : String) :
    (∀ who, Bearer.ofCredential secret now (some token) = .ok who ↔
      ∃ p l c, token = p.text ∧ Genuine secret now p l c ∧ Registered.Passable l ∧
        who = ⟨c.user, c.tenant, c.role⟩) ∧
    ∀ p : Parts, token = p.text → p.Apart → p.signature ≠ sign secret p.signed →
      (∃ e, Bearer.ofCredential secret now (some token) = .error (.badCredential e) ∧
        HeaderFault p.header e) ∧
      ∀ q : Parts, q.Apart → q.signature ≠ sign secret q.signed → q.header = p.header →
        Bearer.ofCredential secret now (some q.text) =
          Bearer.ofCredential secret now (some token) := by
  constructor
  · intro who
    rw [ofCredential_eq_ok_iff present]
    simp only [Claims.bearer, eq_comm]
  · rintro p rfl apart unsigned
    rw [ofCredential_of_unsigned apart unsigned]
    refine ⟨⟨_, rfl, headerFault_unsignedFault p.header⟩, fun q apart' unsigned' same => ?_⟩
    rw [ofCredential_of_unsigned apart' unsigned', same]

/-- A token is taken until a minute after its expiry, and not if a character of it is another. -/
theorem accepted_iff_genuine_late :
    let secret := "test-secret-key-at-least-32-chars!"
    let p : Parts := ⟨"eyJhbGciOiJIUzI1NiJ9",
      "eyJ1c2VyX2lkIjoidSIsInJvbGUiOiJhZ2VudCIsImlhdCI6MCwiZXhwIjo2MH0",
      "deLj6O-Jucc7pWkaTIfe_vorOHyjB8Vauq-fhy2bWxs"⟩
    let q : Parts := { p with signature := "DeLj6O-Jucc7pWkaTIfe_vorOHyjB8Vauq-fhy2bWxs" }
    (60 : Int) ≤ 120 ∧ Bearer.ofCredential secret 120 (some p.text) = .ok ⟨"u", ⟨""⟩, .agent⟩ ∧
      ∃ e, Bearer.ofCredential secret 120 (some q.text) = .error (.badCredential e) ∧
        HeaderFault q.header e := by
  intro secret p q
  have present : (60 : Int) ≤ 120 := by decide
  have signature : sign secret p.signed = p.signature := by decide +kernel
  have header : algorithmOf p = .ok signingAlgorithm := by decide +kernel
  have stated : claimsOf 120 p = .ok ⟨"u", ⟨""⟩, "", .agent, 0, 60⟩ := by decide +kernel
  obtain ⟨t, l, held, named, current, passable⟩ := (claimsOf_eq_ok_iff present).mp stated
  have genuine : Genuine secret 120 p l ⟨"u", ⟨""⟩, "", .agent, 0, 60⟩ :=
    ⟨by decide, algorithmOf_eq_ok_iff.mp header, signature.symm, ⟨t, held, named⟩, current⟩
  have unsigned : q.signature ≠ sign secret q.signed := by
    rw [show sign secret q.signed = p.signature from signature]
    decide
  exact ⟨present,
    ((accepted_iff_genuine secret 120 present p.text).1 _).mpr ⟨p, l, _, rfl, genuine, passable, rfl⟩,
    ((accepted_iff_genuine secret 120 present q.text).2 q rfl (by decide) unsigned).1⟩

/-- A subject that is a list stops the second look, though nothing else is wrong with the token. -/
theorem refused_for_listed_subject :
    let secret := "test-secret-key-at-least-32-chars!"
    let now := 1700000000
    let p : Parts := ⟨"eyJ0eXAiOiJKV1QiLCJhbGciOiJIUzI1NiJ9",
      "eyJ1c2VyX2lkIjoidSIsInJvbGUiOiJhZ2VudCIsImlhdCI6MCwiZXhwIjo0MTAyNDQ0ODAwLCJzdWIiOltdfQ",
      "aluuemrBGitDAw7nBqTivgzmBnU6Mm2k_x7XsTjv-6c"⟩
    (∃ l, Genuine secret now p l ⟨"u", ⟨""⟩, "", .agent, 0, 4102444800⟩) ∧
      Bearer.ofCredential secret now (some p.text) =
        .error (.badCredential (.defective .json)) := by
  intro secret now p
  have signature : sign secret p.signed = p.signature := by decide +kernel
  have header : algorithmOf p = .ok signingAlgorithm := by decide +kernel
  have refused : claimsOf now p = .error (.defective .json) := by decide +kernel
  have checked : ((segment p.payload).toOption.bind Term.members?).any fun l =>
      Claims.ofMembers? l = some ⟨"u", ⟨""⟩, "", .agent, 0, 4102444800⟩ ∧
        (∀ e ∈ Registered.shapes, AtMostOnce l e.1) ∧ Registered.hasAudience l = false := by
    decide +kernel
  obtain ⟨l, found, sound⟩ := (Option.any_eq_true _ _).mp checked
  obtain ⟨made, once, noAudience⟩ := of_decide_eq_true sound
  obtain ⟨t, held, named⟩ := Option.bind_eq_some_iff.mp found
  have current : Claims.Current now l ⟨"u", ⟨""⟩, "", .agent, 0, 4102444800⟩ :=
    ⟨Claims.ofMembers?_eq_some_iff.mp made, once, by decide, by decide,
      (Registered.hasAudience_eq_false_iff (once _ aud_mem)).mp noAudience⟩
  have genuine : Genuine secret now p l ⟨"u", ⟨""⟩, "", .agent, 0, 4102444800⟩ :=
    ⟨by decide, algorithmOf_eq_ok_iff.mp header, signature.symm,
      ⟨t, segment_eq_ok_iff.mp (eq_ok_of_toOption held), named⟩, current⟩
  refine ⟨⟨l, genuine⟩, ?_⟩
  rw [Bearer.ofCredential, validate_of_signed genuine.apart header signature.symm, refused]

end Fanout.Token
