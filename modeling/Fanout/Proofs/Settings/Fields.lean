import Fanout.Proofs.Settings.BrokerAddress
import Fanout.Proofs.Settings.Numbers
import Fanout.Proofs.Settings.Policy

/-!
The settings one by one, and the variables that each is read from. A setting depends on no variable but
its own; the parts of the broker's address count only where the address is not given as a whole.
-/

namespace Fanout.Settings

variable {env env' : Environment} {s s' : Settings} {name : String}

/-! ### The secret -/

def secretVariable : String := "JWT_SECRET"

theorem length_ofText (s : String) : (Octets.ofText s).length = s.utf8ByteSize := rfl

theorem secretOf_cases (env : Environment) :
    (env.text? secretVariable = none ∧ secretOf env = .error .missingSecret) ∨
      ∃ text, env.text? secretVariable = some text ∧
        (text.utf8ByteSize < 32 ∧ secretOf env = .error .weakSecret ∨
          32 ≤ text.utf8ByteSize ∧ secretOf env = .ok text) := by
  rw [secretVariable, secretOf]
  cases env.text? "JWT_SECRET" with
  | none => exact .inl ⟨rfl, rfl⟩
  | some text =>
    refine .inr ⟨text, rfl, ?_⟩
    by_cases short : text.utf8ByteSize < 32
    · exact .inl ⟨short, if_pos short⟩
    · exact .inr ⟨Nat.not_lt.mp short, if_neg short⟩

theorem secretOf_eq_missing_iff :
    secretOf env = .error .missingSecret ↔
      ∀ text, env secretVariable ≠ some (Octets.ofText text) := by
  simp only [ne_eq, ← Environment.text?_eq_some_iff]
  obtain ⟨read, out⟩ | ⟨text, read, ⟨-, out⟩ | ⟨-, out⟩⟩ := secretOf_cases env
  all_goals simp [read, out]

theorem secretOf_eq_weak_iff :
    secretOf env = .error .weakSecret ↔
      ∃ text, env secretVariable = some (Octets.ofText text) ∧ (Octets.ofText text).length < 32 := by
  simp only [← Environment.text?_eq_some_iff, length_ofText]
  obtain ⟨read, out⟩ | ⟨text, read, ⟨size, out⟩ | ⟨size, out⟩⟩ := secretOf_cases env
  · simp [read, out]
  all_goals simp [read, out, size]

theorem exists_secretOf_iff :
    (∃ text, secretOf env = .ok text) ↔
      ∃ text, env secretVariable = some (Octets.ofText text) ∧ 32 ≤ (Octets.ofText text).length := by
  simp only [← Environment.text?_eq_some_iff, length_ofText]
  obtain ⟨read, out⟩ | ⟨text, read, ⟨size, out⟩ | ⟨size, out⟩⟩ := secretOf_cases env
  · simp [read, out]
  all_goals simp [read, out, size]

/-! ### What each setting is read from -/

/-- The settings, by name. -/
inductive Field where
  | bindAddress
  | secret
  | expiryHours
  | brokerUrl
  | exchange
  | bindingKey
  | untaggedPolicy
  | writeTimeout
  | outboundBuffer
deriving DecidableEq

namespace Field

def Value : Field → Type
  | expiryHours => Int
  | untaggedPolicy => UntaggedPolicy
  | writeTimeout | outboundBuffer => Nat
  | bindAddress | secret | brokerUrl | exchange | bindingKey => String

/-- The variables of a setting. -/
def sources : Field → List String
  | bindAddress => ["BIND_ADDRESS"]
  | secret => [secretVariable]
  | expiryHours => ["JWT_EXPIRY_HOURS"]
  | brokerUrl => urlVariable :: partVariables
  | exchange => ["REALTIME_EXCHANGE"]
  | bindingKey => ["REALTIME_BINDING_KEY"]
  | untaggedPolicy => [policyVariable]
  | writeTimeout => ["WS_WRITE_TIMEOUT_MS"]
  | outboundBuffer => ["WS_OUTBOUND_BUFFER"]

def all : List Field :=
  [bindAddress, secret, expiryHours, brokerUrl, exchange, bindingKey, untaggedPolicy, writeTimeout,
    outboundBuffer]

theorem mem_all (f : Field) : f ∈ all := by
  cases f <;> decide

/-- No variable belongs to two settings. -/
theorem eq_of_mem_sources {f g : Field} (hf : name ∈ f.sources) (hg : name ∈ g.sources) : f = g := by
  have table : ∀ f ∈ all, ∀ g ∈ all, ∀ name ∈ f.sources, name ∈ g.sources → f = g := by
    decide +kernel
  exact table f (mem_all f) g (mem_all g) name hf hg

end Field

/-- What a setting is set to. -/
def get (s : Settings) : (f : Field) → f.Value
  | .bindAddress => s.bindAddress
  | .secret => s.secret
  | .expiryHours => s.expiryHours
  | .brokerUrl => s.brokerUrl
  | .exchange => s.exchange
  | .bindingKey => s.bindingKey
  | .untaggedPolicy => s.untaggedPolicy
  | .writeTimeout => s.writeTimeout
  | .outboundBuffer => s.outboundBuffer

theorem eq_of_get_eq (h : ∀ f, s.get f = s'.get f) : s = s' := by
  obtain ⟨⟩ := s
  obtain ⟨⟩ := s'
  rw [mk.injEq]
  exact ⟨h .bindAddress, h .secret, h .expiryHours, h .brokerUrl, h .exchange, h .bindingKey,
    h .untaggedPolicy, h .writeTimeout, h .outboundBuffer⟩

/-- A setting depends on its own variables alone. -/
theorem get_eq_of_agree (h : ReadFrom env s) (h' : ReadFrom env' s') (f : Field)
    (agree : ∀ name ∈ f.sources, env' name = env name) : s'.get f = s.get f := by
  have texts : ∀ name ∈ f.sources, env'.text? name = env.text? name := by
    intro name source
    rw [Environment.text?, agree name source, Environment.text?]
  cases f with
  | bindAddress =>
    have same := texts "BIND_ADDRESS" List.mem_cons_self
    exact h'.bindAddress.trans (same ▸ h.bindAddress.symm)
  | secret =>
    have same : secretOf env' = secretOf env := by
      rw [secretOf, texts "JWT_SECRET" List.mem_cons_self, secretOf]
    exact Except.ok.inj (h'.secret.symm.trans (same.trans h.secret))
  | expiryHours =>
    have same := texts "JWT_EXPIRY_HOURS" List.mem_cons_self
    exact h'.expiryHours.trans (same ▸ h.expiryHours.symm)
  | brokerUrl =>
    have same : brokerUrlFrom env' = brokerUrlFrom env := by
      simp (disch := decide) only [brokerUrlFrom, texts]
    exact h'.brokerUrl.trans (same.trans h.brokerUrl.symm)
  | exchange =>
    have same := texts "REALTIME_EXCHANGE" List.mem_cons_self
    exact h'.exchange.trans (same ▸ h.exchange.symm)
  | bindingKey =>
    have same := texts "REALTIME_BINDING_KEY" List.mem_cons_self
    exact h'.bindingKey.trans (same ▸ h.bindingKey.symm)
  | untaggedPolicy =>
    have same := texts "REALTIME_UNSCOPED_POLICY" List.mem_cons_self
    exact Option.some.inj (h'.untaggedPolicy.symm.trans (same ▸ h.untaggedPolicy))
  | writeTimeout =>
    have same := texts "WS_WRITE_TIMEOUT_MS" List.mem_cons_self
    exact h'.writeTimeout.trans (same ▸ h.writeTimeout.symm)
  | outboundBuffer =>
    have same := texts "WS_OUTBOUND_BUFFER" List.mem_cons_self
    exact h'.outboundBuffer.trans (same ▸ h.outboundBuffer.symm)

/-- An address that is given as a whole hides the parts. -/
theorem brokerUrl_eq_of_whole (h : ReadFrom env s) (h' : ReadFrom env' s')
    (whole : env.text? urlVariable ≠ none) (same : env' urlVariable = env urlVariable) :
    s'.brokerUrl = s.brokerUrl := by
  obtain ⟨url, given⟩ := Option.ne_none_iff_exists'.mp whole
  have given' : env'.text? urlVariable = some url := by
    rw [Environment.text?, same, ← Environment.text?, given]
  rw [urlVariable] at given given'
  rw [h.brokerUrl, h'.brokerUrl, brokerUrlFrom, brokerUrlFrom, given, given', Option.getD_some,
    Option.getD_some]

/-- Where two environments that are accepted differ in one variable, only the setting of that variable
can differ, and the variable is not hidden by an address given as a whole. -/
theorem mem_sources_of_get_ne (h : ReadFrom env s) (h' : ReadFrom env' s')
    (same : ∀ other, other ≠ name → env' other = env other) {f : Field} (differ : s'.get f ≠ s.get f) :
    name ∈ f.sources ∧ (name ∈ partVariables → env.text? urlVariable = none) := by
  have source : name ∈ f.sources := by
    by_contra foreign
    exact differ (get_eq_of_agree h h' f fun other own => same other fun eq => foreign (eq ▸ own))
  refine ⟨source, fun part => ?_⟩
  by_contra whole
  have address : f = .brokerUrl := Field.eq_of_mem_sources source (List.mem_cons_of_mem _ part)
  have other : urlVariable ≠ name := by
    rintro rfl
    exact absurd part (by decide)
  rw [address] at differ
  exact differ (brokerUrl_eq_of_whole h h' whole (same _ other))

/-! ### Accepted settings -/

theorem ofEnvironment_of_error {e : SettingsError} (h : secretOf env = .error e) :
    ofEnvironment env = .error e := by
  rw [ofEnvironment, h]

section Asked

variable {p : UntaggedPolicy} (asked : UntaggedPolicy.AskedBy (env policyVariable) p)
include asked

theorem exists_ofEnvironment {text : String} (h : secretOf env = .ok text) :
    ∃ s, ofEnvironment env = .ok s := by
  have read : UntaggedPolicy.ofText? ((env.text? "REALTIME_UNSCOPED_POLICY").getD "") = some p :=
    UntaggedPolicy.ofText?_getD_eq_some_iff.mpr asked
  rw [ofEnvironment, h]
  dsimp only
  rw [read]
  exact ⟨_, rfl⟩

theorem ofEnvironment_eq_error_iff {e : SettingsError} :
    ofEnvironment env = .error e ↔ secretOf env = .error e := by
  constructor
  · intro refused
    cases held : secretOf env with
    | error e' => rw [Except.error.inj ((ofEnvironment_of_error held).symm.trans refused)]
    | ok text =>
      obtain ⟨s, accepted⟩ := exists_ofEnvironment asked held
      cases accepted.symm.trans refused
  · exact ofEnvironment_of_error

theorem exists_ofEnvironment_iff :
    (∃ s, ofEnvironment env = .ok s) ↔ ∃ text, secretOf env = .ok text := by
  constructor
  · rintro ⟨s, accepted⟩
    exact ⟨s.secret, (ofEnvironment_eq_ok_iff.mp accepted).secret⟩
  · rintro ⟨text, held⟩
    exact exists_ofEnvironment asked held

end Asked

/-- Where a policy is asked for, the secret alone decides what becomes of an environment. In accepted
settings each number is the one that its variable denotes, or the default, and where two environments
differ in one variable nothing differs but the setting of that variable. -/
theorem exact_and_apart (env : Environment) (p : UntaggedPolicy)
    (asked : UntaggedPolicy.AskedBy (env policyVariable) p) :
    ((ofEnvironment env = .error .missingSecret ↔
        ∀ text, env secretVariable ≠ some (Octets.ofText text)) ∧
      (ofEnvironment env = .error .weakSecret ↔
        ∃ text, env secretVariable = some (Octets.ofText text) ∧ (Octets.ofText text).length < 32) ∧
      ((∃ s, ofEnvironment env = .ok s) ↔
        ∃ text, env secretVariable = some (Octets.ofText text) ∧ 32 ≤ (Octets.ofText text).length)) ∧
    ∀ s, ofEnvironment env = .ok s →
      (ExactOr Decimal.DenotesSigned FitsSigned 24 env "JWT_EXPIRY_HOURS" s.expiryHours ∧
        ExactOr Decimal.DenotesUnsigned FitsUnsigned 10000 env "WS_WRITE_TIMEOUT_MS" s.writeTimeout ∧
        ExactOr Decimal.DenotesUnsigned FitsUnsigned 256 env "WS_OUTBOUND_BUFFER" s.outboundBuffer ∧
        1 ≤ s.writeTimeout ∧ 1 ≤ s.outboundBuffer) ∧
      ∀ name env' s', (∀ other, other ≠ name → env' other = env other) →
        ofEnvironment env' = .ok s' →
        (∀ f, s'.get f ≠ s.get f →
          name ∈ f.sources ∧ (name ∈ partVariables → env.text? urlVariable = none)) ∧
        (∀ f g, s'.get f ≠ s.get f → s'.get g ≠ s.get g → f = g) ∧
        ((∀ f : Field, name ∉ f.sources) → s' = s) := by
  refine ⟨⟨?_, ?_, ?_⟩, fun s accepted => ⟨?_, fun name env' s' same accepted' => ?_⟩⟩
  · rw [ofEnvironment_eq_error_iff asked, secretOf_eq_missing_iff]
  · rw [ofEnvironment_eq_error_iff asked, secretOf_eq_weak_iff]
  · rw [exists_ofEnvironment_iff asked, exists_secretOf_iff]
  · have read := ofEnvironment_eq_ok_iff.mp accepted
    rw [read.expiryHours, read.writeTimeout, read.outboundBuffer]
    exact ⟨signedOr_exact 24 env _, positiveOr_exact 10000 env _, positiveOr_exact 256 env _,
      positiveOr_pos (by decide) _, positiveOr_pos (by decide) _⟩
  · have read := ofEnvironment_eq_ok_iff.mp accepted
    have read' := ofEnvironment_eq_ok_iff.mp accepted'
    have own : ∀ f, s'.get f ≠ s.get f →
        name ∈ f.sources ∧ (name ∈ partVariables → env.text? urlVariable = none) :=
      fun f => mem_sources_of_get_ne read read' same
    refine ⟨own, fun f g hf hg => Field.eq_of_mem_sources (own f hf).1 (own g hg).1, ?_⟩
    intro foreign
    refine eq_of_get_eq fun f => ?_
    by_contra differ
    exact foreign f (own f differ).1

/-- Hours with a sign and leading zeros are taken as they are, a size that is one too great is not; and
another deadline for writes is all that a second environment brings. -/
theorem exact_and_apart_deadline :
    let env := ((bare.put "JWT_EXPIRY_HOURS" (Octets.ofText "-007")).put
      "WS_OUTBOUND_BUFFER" (Octets.ofText "18446744073709551616"))
    let env' := env.put "WS_WRITE_TIMEOUT_MS" (Octets.ofText "+018446744073709551615")
    let s := { defaults with expiryHours := -7 }
    let s' := { s with writeTimeout := 2 ^ 64 - 1 }
    UntaggedPolicy.AskedBy (env policyVariable) .broadcast ∧
      ofEnvironment env = .ok s ∧ ofEnvironment env' = .ok s' ∧
      ExactOr Decimal.DenotesSigned FitsSigned 24 env "JWT_EXPIRY_HOURS" (-7) ∧
      ExactOr Decimal.DenotesUnsigned FitsUnsigned 256 env "WS_OUTBOUND_BUFFER" 256 ∧
      ∀ f, s'.get f ≠ s.get f → f = .writeTimeout := by
  intro env env' s s'
  have accepted : ofEnvironment env = .ok s := by decide +kernel
  have accepted' : ofEnvironment env' = .ok s' := by decide +kernel
  have asked : UntaggedPolicy.AskedBy (env policyVariable) .broadcast :=
    untaggedPolicy_of_ofEnvironment accepted
  obtain ⟨⟨hours, -, buffer, -, -⟩, apart⟩ := (exact_and_apart env .broadcast asked).2 s accepted
  have elsewhere : ∀ other, other ≠ "WS_WRITE_TIMEOUT_MS" → env' other = env other :=
    fun other h => if_neg h
  obtain ⟨own, -, -⟩ := apart "WS_WRITE_TIMEOUT_MS" env' s' elsewhere accepted'
  refine ⟨asked, accepted, accepted', hours, buffer, fun f differ => ?_⟩
  exact Field.eq_of_mem_sources (own f differ).1 (by decide)

end Fanout.Settings
