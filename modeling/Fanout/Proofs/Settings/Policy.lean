import Fanout.Proofs.Live.Effect
import Fanout.Proofs.Settings.Environment
import Fanout.Proofs.Text.Blank

/-!
The policy for untagged events, from the bytes of its variable to the bridge. A text that says neither
of the policies is refused. Events go to everybody if the text says so or says nothing, and also where
there is no text: the variable is not set, or its bytes are no UTF-8.
-/

namespace Fanout

namespace Text

theorem isBlank_toLower (c : Char) : isBlank c.toLower = isBlank c := by
  by_cases capital : 'A'.val ≤ c.val ∧ c.val ≤ 'Z'.val
  · have small : c.toNat < 0x60 := Nat.lt_of_le_of_lt capital.2 (by decide)
    have table : ∀ n < 0x60, isBlank (Char.ofNat n).toLower = isBlank (Char.ofNat n) := by decide
    have entry := table c.toNat small
    rwa [Char.ofNat_toNat] at entry
  · have same : c.toLower = c := dif_neg capital
    rw [same]

theorem tight_lowerAscii (s : String) : Tight (lowerAscii s) ↔ Tight s := by
  simp [Tight, lowerAscii, isBlank_toLower]

/-- A text says a word: blanks may stand around it, and ASCII letters may be capitals. -/
def Spells (s word : String) : Prop := ∃ core, Framed core s ∧ lowerAscii core = word

theorem spells_iff {s word : String} (h : Tight word) :
    Spells s word ↔ lowerAscii (trim s) = word := by
  constructor
  · rintro ⟨core, framed, rfl⟩
    rw [trim_eq_iff.mpr ⟨framed, (tight_lowerAscii core).mp h⟩]
  · intro same
    exact ⟨trim s, framed_trim s, same⟩

end Text

namespace UntaggedPolicy

/-- The policy that a text says. One that says nothing says `broadcast`. -/
inductive SaidBy (text : String) : UntaggedPolicy → Prop
  | broadcast (h : Text.Spells text "broadcast") : SaidBy text .broadcast
  | nothing (h : Text.Spells text "") : SaidBy text .broadcast
  | drop (h : Text.Spells text "drop") : SaidBy text .drop

theorem ofText?_eq_some_iff {text : String} {p : UntaggedPolicy} :
    ofText? text = some p ↔ SaidBy text p := by
  have broadcast : Text.Spells text "broadcast" ↔ Text.lowerAscii (Text.trim text) = "broadcast" :=
    Text.spells_iff (by decide)
  have nothing : Text.Spells text "" ↔ Text.lowerAscii (Text.trim text) = "" :=
    Text.spells_iff (by decide)
  have drop : Text.Spells text "drop" ↔ Text.lowerAscii (Text.trim text) = "drop" :=
    Text.spells_iff (by decide)
  rw [ofText?]
  constructor
  · intro h
    split at h
    · next said =>
      cases h
      exact said.elim (fun w => .broadcast (broadcast.mpr w)) fun w => .nothing (nothing.mpr w)
    · split at h
      · next said =>
        cases h
        exact .drop (drop.mpr said)
      · cases h
  · rintro (w | w | w)
    · simp [broadcast.mp w]
    · simp [nothing.mp w]
    · simp [drop.mp w]

/-- The policy that the bytes of a variable ask for, if they ask for any. -/
inductive AskedBy : Option Octets → UntaggedPolicy → Prop
  | unset : AskedBy none .broadcast
  | illegible {value : Octets} (h : ∀ text, value ≠ Octets.ofText text) :
      AskedBy (some value) .broadcast
  | said {text : String} {p : UntaggedPolicy} (h : SaidBy text p) :
      AskedBy (some (Octets.ofText text)) p

theorem ofText?_getD_eq_some_iff {value : Option Octets} {p : UntaggedPolicy} :
    ofText? ((value.bind Octets.text?).getD "") = some p ↔ AskedBy value p := by
  have default : ofText? "" = some .broadcast := by decide +kernel
  cases value with
  | none =>
    rw [Option.bind_none, Option.getD_none, default]
    constructor
    · rintro ⟨⟩
      exact .unset
    · rintro ⟨⟩
      rfl
  | some bytes =>
    rw [Option.bind_some]
    cases read : Octets.text? bytes with
    | none =>
      have none_fits : ∀ text, bytes ≠ Octets.ofText text := by
        rintro text rfl
        cases (Octets.text?_ofText text).symm.trans read
      rw [Option.getD_none, default]
      constructor
      · rintro ⟨⟩
        exact .illegible none_fits
      · intro asked
        generalize whole : some bytes = value at asked
        cases asked with
        | unset => cases whole
        | illegible => rfl
        | said => exact absurd (Option.some.inj whole) (none_fits _)
    | some text =>
      obtain rfl := Octets.ofText_of_text?_eq_some read
      rw [Option.getD_some, ofText?_eq_some_iff]
      constructor
      · exact .said
      · intro asked
        generalize whole : some (Octets.ofText text) = value at asked
        cases asked with
        | unset => cases whole
        | illegible h => exact absurd (Option.some.inj whole).symm (h text)
        | said h => rwa [Octets.ofText_injective (Option.some.inj whole)]

/-- A variable asks for one policy at most. -/
theorem AskedBy.unique {value : Option Octets} {p q : UntaggedPolicy} (hp : AskedBy value p)
    (hq : AskedBy value q) : p = q :=
  Option.some.inj
    ((ofText?_getD_eq_some_iff.mpr hp).symm.trans (ofText?_getD_eq_some_iff.mpr hq))

end UntaggedPolicy

namespace Live.Service

variable {s : Service} {b : Bridge} {body : Octets} {reason : Event.UntaggedReason}

/-- An untagged body is offered to everybody under one policy and to nobody under the other. -/
theorem dispatch_untagged (h : Event.Scope.ofOctets body = .untagged reason) :
    (b.policy = .broadcast → ∃ r, (s.dispatch b body).1 = some r ∧ r.targeted = s.size ∧
        (s.dispatch b body).2.connections = s.connections.map fun c =>
          if c.registered then c.receive s.tuning.capacity (Frame.ofBody body) else c) ∧
      (b.policy = .drop → (s.dispatch b body).1 = none ∧
        (s.dispatch b body).2.connections = s.connections ∧
        (s.dispatch b body).2.ready = s.ready) := by
  have everybody : (Connection.isTarget Tenant.empty) = Connection.registered := by
    funext c
    exact Bool.and_true c.registered
  unfold dispatch
  rw [h]
  constructor
  · intro broadcasts
    rw [broadcasts]
    refine ⟨_, rfl, ?_, ?_⟩
    · rw [show s.size = s.connections.countP Connection.registered from
        (List.countP_eq_length_filter ..).symm]
      exact everybody ▸ length_numbers ..
    · exact everybody ▸ rfl
  · intro drops
    rw [drops]
    exact ⟨rfl, rfl, rfl⟩

end Live.Service

namespace Settings

open Live

def policyVariable : String := "REALTIME_UNSCOPED_POLICY"

variable {env : Environment}

theorem untaggedPolicy_of_ofEnvironment {s : Settings} (h : ofEnvironment env = .ok s) :
    UntaggedPolicy.AskedBy (env policyVariable) s.untaggedPolicy := by
  rw [← UntaggedPolicy.ofText?_getD_eq_some_iff]
  exact (ofEnvironment_eq_ok_iff.mp h).untaggedPolicy

theorem ofEnvironment_of_unasked (h : ∀ p, ¬ UntaggedPolicy.AskedBy (env policyVariable) p) :
    ofEnvironment env = (secretOf env).bind fun _ => .error .unknownPolicy := by
  have unread : UntaggedPolicy.ofText? ((env.text? policyVariable).getD "") = none := by
    rw [Option.eq_none_iff_forall_not_mem]
    intro p read
    exact h p (UntaggedPolicy.ofText?_getD_eq_some_iff.mp read)
  rw [ofEnvironment]
  cases secretOf env with
  | error e => rfl
  | ok secret =>
    rw [policyVariable] at unread
    simp only [unread]
    rfl

/-- Settings are accepted only if the variable of the policy asks for one, and then the policy is that
one. A bridge with these settings hands an untagged body to everybody if it is asked to broadcast, and
to nobody if it is not. -/
theorem untagged_as_asked (env : Environment) :
    ((∀ p, ¬ UntaggedPolicy.AskedBy (env policyVariable) p) →
        ofEnvironment env = (secretOf env).bind fun _ => .error .unknownPolicy) ∧
      ∀ s, ofEnvironment env = .ok s →
        (∀ p, s.untaggedPolicy = p ↔ UntaggedPolicy.AskedBy (env policyVariable) p) ∧
        ∀ (service : Service) (body : Octets) (reason : Event.UntaggedReason),
          Event.Scope.ofOctets body = .untagged reason →
          let (report, after) := service.dispatch (Bridge.ofSettings s) body
          (UntaggedPolicy.AskedBy (env policyVariable) .broadcast →
            ∃ r, report = some r ∧ r.targeted = service.size ∧
              after.connections = service.connections.map fun c =>
                if c.registered then c.receive service.tuning.capacity (Frame.ofBody body) else c) ∧
          (¬ UntaggedPolicy.AskedBy (env policyVariable) .broadcast →
            report = none ∧ after.connections = service.connections ∧
              after.ready = service.ready) := by
  refine ⟨ofEnvironment_of_unasked, ?_⟩
  intro s accepted
  have asked := untaggedPolicy_of_ofEnvironment accepted
  have same : ∀ p, s.untaggedPolicy = p ↔ UntaggedPolicy.AskedBy (env policyVariable) p := by
    intro p
    constructor
    · rintro rfl
      exact asked
    · exact UntaggedPolicy.AskedBy.unique asked
  refine ⟨same, ?_⟩
  intro service body reason untagged
  obtain ⟨everybody, nobody⟩ := Service.dispatch_untagged (s := service) (b := .ofSettings s) untagged
  refine ⟨fun h => everybody ((same _).mpr h), fun h => nobody ?_⟩
  cases held : s.untaggedPolicy with
  | broadcast => exact absurd ((same _).mp held) h
  | drop => exact held

/-- An environment with a secret and a value for the policy. -/
def withPolicy (value : Octets) : Environment := bare.put policyVariable value

/-- A service with one connection. -/
def attended : Service :=
  { tuning := {}, connections := [{ bearer := ⟨"u", ⟨"acme"⟩, .agent⟩, sink := .probe {} }] }

/-- A third word is refused; `drop` is kept, whatever its case and the blanks around it, and a body that
is no object then goes nowhere. -/
theorem untagged_as_asked_drop :
    ofEnvironment (withPolicy (Octets.ofText "leak-everything")) = .error .unknownPolicy ∧
      UntaggedPolicy.AskedBy (some (Octets.ofText "\tDROP ")) .drop ∧
      (attended.dispatch (.ofSettings { defaults with untaggedPolicy := .drop }) [0x78]).1 = none := by
  have unread : UntaggedPolicy.ofText? "leak-everything" = none := by decide +kernel
  have unasked : ∀ p, ¬ UntaggedPolicy.AskedBy (some (Octets.ofText "leak-everything")) p := by
    intro p asked
    rw [← UntaggedPolicy.ofText?_getD_eq_some_iff, Option.bind_some, Octets.text?_ofText,
      Option.getD_some, unread] at asked
    cases asked
  have accepted : ofEnvironment (withPolicy (Octets.ofText "\tDROP ")) =
      .ok { defaults with untaggedPolicy := .drop } := by decide +kernel
  have untagged : Event.Scope.ofOctets [0x78] = .untagged .notObject := by decide +kernel
  obtain ⟨same, bridged⟩ := (untagged_as_asked (withPolicy (Octets.ofText "\tDROP "))).2 _ accepted
  have kept := (same .drop).mp rfl
  have sent := bridged attended [0x78] _ untagged
  refine ⟨(untagged_as_asked (withPolicy (Octets.ofText "leak-everything"))).1 unasked, kept, ?_⟩
  exact (sent.2 fun h => by cases h.unique kept).1

/-- The word `drop` with one byte too many that is no UTF-8: the settings are accepted all the same, and
an untagged body is broadcast. -/
theorem illegible_policy_broadcasts :
    let value : Octets := [0x64, 0x72, 0x6F, 0x70, 0xFF]
    (∀ text, value ≠ Octets.ofText text) ∧
      ofEnvironment (withPolicy value) = .ok defaults ∧
      (attended.dispatch (.ofSettings defaults) [0x78]).1 = some ⟨1, 1, 0⟩ := by
  intro value
  have accepted : ofEnvironment (withPolicy value) = .ok defaults := by decide +kernel
  have illegible : Octets.text? value = none := by decide +kernel
  have sent : (attended.dispatch (.ofSettings defaults) [0x78]).1 = some ⟨1, 1, 0⟩ := by
    decide +kernel
  refine ⟨?_, accepted, sent⟩
  intro text same
  rw [same, Octets.text?_ofText] at illegible
  cases illegible

end Settings

end Fanout
