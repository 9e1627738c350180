import Fanout.CommandLine
import Fanout.Proofs.Decimal.Numeral
import Fanout.Proofs.Settings.Environment
import Fanout.Proofs.Token.Minting

/-!
Minting and the calendar. Every number of hours that fits 64 bits is accepted as a setting, and minting
fails for those that lead out of the calendar, forwards or backwards, and for no others.
-/

namespace Fanout

/-! ### Numbers in decimal, there and back -/

namespace Decimal

theorem denotes_naturalText (n : Nat) : Denotes (naturalText n) n := by
  have denoted : Denotes ((digits n).map digitChar) (Nat.ofDigits 10 (digits n).reverse) :=
    .digits (Json.digits_ne_nil n) fun _ => lt_ten_of_mem_digits
  rwa [← ofDigits_eq, ofDigits_digits] at denoted

theorem signed?_integerText (n : Int) : signed? (integerText n) = some n := by
  have digits := denotes_naturalText n.natAbs
  rw [signed?_eq_some_iff, integerText]
  split
  · next negative =>
    have size : -(n.natAbs : Int) = n := by omega
    have denoted := DenotesSigned.minus digits
    rwa [size] at denoted
  · next nonneg =>
    have size : (n.natAbs : Int) = n := by omega
    have denoted := DenotesSigned.unsigned (.bare digits)
    rwa [size] at denoted

end Decimal

/-! ### Hours among the settings -/

namespace Settings

variable {env : Environment}

def hoursVariable : String := "JWT_EXPIRY_HOURS"

theorem signedOr_bounds {default : Int} (h : -2 ^ 63 ≤ default ∧ default < 2 ^ 63)
    (text : Option String) : -2 ^ 63 ≤ signedOr default text ∧ signedOr default text < 2 ^ 63 := by
  rw [signedOr]
  split
  · split
    · assumption
    · exact h
  · exact h

theorem signedOr_integerText {default n : Int} (lower : -2 ^ 63 ≤ n) (upper : n < 2 ^ 63) :
    signedOr default (some (String.ofList (Decimal.integerText n))) = n := by
  simp only [signedOr, Option.bind_some, String.toList_ofList, Decimal.signed?_integerText]
  exact if_pos ⟨lower, upper⟩

/-- The environment in which the hours alone are another number. -/
def withHours (env : Environment) (n : Int) : Environment :=
  env.put hoursVariable (Octets.ofText (String.ofList (Decimal.integerText n)))

/-- Whatever else is set, any number of hours that fits 64 bits is accepted. -/
theorem accepts_hours {s : Settings} (h : ofEnvironment env = .ok s) {n : Int}
    (lower : -2 ^ 63 ≤ n) (upper : n < 2 ^ 63) :
    ofEnvironment (withHours env n) = .ok { s with expiryHours := n } := by
  obtain ⟨bindAddress, secret, -, brokerUrl, exchange, bindingKey, asked, timeout, buffer⟩ :=
    ofEnvironment_eq_ok_iff.mp h
  have others : ∀ name, name ≠ hoursVariable → (withHours env n).text? name = env.text? name :=
    fun name h => Environment.text?_put_of_ne h
  have hours : signedOr 24 ((withHours env n).text? hoursVariable) = n := by
    rw [withHours, Environment.text?_put_self, Octets.text?_ofText, signedOr_integerText lower upper]
  rw [secretOf] at secret
  rw [brokerUrlFrom] at brokerUrl
  refine ofEnvironment_eq_ok_iff.mpr ⟨?_, ?_, hours.symm, ?_, ?_, ?_, ?_, ?_, ?_⟩
  all_goals
    simp (disch := decide) only [secretOf, brokerUrlFrom, others]
    assumption

end Settings

/-! ### Minting -/

namespace Token

variable {secret : String} {hours now : Int} {who : Bearer} {email : String}

/-- From a time in the calendar to another one it is less than 64 bits of seconds. -/
theorem expiry?_of_dated (first : calendar.1 ≤ now) (last : now ≤ calendar.2) :
    expiry? now hours =
      if calendar.1 ≤ now + 3600 * hours ∧ now + 3600 * hours ≤ calendar.2
      then some (now + 3600 * hours) else none := by
  simp only [calendar] at first last
  rw [expiry?]
  refine if_congr ⟨fun h => h.2.2, fun h => ⟨?_, ?_, h⟩⟩ rfl rfl
  · simp only [calendar] at h
    omega
  · simp only [calendar] at h
    omega

theorem mint?_of_dated (first : calendar.1 ≤ now) (last : now ≤ calendar.2) :
    mint? secret hours now who email =
      if calendar.1 ≤ now + 3600 * hours ∧ now + 3600 * hours ≤ calendar.2
      then some (minted secret (claimsFor hours now who email)).text else none := by
  rw [mint?, expiry?_of_dated first last]
  split <;> rfl

theorem mint?_eq_none_iff_of_dated (first : calendar.1 ≤ now) (last : now ≤ calendar.2) :
    mint? secret hours now who email = none ↔
      now + 3600 * hours < calendar.1 ∨ calendar.2 < now + 3600 * hours := by
  rw [mint?_of_dated first last, ite_eq_right_iff]
  constructor
  · intro none
    by_contra within
    rw [not_or, Int.not_lt, Int.not_lt] at within
    cases none within
  · rintro beyond ⟨lower, upper⟩
    omega

/-- The command line is broken off where nothing is minted. -/
theorem mintToken_eq_brokenOff_iff {env : Environment} {s : Settings}
    (accepted : Settings.ofEnvironment env = .ok s) :
    CommandLine.mintToken env now who = .brokenOff ↔
      mint? s.secret s.expiryHours now who "" = none := by
  simp only [CommandLine.mintToken, accepted]
  cases mint? s.secret s.expiryHours now who "" <;> simp

/-- Under accepted settings minting fails if the expiry lies outside the calendar, and only then, and
with it the command line is broken off. The settings do not prevent this: of the hours they ask no
more than that they fit 64 bits, and any that do are accepted. -/
theorem minting_fails_iff_beyond (env : Environment) (s : Settings)
    (accepted : Settings.ofEnvironment env = .ok s) (who : Bearer) (email : String) (now : Int)
    (first : calendar.1 ≤ now) (last : now ≤ calendar.2) :
    (mint? s.secret s.expiryHours now who email = none ↔
        now + 3600 * s.expiryHours < calendar.1 ∨ calendar.2 < now + 3600 * s.expiryHours) ∧
      (CommandLine.mintToken env now who = .brokenOff ↔
        now + 3600 * s.expiryHours < calendar.1 ∨ calendar.2 < now + 3600 * s.expiryHours) ∧
      (∀ token, mint? s.secret s.expiryHours now who email = some token →
        ∃ p : Parts, token = p.text ∧
          ∀ x ∈ p.header.toList ++ p.payload.toList ++ p.signature.toList,
            x.isAlphanum ∨ x = '-' ∨ x = '_') ∧
      (-2 ^ 63 ≤ s.expiryHours ∧ s.expiryHours < 2 ^ 63) ∧
      ∀ n : Int, -2 ^ 63 ≤ n → n < 2 ^ 63 →
        Settings.ofEnvironment (Settings.withHours env n) = .ok { s with expiryHours := n } := by
  refine ⟨mint?_eq_none_iff_of_dated first last,
    (mintToken_eq_brokenOff_iff accepted).trans (mint?_eq_none_iff_of_dated first last), ?_, ?_,
    fun n => Settings.accepts_hours accepted⟩
  · intro token made
    rw [mint?_of_dated first last] at made
    split at made
    · cases made
      exact ⟨minted s.secret (claimsFor s.expiryHours now who email), rfl, isLetter_minted _ _⟩
    · cases made
  · rw [(Settings.ofEnvironment_eq_ok_iff.mp accepted).expiryHours]
    exact Settings.signedOr_bounds (by decide) _

/-- The last hour that leads to a time in the calendar, and the next one. -/
theorem minting_fails_iff_beyond_next_hour :
    let who : Bearer := ⟨"u", ⟨"acme"⟩, .agent⟩
    let env (text : String) := Settings.bare.put Settings.hoursVariable (Octets.ofText text)
    let settings (n : Int) : Settings := { Settings.defaults with expiryHours := n }
    Settings.ofEnvironment (env "69917305") = .ok (settings 69917305) ∧
      mint? (settings 69917305).secret 69917305 1700000000 who "" ≠ none ∧
      Settings.ofEnvironment (env "69917306") = .ok (settings 69917306) ∧
      mint? (settings 69917306).secret 69917306 1700000000 who "" = none ∧
      CommandLine.mintToken (env "69917306") 1700000000 who = .brokenOff := by
  intro who env settings
  have below : Settings.ofEnvironment (env "69917305") = .ok (settings 69917305) := by
    decide +kernel
  have above : Settings.ofEnvironment (env "69917306") = .ok (settings 69917306) := by
    decide +kernel
  have within := minting_fails_iff_beyond _ _ below who "" 1700000000 (by decide) (by decide)
  have beyond := minting_fails_iff_beyond _ _ above who "" 1700000000 (by decide) (by decide)
  refine ⟨below, fun none => ?_, above, beyond.1.mpr (.inr (by decide)),
    beyond.2.1.mpr (.inr (by decide))⟩
  have outside := within.1.mp none
  revert outside
  decide

/-- At either end of what is accepted minting fails. -/
theorem minting_fails_at_ends :
    let who : Bearer := ⟨"u", ⟨"acme"⟩, .agent⟩
    let env (text : String) := Settings.bare.put Settings.hoursVariable (Octets.ofText text)
    let settings (n : Int) : Settings := { Settings.defaults with expiryHours := n }
    (Settings.ofEnvironment (env "9223372036854775807") = .ok (settings (2 ^ 63 - 1)) ∧
      mint? (settings (2 ^ 63 - 1)).secret (2 ^ 63 - 1) 1700000000 who "" = none) ∧
    Settings.ofEnvironment (env "-9223372036854775808") = .ok (settings (-2 ^ 63)) ∧
      mint? (settings (-2 ^ 63)).secret (-2 ^ 63) 1700000000 who "" = none := by
  intro who env settings
  have greatest : Settings.ofEnvironment (env "9223372036854775807") =
      .ok (settings (2 ^ 63 - 1)) := by decide +kernel
  have least : Settings.ofEnvironment (env "-9223372036854775808") =
      .ok (settings (-2 ^ 63)) := by decide +kernel
  exact ⟨⟨greatest, rfl⟩, least, rfl⟩

end Token

end Fanout
