import Fanout.Hash.Hmac
import Fanout.Text.Base64Url
import Fanout.Token.Claims
import Fanout.Token.Header
import Fanout.Token.Registered

/-!
Signed tokens: a header, claims and a signature over both, each in base 64 and joined by dots.
Nothing is asked of the claims before the signature is found right.
-/

namespace Fanout

/-- What is wrong with a token whose signature is right, or with its header. -/
inductive TokenDefect where
  | json
  | base64
  | noExpiry
  | audience
deriving DecidableEq, Repr

def TokenDefect.message : TokenDefect → String
  | json => "JSON error"
  | base64 => "Base64 error"
  | noExpiry => "Missing required claim: exp"
  | audience => "InvalidAudience"

inductive TokenError where
  | expired
  | invalid
  | defective (d : TokenDefect)
deriving DecidableEq, Repr

def TokenError.message : TokenError → String
  | expired => "Token has expired"
  | invalid => "Invalid token"
  | defective d => "Token validation failed: " ++ d.message

namespace Token

structure Parts where
  header : String
  payload : String
  signature : String
deriving DecidableEq, Repr

/-- What stands before and after the last dot. -/
def splitLast? (l : List Char) : Option (List Char × List Char) :=
  match l.reverse.dropWhile (· != '.') with
  | [] => none
  | _ :: front => some (front.reverse, (l.reverse.takeWhile (· != '.')).reverse)

/-- The parts around the last two dots. -/
def parts? (token : String) : Option Parts := do
  let (front, signature) ← splitLast? token.toList
  let (header, payload) ← splitLast? front
  return ⟨String.ofList header, String.ofList payload, String.ofList signature⟩

def Parts.signed (p : Parts) : String := p.header ++ "." ++ p.payload

def Parts.text (p : Parts) : String := p.signed ++ "." ++ p.signature

def sign (secret signed : String) : String :=
  Text.Base64Url.encode (Hash.Hmac.digest (Octets.ofText secret) (Octets.ofText signed))

/-- The JSON text in a part of a token. Containers may nest as deep as the text is long, since what
has no meaning is passed over. -/
def segment (part : String) : Except TokenError Json.Term :=
  match Text.Base64Url.decode? part with
  | none => .error (.defective .base64)
  | some bytes =>
    match Json.Term.ofOctets? bytes.length bytes with
    | none => .error (.defective .json)
    | some t => .ok t

def algorithmOf (p : Parts) : Except TokenError String := do
  match Header.algorithmOf? (← segment p.header) with
  | none => .error (.defective .json)
  | some a => .ok a

/-- How long after its expiry a token is still taken, in seconds. -/
def leeway : Nat := 60

/-- What the clock and the registered claims say of claims that could be read. Time is counted without
sign, so that until the leeway has passed since the epoch everything has expired. -/
def verdict (now : Int) (members : List (String × Json.Term)) (c : Claims) :
    Except TokenError Claims :=
  if c.expires < 0 then .error (.defective .noExpiry)
  else if now < leeway ∨ c.expires < now - leeway then .error .expired
  else if Registered.hasAudience members then .error (.defective .audience)
  else .ok c

def claimsOf (now : Int) (p : Parts) : Except TokenError Claims := do
  match (← segment p.payload).members? with
  | none => .error (.defective .json)
  | some members =>
    match Claims.ofMembers? members with
    | none => .error (.defective .json)
    | some c =>
      if Registered.readable members then verdict now members c else .error (.defective .json)

/-- The claims of a token that is signed under the secret and has not expired. -/
def validate (secret : String) (now : Int) (token : String) : Except TokenError Claims :=
  match parts? token with
  | none => .error .invalid
  | some p =>
    match algorithmOf p with
    | .error e => .error e
    | .ok a =>
      if a ≠ signingAlgorithm then .error .invalid
      else if p.signature ≠ sign secret p.signed then .error .invalid
      else claimsOf now p

def issue (secret : String) (c : Claims) : String :=
  let header := Text.Base64Url.encode Header.minted
  let payload := Text.Base64Url.encode c.octets
  let signed := header ++ "." ++ payload
  signed ++ "." ++ sign secret signed

/-- The first and the last second of the calendar. -/
def calendar : Int × Int := (-377705116800, 253402300799)

/-- The expiry of a token that is minted at a present time for so many hours; `none` if the hours do
not fit 64 bits in seconds or the expiry lies outside the calendar. -/
def expiry? (now hours : Int) : Option Int :=
  let seconds := 3600 * hours
  if -0x8000000000000000 ≤ seconds ∧ seconds < 0x8000000000000000 ∧
      calendar.1 ≤ now + seconds ∧ now + seconds ≤ calendar.2 then some (now + seconds) else none

/-- A token minted at a present time for so many hours; `none` if no date expresses its expiry. -/
def mint? (secret : String) (hours now : Int) (who : Bearer) (email : String) : Option String :=
  (expiry? now hours).map fun expires =>
    issue secret ⟨who.user, who.tenant, email, who.role, now, expires⟩

end Token

end Fanout
