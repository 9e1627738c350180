import Fanout.Http.Header
import Fanout.Http.Response
import Fanout.Text.Blank
import Fanout.Text.Form
import Fanout.Token.Basic

/-!
Who may connect. A credential is a token in the query or in a header field; whoever shows a valid
one is let in as its bearer. A refusal does not tell what was wrong with a token.
-/

namespace Fanout

namespace Credential

/-- What is left of a text without blanks at its ends, if anything. -/
def trimmed? (s : String) : Option String :=
  let t := Text.trim s
  if t.isEmpty then none else some t

def after? (start s : String) : Option String :=
  if start.toList.isPrefixOf s.toList then some (String.ofList (s.toList.drop start.length))
  else none

/-- Of several pairs named `token` the first counts. -/
def ofPairs? (pairs : List (String × String)) : Option String :=
  (pairs.find? fun p => p.1 == "token").map fun p => p.2

def ofQuery? (query : Option Octets) : Option String := ofPairs? (Text.Form.pairs (query.getD []))

/-- The scheme in front of the token is taken as it is spelled, with one space after it. -/
def ofHeaders? (headers : Http.Headers) : Option String :=
  ((headers.text? "authorization").bind (after? "Bearer ")).bind trimmed?

/-- The credential of a request: that of the query, or that of the header fields if the query has
none but blanks. -/
def find? (queryToken : Option String) (headers : Http.Headers) : Option String :=
  (queryToken.bind trimmed?).or (ofHeaders? headers)

end Credential

/-- Why nobody is let in. -/
inductive AdmissionError where
  | noCredential
  | badCredential (cause : TokenError)
deriving DecidableEq, Repr

namespace AdmissionError

def message : AdmissionError → String
  | noCredential => "token required"
  | badCredential _ => "invalid token"

def refusal (e : AdmissionError) : Http.Refusal := .unauthorized e.message

end AdmissionError

/-- The bearer of a credential at a present time. -/
def Bearer.ofCredential (secret : String) (now : Int) (credential : Option String) :
    Except AdmissionError Bearer :=
  match credential with
  | none => .error .noCredential
  | some token =>
    match Token.validate secret now token with
    | .ok claims => .ok claims.bearer
    | .error e => .error (.badCredential e)

end Fanout
