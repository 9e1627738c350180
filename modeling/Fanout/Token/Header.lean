import Fanout.Json.Content

/-!
The header of a token: a JSON object that names the algorithm of the signature. Other members that
have a meaning must have their shape, and none may stand twice; members without a meaning are
passed over. An array of all members in their order is a header as well.
-/

namespace Fanout.Token

open Json (Term)

def algorithms : List String :=
  ["HS256", "HS384", "HS512", "ES256", "ES384", "RS256", "RS384", "RS512", "PS256", "PS384",
    "PS512", "EdDSA"]

def signingAlgorithm : String := "HS256"

def Header.isNull : Term → Bool
  | .null => true
  | _ => false

/-- One of several names, written plainly or as the only key of an object, which holds nothing
under it. -/
def Header.choice? (holdsNothing : Term → Bool) (names : List String) (t : Term) : Option String :=
  let name := match t with
    | .string marks => Json.Mark.text? marks
    | .object [(key, t)] => if holdsNothing t then Json.Mark.text? key else none
    | _ => none
  name.filter names.contains

def algorithm? (t : Term) : Option String := Header.choice? Header.isNull algorithms t

namespace Header

def isText (t : Term) : Bool := t.text?.isSome

def isTextOrNull : Term → Bool
  | .null => true
  | t => isText t

def isTextsOrNull : Term → Bool
  | .null => true
  | .array items => items.all isText
  | _ => false

/-- Whether the member under a key is absent or has a given shape. -/
def allows (members : List (String × Term)) (shape : Term → Bool) (key : String) : Bool :=
  match Json.field members key with
  | .absent => true
  | .present t => shape t
  | .repeated => false

/-- Whether the member under a key is there and has a given shape. -/
def demands (members : List (String × Term)) (shape : Term → Bool) (key : String) : Bool :=
  match Json.required? members key with
  | some t => shape t
  | none => false

/-- The algorithms that a key may be meant for. -/
def keyAlgorithms : List String := algorithms ++ ["RSA1_5", "RSA-OAEP", "RSA-OAEP-256"]

def isNullOrEmpty : Term → Bool
  | .null | .object [] => true
  | _ => false

def isKeyAlgorithmOrNull : Term → Bool
  | .null => true
  | t => (choice? isNullOrEmpty keyAlgorithms t).isSome

def kinds : List String := ["EC", "RSA", "oct", "OKP"]

def curves : List String := ["P-256", "P-384", "P-521", "Ed25519"]

def isCurve (t : Term) : Bool := (choice? isNull curves t).isSome

/-- Whether members describe a key of one of the four kinds. -/
def describesKey (members : List (String × Term)) : Bool :=
  ["kid", "x5u", "x5t", "x5t#S256", "use"].all (allows members isTextOrNull) &&
    allows members isKeyAlgorithmOrNull "alg" &&
    ["key_ops", "x5c"].all (allows members isTextsOrNull) &&
    match (Json.required? members "kty").bind (choice? isNull kinds) with
    | some "EC" => demands members isCurve "crv" && ["x", "y"].all (demands members isText)
    | some "RSA" => ["n", "e"].all (demands members isText)
    | some "oct" => demands members isText "k"
    | some "OKP" => demands members isCurve "crv" && demands members isText "x"
    | _ => false

/-- A key is read as content first, since its kind decides which members have a meaning. -/
def isKeyOrNull : Term → Bool
  | .null => true
  | t => t.isContent Json.memberDepth && (t.members?.map describesKey).getD false

/-- The members with a meaning, in their order, and the shape of each. -/
def shapes : List (String × (Term → Bool)) :=
  [("typ", isTextOrNull), ("alg", fun t => (algorithm? t).isSome), ("cty", isTextOrNull),
    ("jku", isTextOrNull), ("jwk", isKeyOrNull), ("kid", isTextOrNull), ("x5u", isTextOrNull),
    ("x5c", isTextsOrNull), ("x5t", isTextOrNull), ("x5t#S256", isTextOrNull)]

/-- The algorithm that a header names; `none` if it is no header. -/
def algorithmOf? : Term → Option String
  | .object members => do
    let members ← Term.members? (.object members)
    if shapes.all fun (key, shape) => allows members shape key then
      (Json.required? members "alg").bind algorithm?
    else none
  | .array items =>
    if items.length = shapes.length ∧ ((items.zip shapes).all fun (t, (_, shape)) => shape t) then
      items[1]?.bind algorithm?
    else none
  | _ => none

def minted : Octets := Octets.ofText "\x7b\"typ\":\"JWT\",\"alg\":\"HS256\"\x7d"

end Header

end Fanout.Token
