import Fanout.Decimal.Integer
import Fanout.Event.RoutingKey
import Fanout.Octets
import Fanout.Text.Blank

/-!
Settings from environment variables. A value that is not UTF-8 counts as unset. A number that
cannot be read, or is out of range, gives way to its default; a weak secret or an unknown policy
is an error.
-/

namespace Fanout

/-- The environment: the bytes of each variable that is set. -/
abbrev Environment := String → Option Octets

def Environment.text? (env : Environment) (name : String) : Option String :=
  (env name).bind Octets.text?

/-- What becomes of an event that belongs to no tenant. -/
inductive UntaggedPolicy where
  | broadcast
  | drop
deriving DecidableEq, Repr

namespace UntaggedPolicy

def name : UntaggedPolicy → String
  | broadcast => "broadcast"
  | drop => "drop"

/-- The policy that a text asks for, blanks around it and the case of ASCII letters apart. -/
def ofText? (s : String) : Option UntaggedPolicy :=
  let t := Text.lowerAscii (Text.trim s)
  if t = "broadcast" ∨ t = "" then some broadcast else if t = "drop" then some drop else none

end UntaggedPolicy

inductive SettingsError where
  | missingSecret
  | weakSecret
  | unknownPolicy
deriving DecidableEq, Repr

def SettingsError.message : SettingsError → String
  | missingSecret => "Missing required environment variable: JWT_SECRET"
  | weakSecret => "Weak secret: JWT_SECRET must be at least 32 characters"
  | unknownPolicy =>
    "Invalid configuration: REALTIME_UNSCOPED_POLICY must be 'broadcast' or 'drop'"

structure Settings where
  bindAddress : String
  secret : String
  expiryHours : Int
  brokerUrl : String
  exchange : String
  bindingKey : String
  untaggedPolicy : UntaggedPolicy
  writeTimeout : Nat
  outboundBuffer : Nat
deriving DecidableEq, Repr

namespace Settings

/-- The fewest bytes of a secret. -/
def leastSecretSize : Nat := 32

/-- The greatest number of 64 bits. -/
def greatestUnsigned : Nat := 0xFFFFFFFFFFFFFFFF

/-- A positive number of at most 64 bits, or a default. -/
def positiveOr (default : Nat) (text : Option String) : Nat :=
  match text.bind fun s => Decimal.unsigned? s.toList with
  | some n => if 0 < n ∧ n ≤ greatestUnsigned then n else default
  | none => default

/-- A signed number of 64 bits, or a default. -/
def signedOr (default : Int) (text : Option String) : Int :=
  match text.bind fun s => Decimal.signed? s.toList with
  | some n => if -0x8000000000000000 ≤ n ∧ n < 0x8000000000000000 then n else default
  | none => default

/-- The address of the broker put together from its parts. -/
def brokerUrlOf (user password host port : String) : String :=
  "amqp://" ++ user ++ ":" ++ password ++ "@" ++ host ++ ":" ++ port ++ "/%2f"

def secretOf (env : Environment) : Except SettingsError String :=
  match env.text? "JWT_SECRET" with
  | none => .error .missingSecret
  | some s => if s.utf8ByteSize < leastSecretSize then .error .weakSecret else .ok s

/-- The address of the broker, given as a whole or in parts. -/
def brokerUrlFrom (env : Environment) : String :=
  (env.text? "RABBITMQ_URL").getD <|
    brokerUrlOf ((env.text? "RABBITMQ_USER").getD "guest")
      ((env.text? "RABBITMQ_PASSWORD").getD "guest")
      ((env.text? "RABBITMQ_HOST").getD "localhost")
      ((env.text? "RABBITMQ_PORT").getD "5672")

def ofEnvironment (env : Environment) : Except SettingsError Settings :=
  match secretOf env with
  | .error e => .error e
  | .ok secret =>
    match UntaggedPolicy.ofText? ((env.text? "REALTIME_UNSCOPED_POLICY").getD "") with
    | none => .error .unknownPolicy
    | some policy => .ok
      { bindAddress := (env.text? "BIND_ADDRESS").getD "0.0.0.0:8080"
        secret := secret
        expiryHours := signedOr 24 (env.text? "JWT_EXPIRY_HOURS")
        brokerUrl := brokerUrlFrom env
        exchange := (env.text? "REALTIME_EXCHANGE").getD Event.defaultExchange
        bindingKey := (env.text? "REALTIME_BINDING_KEY").getD Event.matchAll
        untaggedPolicy := policy
        writeTimeout := positiveOr 10000 (env.text? "WS_WRITE_TIMEOUT_MS")
        outboundBuffer := positiveOr 256 (env.text? "WS_OUTBOUND_BUFFER") }

end Settings

end Fanout
