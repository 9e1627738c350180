import Fanout.Broker
import Fanout.Event.Envelope
import Fanout.Settings
import Fanout.Token.Basic

/-!
The command line: publishing one event, and minting a token. What a command comes to is decided
here from the arguments, the environment and the present time, and how the program ends from that and
from what the broker answers; printing and sending are left to the caller.
-/

namespace Fanout.CommandLine

inductive Command where
  | publish (type tenant : String) (payload : Option String)
  | token (user tenant role : String)
  | usage
deriving DecidableEq, Repr

/-- The command that arguments spell. Arguments beyond the fourth are passed over. -/
def Command.ofArgs : List String → Command
  | "publish" :: type :: tenant :: rest => .publish type tenant rest.head?
  | "token" :: user :: tenant :: rest => .token user tenant (rest.headD "agent")
  | _ => .usage

/-- An event ready to be sent. -/
structure Publication where
  url : String
  exchange : String
  envelope : Event.Envelope
deriving Repr

inductive CommandError where
  | unknownType (type : String)
  | settings (e : SettingsError)
  | payloadNotJson
  | envelope (e : Event.EnvelopeError)
deriving DecidableEq, Repr

def CommandError.message : CommandError → String
  | unknownType type =>
    "Unknown event type '" ++ type ++ "'; expected one of: " ++
      ", ".intercalate (Event.RoutingKey.all.map (·.name))
  | settings e => e.message
  | payloadNotJson => "payload is not JSON"
  | envelope e => e.message

/-- What a command comes to. One that is broken off neither gives a result nor says why. -/
inductive Outcome where
  | usage
  | failed (e : CommandError)
  | brokenOff
  | minted (token : String) (untagged : Bool)
  | publish (p : Publication)
deriving Repr

def usageText : String :=
  "Usage:\n  emit-event publish <type> <tenant_id> [json-object]\n" ++
    "  emit-event token <user_id> <tenant_id> [role]\n"

/-- Said when a token belongs to no tenant. -/
def untaggedWarning : String :=
  "Warning: token has no tenant; it only receives untagged events\n"

/-- The value of a payload; no payload is null. -/
def payloadValue? : Option String → Option Json.Value
  | none => some .null
  | some raw => Json.Value.ofOctets? (Octets.ofText raw)

/-- An event put together. The type is looked at before the settings, these before the payload. -/
def preparePublication (env : Environment) (type tenant : String) (payload : Option String) :
    Except CommandError Publication := do
  if (Event.RoutingKey.ofName? type).isNone then throw (.unknownType type)
  let settings ← (Settings.ofEnvironment env).mapError .settings
  let some value := payloadValue? payload | throw .payloadNotJson
  let envelope ← (Event.Envelope.ofPayload type ⟨tenant⟩ value).mapError .envelope
  return ⟨settings.brokerUrl, settings.exchange, envelope⟩

/-- A token minted under the settings. Without a date for its expiry the command is broken off. -/
def mintToken (env : Environment) (now : Int) (who : Bearer) : Outcome :=
  match Settings.ofEnvironment env with
  | .error e => .failed (.settings e)
  | .ok settings =>
    match Token.mint? settings.secret settings.expiryHours now who "" with
    | some token => .minted token who.tenant.isEmpty
    | none => .brokenOff

def Command.run (env : Environment) (now : Int) : Command → Outcome
  | .usage => .usage
  | .publish type tenant payload =>
    match preparePublication env type tenant payload with
    | .ok p => .publish p
    | .error e => .failed e
  | .token user tenant role => mintToken env now ⟨user, ⟨tenant⟩, Role.ofName role⟩

/-- What the program's arguments come to. An argument that is no text breaks it off. -/
def outcome (env : Environment) (now : Int) (args : List Octets) : Outcome :=
  match args.mapM Octets.text? with
  | some args => (Command.ofArgs args).run env now
  | none => .brokenOff

def failureText (message : String) : String := "Error: " ++ message ++ "\n"

def Publication.text (p : Publication) : String :=
  "Published " ++ p.envelope.type ++ " for tenant '" ++ p.envelope.tenant.id ++ "' to " ++ p.exchange

/-- The end of a program: its exit code and what it prints, as a result and beside it. -/
structure Ending where
  code : UInt32
  out : String := ""
  err : String := ""
deriving DecidableEq, Repr

/-- How the program ends after a command, if sending a publication goes as told. -/
def Outcome.ending (send : Publication → Except BrokerFault Unit) : Outcome → Ending
  | .usage => { code := 2, err := usageText }
  | .failed e => { code := 1, err := failureText e.message }
  | .brokenOff => { code := 101 }
  | .minted token untagged =>
    { code := 0, out := token ++ "\n", err := if untagged then untaggedWarning else "" }
  | .publish p =>
    match send p with
    | .ok () => { code := 0, out := p.text ++ "\n" }
    | .error fault => { code := 1, err := failureText fault.message }

/-- What is printed when the service cannot start for lack of settings. -/
def startFailureText (e : SettingsError) : String :=
  "Error: Failed to load configuration\n\nCaused by:\n    " ++ e.message ++ "\n"

/-- What is printed when the service cannot listen at its address. -/
def bindFailureText (s : Settings) : String := "Error: Failed to bind to " ++ s.bindAddress

end Fanout.CommandLine
