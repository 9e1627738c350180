import Fanout.Broker
import Fanout.CommandLine
import Std.Time.DateTime.Timestamp

/-!
The program around the command line: it reads the environment and the clock and prints.
-/

namespace Fanout.Main

/-- The variables that are looked at. -/
def known : List String :=
  ["BIND_ADDRESS", "JWT_SECRET", "JWT_EXPIRY_HOURS", "RABBITMQ_URL", "RABBITMQ_HOST",
    "RABBITMQ_PORT", "RABBITMQ_USER", "RABBITMQ_PASSWORD", "REALTIME_EXCHANGE",
    "REALTIME_BINDING_KEY", "REALTIME_UNSCOPED_POLICY", "WS_WRITE_TIMEOUT_MS",
    "WS_OUTBOUND_BUFFER"]

/-- The environment of the process. -/
def environment : IO Environment := do
  let set ← known.filterMapM fun name => do
    return (← IO.getEnv name).map fun value => (name, Octets.ofText value)
  return fun name => set.lookup name

open CommandLine in
/-- The program has no way to reach a broker. -/
def send (p : Publication) : Except BrokerFault Unit :=
  .error ⟨.connect, "no transport for exchange " ++ p.exchange⟩

end Fanout.Main

open Fanout CommandLine in
/-- Runs one command. -/
def main (args : List String) : IO UInt32 := do
  let now := (← Std.Time.Timestamp.now).toSecondsSinceUnixEpoch.val
  let outcome := outcome (← Main.environment) now (args.map Octets.ofText)
  let ending := outcome.ending Main.send
  IO.eprint ending.err
  IO.print ending.out
  return ending.code
