import Fanout.Octets

/-!
The message broker as the service sees it: the calls made to it, what may go wrong there, and how
far a bridge to it has come.
-/

namespace Fanout

/-- What was being done when the broker failed. -/
inductive BrokerTask where
  | connect
  | channelOpen
  | exchangeDeclare
  | queueDeclare
  | queueBind
  | consume
  | delivery
  | publish
deriving DecidableEq, Repr

structure BrokerFault where
  task : BrokerTask
  reason : String
deriving DecidableEq, Repr

namespace BrokerFault

/-- What is said in front of the reason. -/
def opening : BrokerTask → String
  | .connect => "Broker connection failed: "
  | .channelOpen => "Failed to open broker channel: "
  | .exchangeDeclare => "Failed to declare exchange: "
  | .queueDeclare => "Failed to declare queue: "
  | .queueBind => "Failed to bind queue: "
  | .consume => "Failed to start consumer: "
  | .delivery => "Delivery failed: "
  | .publish => "Publish failed: "

def message (e : BrokerFault) : String := opening e.task ++ e.reason

/-- Whether the fault came before any event could be delivered or published. -/
def isSetup (e : BrokerFault) : Bool :=
  match e.task with
  | .delivery | .publish => false
  | _ => true

end BrokerFault

/-- How far a bridge to the broker has come. -/
inductive BridgeStatus where
  | disabled
  | starting
  | running
  | stopped
deriving DecidableEq, Repr

namespace BridgeStatus

def name : BridgeStatus → String
  | disabled => "disabled"
  | starting => "starting"
  | running => "running"
  | stopped => "stopped"

def ofName? (n : String) : Option BridgeStatus :=
  [disabled, starting, running, stopped].find? (·.name == n)

end BridgeStatus

/-- An item of the stream of deliveries. -/
inductive Delivery where
  | body (b : Octets)
  | failure (e : BrokerFault)
deriving DecidableEq, Repr

/-- A broker that plays a script: the queue it declares, what it delivers, and what cannot be done
there, with the fault that is reported. -/
structure Broker where
  queue : String
  failures : List (BrokerTask × BrokerFault) := []
  deliveries : List Delivery := []
deriving DecidableEq, Repr

/-- A call to the broker, or an item taken from its stream. -/
inductive BrokerCall where
  | openChannel
  | declareExchange (exchange : String)
  | declareQueue
  | bind (queue exchange key : String)
  | consume (queue : String)
  | closeChannel
  | delivery
  | error
  | finish
deriving DecidableEq, Repr

/-- Whether this call fails if something cannot be done. Without a connection no channel opens. -/
def BrokerCall.failsOn : BrokerCall → BrokerTask → Bool
  | openChannel, .connect | openChannel, .channelOpen | declareExchange _, .exchangeDeclare
  | declareQueue, .queueDeclare | bind _ _ _, .queueBind | consume _, .consume => true
  | _, _ => false

namespace Broker

def faultOf? (b : Broker) (call : BrokerCall) : Option BrokerFault :=
  (b.failures.find? fun x => call.failsOn x.1).map Prod.snd

/-- Makes calls one after another up to the first that fails: the calls made and the fault. -/
def perform (b : Broker) : List BrokerCall → List BrokerCall × Option BrokerFault
  | [] => ([], none)
  | call :: rest =>
    match b.faultOf? call with
    | some e => ([call], some e)
    | none =>
      let (made, fault) := b.perform rest
      (call :: made, fault)

end Broker

end Fanout
