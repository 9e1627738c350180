import Fanout.Broker
import Fanout.Event.RoutingKey
import Fanout.Settings

/-!
Bridges from the broker to the connections. A bridge sets itself up by four calls and then takes
deliveries from its stream until the stream ends or hands out a failure.
-/

namespace Fanout.Live

/-- What a bridge binds its queue to, and what becomes of untagged events. -/
structure Bridge where
  exchange : String := Event.defaultExchange
  bindingKey : String := Event.matchAll
  policy : UntaggedPolicy := .broadcast
deriving DecidableEq, Repr

namespace Bridge

def ofSettings (s : Settings) : Bridge := ⟨s.exchange, s.bindingKey, s.untaggedPolicy⟩

/-- The queue is bound before it is consumed, so nothing published in between is missed. -/
def setup (b : Bridge) (broker : Broker) : List BrokerCall :=
  [.openChannel, .declareQueue, .bind broker.queue b.exchange b.bindingKey, .consume broker.queue]

end Bridge

/-- A bridge that runs as a task: what its stream still holds, whether more may come, whether the
stream is there, and the calls made so far, each with the status at that moment. -/
structure BridgeRun where
  bridge : Bridge
  broker : Broker
  pending : List Delivery
  started : Bool := false
  finished : Bool := false
  feedEnded : Bool := false
  streamDropped : Bool := false
  calls : List (BrokerCall × BridgeStatus) := []
deriving DecidableEq, Repr

end Fanout.Live
