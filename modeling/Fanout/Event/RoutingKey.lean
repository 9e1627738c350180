/-!
The kinds of events that are published, by their routing keys.
-/

namespace Fanout.Event

/-- The exchange that events are published to unless the settings name another. -/
def defaultExchange : String := "conversation.events"

/-- The binding key that matches every routing key. -/
def matchAll : String := "#"

inductive RoutingKey where
  | messageReceived
  | messageSent
  | conversationAssigned
  | conversationClosed
  | ticketCreated
  | ticketEscalated
deriving DecidableEq, Repr

namespace RoutingKey

/-- All kinds, in the order in which they are listed to users. -/
def all : List RoutingKey :=
  [messageReceived, messageSent, conversationAssigned, conversationClosed, ticketCreated,
    ticketEscalated]

def name : RoutingKey → String
  | messageReceived => "message.received"
  | messageSent => "message.sent"
  | conversationAssigned => "conversation.assigned"
  | conversationClosed => "conversation.closed"
  | ticketCreated => "ticket.created"
  | ticketEscalated => "ticket.escalated"

def ofName? (n : String) : Option RoutingKey := all.find? (·.name == n)

end RoutingKey

end Fanout.Event
