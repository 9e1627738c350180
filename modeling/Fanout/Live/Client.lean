import Fanout.Http.Routes
import Fanout.Live.Schedule

/-!
Clients at the other end of a link: they connect through the socket route, send, read what has
arrived, and may be cut off.
-/

namespace Fanout.Live

/-- The watch of a client whose request was accepted: the attempt goes from authentication over
the upgrade and the registration under its session to reading. -/
def Watch.begin (session : Nat) : Watch :=
  let upgraded := Attempt.moveThrough { number := session } [.authenticated, .upgraded]
  { attempt := (upgraded.withSession session).moveThrough [.registered, .reading] }

namespace Service

/-- What requests are answered from. -/
def context (s : Service) (secret : String) (now : Int) : Http.Context :=
  ⟨secret, now, ⟨s.size, s.tenants, s.status.name⟩⟩

/-- A client connected as a bearer: its connection, or nothing if no queue can be made. -/
def attach (s : Service) (who : Bearer) : Option Nat × Service :=
  match s.register? who (.link {}) (some (Watch.begin s.connections.length)) with
  | none => (none, s)
  | some (i, s) => (some i, s)

/-- A request handed to the service over no connection: its response, and the service after it. Only
a socket that is opened attaches a client. -/
def serve (s : Service) (secret : String) (now : Int) (r : Http.Request) :
    Http.Response × Service :=
  let c := s.context secret now
  (r.respond c,
    match r.opened? c with
    | some who => (s.attach who).2
    | none => s)

/-- An item sent by a client. -/
def receive (s : Service) (i : Nat) (item : Inbound) : Service :=
  let add := fun w : Watch => { w with inbound := w.inbound ++ [item] }
  (s.modify i fun c => { c with watch := c.watch.map add }).wake [.reader i]

/-- The bytes by which a client asks for a socket: it is turned down by a response, or connected. An
accepted client may have sent more than the head. -/
def connect (s : Service) (secret : String) (now : Int) (b : Octets) :
    Except Http.Response (Option Nat × Service) :=
  match Http.Head.ofOctets b with
  | .error fault => .error (.empty fault.status)
  | .ok (head, stray) =>
    match Http.Request.ofHead head with
    | .error fault => .error (.empty fault.status)
    | .ok r =>
      match r.openSocket (s.context secret now) (head.version = .http11) with
      | .error response => .error response
      | .ok who =>
        match s.attach who with
        | (none, s) => .ok (none, s)
        | (some i, s) =>
          match Inbound.ofStray? stray with
          | none => .ok (some i, s)
          | some item => .ok (some i, s.receive i item)

/-- A client cut off without a farewell. -/
def cutOff (s : Service) (i : Nat) : Service :=
  let s := s.modify i fun c => { c with sink := c.sink.mapLink fun l => { l with cut := true } }
  (s.receive i .error).wake [.writer i]

/-! ### Reading -/

/-- What a client can read at once. When this side is gone, what the pipe does not hold is lost. -/
def readOnce (c : Connection) (l : Link) : List Frame × Link :=
  let (frames, rest) := Link.read (min l.pending Link.capacity) l.unread
  (frames, l.leave (if c.isGone then [] else rest))

/-- A client reads and waits in turn until nothing more arrives; at most so many times. -/
def readFor (i : Nat) : Nat → Service → List Frame × Service
  | 0, s => ([], s)
  | n + 1, s =>
    match s.connections[i]?.bind fun c => c.sink.link?.map fun l => (c, l) with
    | none => ([], s)
    | some (c, l) =>
      if l.unread.isEmpty then ([], s)
      else
        let (frames, l) := readOnce c l
        let s := s.modify i fun c => { c with sink := .link l }
        let (more, s) := readFor i n (s.wake [.writer i]).settle
        (frames ++ more, s)

/-- A bound on how often a client reads until nothing more arrives: each time the pipe is emptied,
and at last there is room for all that is queued. -/
def readings (c : Connection) : Nat :=
  let queued := (c.queue.map Frame.wireSize).foldr (· + ·) 0
  let pending := (c.sink.link?.map Link.pending).getD 0
  (queued + pending) / Link.capacity + c.queue.length + 5

/-- The frames that a client reads now. -/
def drain (s : Service) (i : Nat) : List Frame × Service :=
  let s := s.settle
  match s.connections[i]? with
  | none => ([], s)
  | some c => readFor i (readings c) s

/-- Whether nothing more can come from a connection: its tasks are gone and the pipe is empty, or
the client cut the link. -/
def isOver (s : Service) (i : Nat) : Bool :=
  match s.connections[i]? with
  | none => true
  | some c =>
    match c.sink.link? with
    | none => c.isGone
    | some l => l.cut || (c.isGone && l.unread.isEmpty)

end Service

end Fanout.Live
