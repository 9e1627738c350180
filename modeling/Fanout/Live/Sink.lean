import Fanout.Frame

/-!
Where the frames of a connection go. A sink is asked whether it is ready, takes a frame, and is
asked whether the frame is through; in the end it is closed. Each question is answered yes, no, or
not yet.

A probe is a sink in memory that can be told to hesitate or to fail. A link is one side of a pipe
of limited size whose other side a client reads.
-/

namespace Fanout.Live

inductive Poll where
  | pending
  | ready
  | failed
deriving DecidableEq, Repr

/-- The answer seen by somebody who waits until a deadline: after it, not yet means no. -/
def Poll.until (deadline now : Nat) : Poll → Poll
  | pending => if deadline ≤ now then failed else pending
  | answer => answer

/-- A sink in memory. It takes `accept` frames in all, and once `failAfter` frames were taken it
fails. -/
structure Probe where
  accept : Option Nat := none
  failAfter : Option Nat := none
  stallFlush : Bool := false
  stallClose : Bool := false
  failClose : Bool := false
  taken : List Frame := []
  closed : Bool := false
deriving DecidableEq, Repr

namespace Probe

def reached (limit : Option Nat) (n : Nat) : Bool := limit.any (· ≤ n)

/-- Failing comes before hesitating. -/
def ready (p : Probe) : Poll :=
  if reached p.failAfter p.taken.length then .failed
  else if reached p.accept p.taken.length then .pending
  else .ready

def take (p : Probe) (f : Frame) : Probe := { p with taken := p.taken ++ [f] }

def flush (p : Probe) : Poll := if p.stallFlush then .pending else .ready

/-- Closing does not ask for readiness. -/
def close (p : Probe) : Poll :=
  if p.stallClose then .pending else if p.failClose then .failed else .ready

/-- Room for so many further frames, if there is a limit. -/
def permit (n : Nat) (p : Probe) : Probe :=
  { p with accept := p.accept.map fun limit => max limit p.taken.length + n }

/-- No limit and no hesitation any more. A failure is not mended. -/
def release (p : Probe) : Probe := { p with accept := none, stallFlush := false, stallClose := false }

/-- No room for further frames. -/
def stall (p : Probe) : Probe := { p with accept := some p.taken.length }

/-- Fails from now on. -/
def fail (p : Probe) : Probe := { p with failAfter := some 0 }

end Probe

/-- One side of a pipe. Frames that the client has not read in full stand in `unread`, each with
the number of bytes still to be read. An answer is `owed` as long as it is not through. -/
structure Link where
  unread : List (Frame × Nat) := []
  owed : Bool := false
  closeSent : Bool := false
  peerClosed : Bool := false
  cut : Bool := false
deriving DecidableEq, Repr

namespace Link

/-- How many bytes the pipe holds. -/
def capacity : Nat := 65536

def pending (l : Link) : Nat := (l.unread.map Prod.snd).foldr (· + ·) 0

def push (l : Link) (f : Frame) : Link := { l with unread := l.unread ++ [(f, f.wireSize)] }

/-- After the client has closed or cut the link, no frame is taken. -/
def ready (l : Link) : Poll := if l.cut || l.peerClosed then .failed else .ready

/-- A closing frame is the last one that this side sends. -/
def take (l : Link) (f : Frame) : Link :=
  match f with
  | .close _ => { l.push f with closeSent := true }
  | _ => l.push f

/-- Whether a closing frame has gone either way. From then on a ping is not answered, and a close
is the answer to this side's own or has been answered. -/
def isClosing (l : Link) : Bool := l.closeSent || l.peerClosed

/-- A ping is answered until a closing frame is sent. -/
def answerPing (b : Octets) (l : Link) : Link :=
  if l.isClosing then l
  else
    let l := l.push (.pong b)
    { l with owed := l.owed || l.cut || capacity < l.pending }

/-- Whether an answer is owed that can never be through. -/
def isBroken (l : Link) : Bool := l.cut && l.owed

/-- The client has closed; the reply is the last frame sent, unless this side closed first. -/
def peerClose (reply : Frame) (l : Link) : Link :=
  { (if l.isClosing then l else l.push reply) with peerClosed := true }

/-- Frames are through when what is not read fits the pipe. -/
def flush (l : Link) : Poll :=
  if l.cut then .failed
  else if capacity < l.pending then .pending
  else if l.peerClosed then .failed
  else .ready

/-- Says farewell unless a closing frame was sent or received. -/
def beginClose (l : Link) : Link :=
  if l.isClosing then l else l.take (.close none)

/-- The link is closed when everything is through. -/
def close (l : Link) : Poll :=
  if l.cut then .failed else if capacity < l.pending then .pending else .ready

/-- Reads so many bytes from the front: the frames that are complete, and the rest. -/
def read : Nat → List (Frame × Nat) → List Frame × List (Frame × Nat)
  | _, [] => ([], [])
  | n, (f, k) :: rest =>
    if k ≤ n then
      let (frames, rest) := read (n - k) rest
      (f :: frames, rest)
    else ([], (f, k - n) :: rest)

/-- The link when the client has read and a rest is left. -/
def leave (rest : List (Frame × Nat)) (l : Link) : Link :=
  let l := { l with unread := rest }
  { l with owed := l.owed && capacity < l.pending }

/-- No frame is lost, repeated or overtaken by reading. -/
theorem read_frames (n : Nat) (l : List (Frame × Nat)) :
    (read n l).1 ++ (read n l).2.map Prod.fst = l.map Prod.fst := by
  fun_induction read n l with
  | case1 => rfl
  | case2 n f k rest h frames tail hr ih => simp [hr] at ih; simp [ih]
  | case3 => simp

end Link

inductive Sink where
  | probe (p : Probe)
  | link (l : Link)
deriving DecidableEq, Repr

namespace Sink

def ready : Sink → Poll
  | probe p => p.ready
  | link l => l.ready

def take : Sink → Frame → Sink
  | probe p, f => probe (p.take f)
  | link l, f => link (l.take f)

def flush : Sink → Poll
  | probe p => p.flush
  | link l => l.flush

/-- Only a link has something to say when its closing begins. -/
def beginClose : Sink → Sink
  | probe p => probe p
  | link l => link l.beginClose

def close : Sink → Poll
  | probe p => p.close
  | link l => l.close

/-- Only a probe keeps in mind that its closing is over. -/
def endClose : Sink → Sink
  | probe p => probe { p with closed := true }
  | link l => link l

/-- The frames that a probe has taken, in order. -/
def taken : Sink → List Frame
  | probe p => p.taken
  | link _ => []

def link? : Sink → Option Link
  | probe _ => none
  | link l => some l

def mapLink (f : Link → Link) : Sink → Sink
  | probe p => probe p
  | link l => link (f l)

def mapProbe (f : Probe → Probe) : Sink → Sink
  | probe p => probe (f p)
  | link l => link l

end Sink

end Fanout.Live
