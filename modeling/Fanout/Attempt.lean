/-!
The life of a connection attempt: from the request over the upgrade to the end of reading. It moves
forward along legal steps only.
-/

namespace Fanout

inductive Phase where
  | pending
  | authenticated
  | rejected
  | upgraded
  | registered
  | reading
  | closing
  | closed
deriving DecidableEq, Repr

namespace Phase

def all : List Phase :=
  [pending, authenticated, rejected, upgraded, registered, reading, closing, closed]

def name : Phase → String
  | pending => "pending"
  | authenticated => "authenticated"
  | rejected => "rejected"
  | upgraded => "upgraded"
  | registered => "registered"
  | reading => "reading"
  | closing => "closing"
  | closed => "closed"

def ofName? (n : String) : Option Phase := all.find? (·.name == n)

/-- The legal steps: one chain, with a rejection in place of the first link. -/
def precedes : Phase → Phase → Bool
  | pending, authenticated | pending, rejected | authenticated, upgraded | upgraded, registered
  | registered, reading | reading, closing | closing, closed => true
  | _, _ => false

/-- From these no step is legal. -/
def isLast : Phase → Bool
  | rejected | closed => true
  | _ => false

end Phase

/-- A connection attempt, with the number of its session once there is one. -/
structure Attempt where
  number : Nat
  session : Option Nat := none
  phase : Phase := .pending
deriving DecidableEq, Repr

namespace Attempt

def withSession (a : Attempt) (session : Nat) : Attempt := { a with session := some session }

/-- An illegal move is refused and changes nothing. -/
def moveTo (a : Attempt) (next : Phase) : Bool × Attempt :=
  if a.phase.precedes next then (true, { a with phase := next }) else (false, a)

/-- The attempt moved through phases; an illegal move is passed over. -/
def moveThrough (a : Attempt) (phases : List Phase) : Attempt :=
  phases.foldl (fun a p => (a.moveTo p).2) a

end Attempt

end Fanout
