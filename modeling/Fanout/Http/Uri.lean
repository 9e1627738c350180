import Fanout.Octets

/-!
Request targets. A target is a path with a query, a whole address, or an authority alone; what
counts of it is the path and the query. Fragments are left out.
-/

namespace Fanout.Http

/-- The path and the query of a target; an authority alone has an empty path. -/
structure Uri where
  path : Octets
  query : Option Octets
deriving DecidableEq, Repr

namespace Uri

def greatestLength : Nat := 65534

def within (low high b : UInt8) : Bool := low ≤ b && b ≤ high

def isPathOctet (b : UInt8) : Bool :=
  b == 0x21 || b == 0x22 || within 0x24 0x3B b || b == 0x3D || within 0x40 0x5F b ||
    within 0x61 0x7E b || 0x80 ≤ b

def isQueryOctet (b : UInt8) : Bool :=
  b == 0x21 || within 0x24 0x3B b || b == 0x3D || within 0x3F 0x7E b || 0x80 ≤ b

/-- A path with a query. Bytes beyond ASCII must make up UTF-8. -/
def ofPath? (b : Octets) : Option Uri :=
  let b := b.takeWhile (· != 0x23)
  let path := b.takeWhile (· != 0x3F)
  let query := (b.dropWhile (· != 0x3F)).tail?
  if path.all isPathOctet && (query.getD []).all isQueryOctet && (Octets.text? b).isSome then
    some ⟨path, query⟩
  else none

/-- A byte that the name of a scheme may hold; the colon ends it. -/
def isSchemeOctet (b : UInt8) : Bool :=
  within 0x30 0x39 b || within 0x41 0x5A b || within 0x61 0x7A b || b == 0x2B || b == 0x2D ||
    b == 0x2E || b == 0x7E

/-- What stands before an authority. -/
inductive Scheme where
  | none
  | named (rest : Octets)
  | tooLong

def greatestScheme : Nat := 64

/-- Splits off a scheme: a name, a colon and two slashes. -/
def scheme (b : Octets) : Scheme :=
  let name := b.takeWhile isSchemeOctet
  match b.dropWhile isSchemeOctet with
  | 0x3A :: 0x2F :: 0x2F :: rest =>
    if greatestScheme < name.length then .tooLong else .named rest
  | _ => .none

/-- A byte that an authority may hold as it stands. -/
def isAuthorityOctet (b : UInt8) : Bool :=
  b == 0x21 || b == 0x24 || within 0x26 0x2E b || within 0x30 0x3B b || b == 0x3D ||
    within 0x40 0x5B b || b == 0x5D || b == 0x5F || within 0x61 0x7A b || b == 0x7E

/-- What was seen of an authority so far. Colons and percent signs are forgotten where they turn
out to belong to a user or to a bracketed host. -/
structure Authority where
  colons : Nat := 0
  opened : Bool := false
  closed : Bool := false
  percent : Bool := false
  atLast : Bool := false

/-- The most colons between two places where they are forgotten. -/
def greatestColons : Nat := 8

def Authority.step? (a : Authority) (b : UInt8) : Option Authority :=
  let a' := { a with atLast := b == 0x40 }
  if b = 0x3A then if greatestColons ≤ a.colons then none else some { a' with colons := a.colons + 1 }
  else if b = 0x5B then if a.percent || a.opened then none else some { a' with opened := true }
  else if b = 0x5D then
    if ! a.opened || a.closed then none
    else some { a' with closed := true, colons := 0, percent := false }
  else if b = 0x40 then some { a' with colons := 0, percent := false }
  else if b = 0x25 then some { a' with percent := true }
  else if isAuthorityOctet b then some a'
  else none

/-- Whether an authority may end here. -/
def Authority.complete (a : Authority) : Bool :=
  a.opened == a.closed && a.colons ≤ 1 && ! a.atLast && ! a.percent

def endsAuthority (b : UInt8) : Bool := b == 0x2F || b == 0x3F || b == 0x23

/-- The authority in front and the rest; `none` if it is malformed. -/
def authority? (b : Octets) : Option (Octets × Octets) := do
  let front := b.takeWhile (! endsAuthority ·)
  let seen ← front.foldlM Authority.step? {}
  if seen.complete then some (front, b.dropWhile (! endsAuthority ·)) else none

/-- A target that does not begin with a slash. -/
def ofAddress? (b : Octets) : Option Uri :=
  match scheme b with
  | .tooLong => none
  | .none =>
    match authority? b with
    | some (_, []) => some ⟨[], none⟩
    | _ => none
  | .named rest =>
    match authority? rest with
    | some (front, tail) => if front.isEmpty then none else ofPath? tail
    | none => none

def ofOctets? (b : Octets) : Option Uri :=
  if b.isEmpty || greatestLength < b.length then none
  else if b = [0x2A] then some ⟨[0x2A], none⟩
  else if b.head? = some 0x2F then ofPath? b
  else ofAddress? b

end Uri

end Fanout.Http
