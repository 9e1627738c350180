import Fanout.Decimal.Integer
import Fanout.Http.Header

/-!
Request heads as they come over a connection: the request line, the fields, and an empty line. What
follows is left for whoever reads on. A head may be wrong before any route is asked about it, and
then a bare status is the answer.
-/

namespace Fanout.Http

/-- Why a head is turned down. -/
inductive HeadFault where
  | malformed
  | targetTooLong
  | tooLarge
deriving DecidableEq, Repr

def HeadFault.status : HeadFault → Nat
  | malformed => 400
  | targetTooLong => 414
  | tooLarge => 431

inductive Version where
  | http10
  | http11
deriving DecidableEq, Repr

def Version.name : Version → String
  | http10 => "HTTP/1.0"
  | http11 => "HTTP/1.1"

structure Head where
  method : Octets
  target : Octets
  version : Version
  fields : List Field
deriving DecidableEq, Repr

namespace Head

/-! ### Writing -/

def space : UInt8 := 0x20

def colon : UInt8 := 0x3A

def lineEnd : Octets := [0x0D, 0x0A]

def fieldOctets (f : Field) : Octets := f.name ++ colon :: space :: (f.value ++ lineEnd)

/-- The bytes of a head. -/
def octets (h : Head) : Octets :=
  h.method ++ space :: (h.target ++ space :: (Octets.ofText h.version.name ++ lineEnd)) ++
    (h.fields.flatMap fieldOctets ++ lineEnd)

/-! ### Reading -/

/-- A byte that a target may hold as far as the request line is concerned. -/
def isTargetOctet (b : UInt8) : Bool := 0x21 ≤ b && b != 0x7F

/-- What follows the end of a line. The line feed alone ends one, too. -/
def afterLine? : Octets → Option Octets
  | 0x0D :: 0x0A :: rest => some rest
  | 0x0A :: rest => some rest
  | _ => none

def isBlank (b : UInt8) : Bool := b == 0x20 || b == 0x09

/-- A value without the blanks around it. -/
def trimmed (b : Octets) : Octets := ((b.dropWhile isBlank).reverse.dropWhile isBlank).reverse

/-- What precedes a space, if that is not empty and all its bytes are allowed, and what follows. -/
def word? (allowed : UInt8 → Bool) (b : Octets) : Option (Octets × Octets) :=
  match b.takeWhile allowed, b.dropWhile allowed with
  | first :: word, 0x20 :: rest => some (first :: word, rest)
  | _, _ => none

def version? (b : Octets) : Option (Version × Octets) :=
  match [Version.http10, Version.http11].find? fun v => Octets.ofText v.name == b.take 8 with
  | some v => some (v, b.drop 8)
  | none => none

/-- A field and what follows its line. No blank may stand before the colon. -/
def field? (b : Octets) : Option (Field × Octets) :=
  match b.takeWhile isTokenOctet, b.dropWhile isTokenOctet with
  | first :: name, 0x3A :: rest =>
    (afterLine? (rest.dropWhile isFieldOctet)).map fun tail =>
      (⟨first :: name, trimmed (rest.takeWhile isFieldOctet)⟩, tail)
  | _, _ => none

/-- How many fields a head may have. -/
def greatestCount : Nat := 100

/-- The fields up to the empty line, at most so many, and what follows that line. -/
def readFields : Nat → Octets → Except HeadFault (List Field × Octets)
  | room, b =>
    match afterLine? b with
    | some rest => .ok ([], rest)
    | none =>
      match field? b, room with
      | none, _ => .error .malformed
      | some _, 0 => .error .tooLarge
      | some (f, tail), room + 1 => (readFields room tail).map fun (fs, rest) => (f :: fs, rest)

/-- The request line and what follows it. -/
def line? (b : Octets) : Option (Octets × Octets × Version × Octets) := do
  let (method, b) ← word? isTokenOctet b
  let (target, b) ← word? isTargetOctet b
  let (version, b) ← version? b
  let b ← afterLine? b
  return (method, target, version, b)

/-- How many bytes a head may take. -/
def greatestLength : Nat := 417792

/-- The head that bytes begin with, and what follows it. -/
def ofOctets (b : Octets) : Except HeadFault (Head × Octets) :=
  match line? b with
  | none => .error .malformed
  | some (method, target, version, tail) =>
    match readFields greatestCount tail with
    | .error e => .error e
    | .ok (fields, rest) =>
      if greatestLength < b.length - rest.length then .error .tooLarge
      else .ok (⟨method, target, version, fields⟩, rest)

/-! ### What the fields say of a body -/

/-- The length of the body, and whether the last of its codings is by chunks. -/
structure Framing where
  length : Option Nat := none
  chunked : Option Bool := none

namespace Framing

/-- The greatest length that is told apart from an unknown one. -/
def greatestBody : Nat := 0xFFFFFFFFFFFFFFFD

def length? (value : Octets) : Option Nat :=
  (Decimal.natural? (value.map fun b => Char.ofNat b.toNat)).filter (· ≤ 0xFFFFFFFFFFFFFFFF)

def isChunked (value : Octets) : Bool :=
  value.all Headers.isTextOctet &&
    (trimmed (value.reverse.takeWhile (· != 0x2C)).reverse).eqIgnoringCase (Octets.ofText "chunked")

/-- One more field. A length counts only as long as no coding is named, and may be repeated but not
changed. -/
def step (version : Version) (s : Framing) (f : Field) : Except HeadFault Framing :=
  if f.isNamed "transfer-encoding" then
    if version = .http10 then .error .malformed
    else .ok { s with chunked := some (isChunked f.value) }
  else if f.isNamed "content-length" ∧ s.chunked.isNone then
    match length? f.value, s.length with
    | none, _ => .error .malformed
    | some n, some m => if n = m then .ok s else .error .malformed
    | some n, none => if greatestBody < n then .error .tooLarge else .ok { s with length := some n }
  else .ok s

/-- The fault of fields that leave open where the body ends. -/
def fault? (version : Version) (fields : List Field) : Option HeadFault :=
  match fields.foldlM (step version) {} with
  | .error e => some e
  | .ok s => if s.chunked = some false then some .malformed else none

end Framing

end Head

end Fanout.Http
