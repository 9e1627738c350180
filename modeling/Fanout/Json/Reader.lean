import Fanout.Json.Term

/-!
The grammar of JSON over bytes. A reader takes the bytes before it and leaves the rest; the whole
input is one term with blanks around it. How deep containers may nest is a parameter.
-/

namespace Fanout.Json

/-- Reads a piece from the front and leaves the rest; `none` if the input does not begin with one. -/
abbrev Reader (α : Type) := Octets → Option (α × Octets)

namespace Reader

/-- The blanks between tokens: space, tab, line feed and carriage return. -/
def isBlank (b : UInt8) : Bool := b == 0x20 || b == 0x09 || b == 0x0A || b == 0x0D

/-- The input after the blanks in front. -/
def skip (b : Octets) : Octets := b.dropWhile isBlank

def isDigit (b : UInt8) : Bool := 0x30 ≤ b && b ≤ 0x39

def run (b : Octets) : List Nat × Octets :=
  ((b.takeWhile isDigit).map fun d => d.toNat - 0x30, b.dropWhile isDigit)

def digits : Reader (List Nat) := fun b =>
  match run b with
  | ([], _) => none
  | found => some found

/-- The whole part: a lone zero, or digits that do not begin with one. -/
def whole : Reader (List Nat)
  | [] => none
  | b :: rest => if b = 0x30 then some ([0], rest) else digits (b :: rest)

/-- The digits after a point, if there is a point. -/
def fraction : Reader (Option (List Nat))
  | [] => some (none, [])
  | b :: rest =>
    if b = 0x2E then (digits rest).map fun (ds, rest) => (some ds, rest)
    else some (none, b :: rest)

/-- A sign that may be left out: whether it is a minus. -/
def sign : Octets → Bool × Octets
  | [] => (false, [])
  | b :: rest =>
    if b = 0x2D then (true, rest) else if b = 0x2B then (false, rest) else (false, b :: rest)

/-- The exponent after its letter, if there is one. -/
def exponent : Reader (Option Exponent)
  | [] => some (none, [])
  | b :: rest =>
    if b = 0x65 ∨ b = 0x45 then
      let (negative, rest) := sign rest
      (digits rest).map fun (ds, rest) => (some ⟨negative, ds⟩, rest)
    else some (none, b :: rest)

def numeral : Reader Numeral := fun b => do
  let (negative, b) := match b with
    | 0x2D :: rest => (true, rest)
    | b => (false, b)
  let (ds, b) ← whole b
  let (fr, b) ← fraction b
  let (ex, b) ← exponent b
  return (⟨negative, ds, fr, ex⟩, b)

def shortEscape? (b : UInt8) : Option UInt8 :=
  if b = 0x22 ∨ b = 0x5C ∨ b = 0x2F then some b
  else if b = 0x62 then some 0x08
  else if b = 0x66 then some 0x0C
  else if b = 0x6E then some 0x0A
  else if b = 0x72 then some 0x0D
  else if b = 0x74 then some 0x09
  else none

def unit? (a b c d : UInt8) : Option Nat := do
  let w ← Octets.hexValue? a
  let x ← Octets.hexValue? b
  let y ← Octets.hexValue? c
  let z ← Octets.hexValue? d
  return ((w * 16 + x) * 16 + y) * 16 + z

/-- The marks up to the closing quote, put after those collected in reverse. -/
def marks : Octets → List Mark → Option (List Mark × Octets)
  | [], _ => none
  | b :: rest, acc =>
    if b = 0x22 then some (acc.reverse, rest)
    else if b = 0x5C then
      match rest with
      | [] => none
      | e :: rest =>
        if e = 0x75 then
          match rest with
          | w :: x :: y :: z :: rest =>
            match unit? w x y z with
            | some u => marks rest (.unit u :: acc)
            | none => none
          | _ => none
        else
          match shortEscape? e with
          | some c => marks rest (.byte c :: acc)
          | none => none
    else if b < 0x20 then none
    else marks rest (.byte b :: acc)

def string : Reader (List Mark)
  | [] => none
  | b :: rest => if b = 0x22 then marks rest [] else none

def word (w : Octets) : Reader Unit := fun b =>
  if w.isPrefixOf b then some ((), b.drop w.length) else none

/-- The items up to the closing bracket, at most as many as the first argument says. -/
def items (item : Reader Term) : Nat → Octets → List Term → Option (List Term × Octets)
  | 0, _, _ => none
  | n + 1, b, acc =>
    match item b with
    | none => none
    | some (t, rest) =>
      match skip rest with
      | 0x2C :: rest => items item n rest (t :: acc)
      | 0x5D :: rest => some ((t :: acc).reverse, rest)
      | _ => none

def member (item : Reader Term) : Reader (List Mark × Term) := fun b => do
  let (key, b) ← string (skip b)
  match skip b with
  | 0x3A :: b =>
    let (t, b) ← item b
    return ((key, t), b)
  | _ => none

/-- The members up to the closing brace, at most as many as the first argument says. -/
def members (item : Reader Term) :
    Nat → Octets → List (List Mark × Term) → Option (List (List Mark × Term) × Octets)
  | 0, _, _ => none
  | n + 1, b, acc =>
    match member item b with
    | none => none
    | some (m, rest) =>
      match skip rest with
      | 0x2C :: rest => members item n rest (m :: acc)
      | 0x7D :: rest => some ((m :: acc).reverse, rest)
      | _ => none

/-- A term whose containers, if any are allowed, hold what `inner` reads. -/
def node (size : Nat) (inner : Option (Reader Term)) : Reader Term := fun b =>
  match skip b with
  | [] => none
  | 0x22 :: rest => (marks rest []).map fun (s, rest) => (.string s, rest)
  | 0x5B :: rest =>
    match inner, skip rest with
    | none, _ => none
    | some _, 0x5D :: rest => some (.array [], rest)
    | some item, rest => (items item size rest []).map fun (ts, rest) => (.array ts, rest)
  | 0x7B :: rest =>
    match inner, skip rest with
    | none, _ => none
    | some _, 0x7D :: rest => some (.object [], rest)
    | some item, rest => (members item size rest []).map fun (ms, rest) => (.object ms, rest)
  | b :: rest =>
    if b = 0x6E then (word [0x75, 0x6C, 0x6C] rest).map fun (_, rest) => (.null, rest)
    else if b = 0x74 then (word [0x72, 0x75, 0x65] rest).map fun (_, rest) => (.bool true, rest)
    else if b = 0x66 then
      (word [0x61, 0x6C, 0x73, 0x65] rest).map fun (_, rest) => (.bool false, rest)
    else (numeral (b :: rest)).map fun (n, rest) => (.number n, rest)

/-- A term in which containers nest at most `depth` deep; no container has more than `size` parts. -/
def term (size : Nat) : Nat → Reader Term
  | 0 => node size none
  | depth + 1 => node size (some (term size depth))

end Reader

/-- The one term that the input consists of, blanks apart. An input of so many bytes cannot hold
more parts, so only the depth limits it. -/
def Term.ofOctets? (depth : Nat) (b : Octets) : Option Term :=
  match Reader.term b.length depth b with
  | some (t, rest) => if (Reader.skip rest).isEmpty then some t else none
  | none => none

/-- How deep containers may nest in a value. -/
def greatestDepth : Nat := 127

end Fanout.Json
