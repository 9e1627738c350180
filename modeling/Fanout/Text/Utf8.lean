import Fanout.Octets

/-!
Reading bytes as UTF-8 when they need not be well formed. Each maximal piece that begins a
character and breaks off, and each byte that begins none, is read as one replacement character.
-/

namespace Fanout.Text.Utf8

/-- A character whose first bytes are read: how many are still to come, between which bounds the
next one lies, and the bits collected. -/
structure Partial where
  missing : Nat
  least : Nat
  greatest : Nat
  bits : Nat

/-- What a first byte promises. The bounds on the second byte keep out overlong forms, surrogates
and code points beyond the last plane. -/
def Partial.ofLead? (b : Nat) : Option Partial :=
  if 0xC2 ≤ b ∧ b ≤ 0xDF then some ⟨1, 0x80, 0xBF, b % 0x20⟩
  else if b = 0xE0 then some ⟨2, 0xA0, 0xBF, b % 0x10⟩
  else if b = 0xED then some ⟨2, 0x80, 0x9F, b % 0x10⟩
  else if 0xE1 ≤ b ∧ b ≤ 0xEF then some ⟨2, 0x80, 0xBF, b % 0x10⟩
  else if b = 0xF0 then some ⟨3, 0x90, 0xBF, b % 0x08⟩
  else if 0xF1 ≤ b ∧ b ≤ 0xF3 then some ⟨3, 0x80, 0xBF, b % 0x08⟩
  else if b = 0xF4 then some ⟨3, 0x80, 0x8F, b % 0x08⟩
  else none

def replacement : Char := Char.ofNat 0xFFFD

/-- A byte read where a character begins: what it yields at once, and what it promises. -/
def begin (b : Nat) : List Char × Option Partial :=
  if b < 0x80 then ([Char.ofNat b], none)
  else match Partial.ofLead? b with
    | some p => ([], some p)
    | none => ([replacement], none)

def step (state : Option Partial) (b : Nat) : List Char × Option Partial :=
  match state with
  | none => begin b
  | some p =>
    if p.least ≤ b ∧ b ≤ p.greatest then
      let bits := p.bits * 0x40 + b % 0x40
      if p.missing ≤ 1 then ([Char.ofNat bits], none)
      else ([], some ⟨p.missing - 1, 0x80, 0xBF, bits⟩)
    else
      let (out, next) := begin b
      (replacement :: out, next)

def scan : Option Partial → Octets → List Char
  | none, [] => []
  | some _, [] => [replacement]
  | state, b :: rest =>
    let (out, next) := step state b.toNat
    out ++ scan next rest

/-- The bytes as text, with replacement characters for what is not well formed. -/
def lossy (b : Octets) : String := String.ofList (scan none b)

example : lossy [0x61, 0xE2, 0x82, 0x62] = "a\uFFFDb" := by decide

end Fanout.Text.Utf8
