import Fanout.Text.Utf8

/-!
Name and value pairs in the form encoding: pairs joined by `&`, name and value by the first `=`,
a plus sign for a space, and `%` with two hexadecimal digits for any byte.
-/

namespace Fanout.Text.Form

/-- The pieces between separators; one piece more than there are separators. -/
def pieces (separator : UInt8) : Octets → List Octets
  | [] => [[]]
  | b :: rest =>
    if b = separator then [] :: pieces separator rest
    else match pieces separator rest with
      | [] => [[b]]
      | p :: ps => (b :: p) :: ps

/-- Undoes the escapes. A percent sign without two hexadecimal digits stands for itself. -/
def unescape : Octets → Octets
  | [] => []
  | b :: rest =>
    if b = 0x2B then 0x20 :: unescape rest
    else if b = 0x25 then
      match rest with
      | h :: l :: tail =>
        match Octets.hexValue? h, Octets.hexValue? l with
        | some x, some y => UInt8.ofNat (16 * x + y) :: unescape tail
        | _, _ => b :: unescape (h :: l :: tail)
      | [l] => b :: unescape [l]
      | [] => [b]
    else b :: unescape rest

def text (b : Octets) : String := Utf8.lossy (unescape b)

/-- A piece, cut at its first equals sign. -/
def pair (piece : Octets) : String × String :=
  (text (piece.takeWhile (· != 0x3D)), text ((piece.dropWhile (· != 0x3D)).drop 1))

/-- All pairs in order. Empty pieces are no pairs. -/
def pairs (b : Octets) : List (String × String) :=
  ((pieces 0x26 b).filter (! ·.isEmpty)).map pair

example : pairs (Octets.ofText "a=%41+b&&c") = [("a", "A b"), ("c", "")] := by decide

end Fanout.Text.Form
