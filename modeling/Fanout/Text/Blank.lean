/-!
White space of any script, and the text without it at both ends.
-/

namespace Fanout.Text

/-- A character with the White_Space property; there are twenty-five. -/
def isBlank (c : Char) : Bool :=
  let n := c.toNat
  (0x09 ≤ n && n ≤ 0x0D) || n == 0x20 || n == 0x85 || n == 0xA0 || n == 0x1680 ||
    (0x2000 ≤ n && n ≤ 0x200A) || n == 0x2028 || n == 0x2029 || n == 0x202F || n == 0x205F ||
    n == 0x3000

def trimmed (l : List Char) : List Char :=
  ((l.dropWhile isBlank).reverse.dropWhile isBlank).reverse

def trim (s : String) : String := String.ofList (trimmed s.toList)

/-- An ASCII capital becomes the small letter. -/
def lowerAscii (s : String) : String := s.map Char.toLower

end Fanout.Text
