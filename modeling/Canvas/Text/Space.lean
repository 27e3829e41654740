/-!
# White space

The characters with the property White_Space. They are dropped around settings and between the parts
of a written time.
-/

namespace Canvas.Text

/-- Whether a character is white space. -/
def isSpace (c : Char) : Bool :=
  let n := c.toNat
  (9 ≤ n && n ≤ 13) || n = 0x20 || n = 0x85 || n = 0xA0 || n = 0x1680 ||
    (0x2000 ≤ n && n ≤ 0x200A) || n = 0x2028 || n = 0x2029 || n = 0x202F || n = 0x205F || n = 0x3000

/-- The text behind leading white space. -/
def dropSpace (cs : List Char) : List Char := cs.dropWhile isSpace

/-- The text without white space around it. -/
def trim (cs : List Char) : List Char := (dropSpace (dropSpace cs).reverse).reverse

end Canvas.Text
