/-!
# Blanks at the ends of a text

Two notions of a blank meet in the node: the white space of Unicode, and the
wider one that also counts the four separator control characters. Codes and
prices are stripped by the wider notion, numbers in request bodies by the
narrower one.
-/

namespace Tradepost.Text

def isWhiteSpace (c : Char) : Bool :=
  let n := c.toNat
  (0x9 ≤ n && n ≤ 0xd) || n == 0x20 || n == 0x85 || n == 0xa0 || n == 0x1680
    || (0x2000 ≤ n && n ≤ 0x200a) || n == 0x2028 || n == 0x2029 || n == 0x202f
    || n == 0x205f || n == 0x3000

/-- White space, or one of the control characters that separate records. -/
def isBlank (c : Char) : Bool :=
  isWhiteSpace c || (0x1c ≤ c.toNat && c.toNat ≤ 0x1f)

def trimBoth (p : Char → Bool) (cs : List Char) : List Char :=
  ((cs.dropWhile p).reverse.dropWhile p).reverse

def strip (s : String) : String := String.ofList (trimBoth isBlank s.toList)

end Tradepost.Text
