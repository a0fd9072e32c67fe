import CanonicalText.Text.Decimal
import CanonicalText.Text.Ranges

/-!
# White space

`isWhitespace` accepts the characters that Unicode counts as white space, and `trim` takes them off both
ends of a text.
-/

namespace CanonicalText

/-- The code points of white space, from first to last of each stretch. -/
def whitespaceRanges : List (Nat × Nat) :=
  [(0x9, 0xd), (0x20, 0x20), (0x85, 0x85), (0xa0, 0xa0), (0x1680, 0x1680), (0x2000, 0x200a),
   (0x2028, 0x2029), (0x202f, 0x202f), (0x205f, 0x205f), (0x3000, 0x3000)]

def isWhitespace (c : Char) : Bool := inRanges whitespaceRanges c.toNat

def trim (t : Text) : Text :=
  ((t.dropWhile isWhitespace).reverse.dropWhile isWhitespace).reverse

end CanonicalText
