import CanonicalText.Word
import CanonicalText.Text.Decimal

/-!
# Indices

An index counts from the start of a view or back from its end. `Index.resolve?` turns it into an offset
from the start; only an index that reaches back over the start has none. An access that finds no element
fails with an `IndexError`, which keeps the index as it was given.
-/

namespace CanonicalText

inductive Index where
  /-- `i` elements after the first. -/
  | fromStart (i : UInt64)
  /-- `n` elements before the end; `fromEnd 0` is the end itself. -/
  | fromEnd (n : UInt64)
deriving DecidableEq

namespace Index

/-- The offset from the start in a sequence of the given length; it may lie past the end. -/
def resolve? (length : UInt64) : Index → Option UInt64
  | fromStart i => some i
  | fromEnd n => checkedSub length n

def display : Index → Text
  | fromStart i => decimal i.toNat
  | fromEnd n => '^' :: decimal n.toNat

def debug : Index → Text
  | fromStart i => "FromStart(".toList ++ decimal i.toNat ++ [')']
  | fromEnd n => "FromEnd(".toList ++ decimal n.toNat ++ [')']

end Index

structure IndexError where
  index : Index
  length : UInt64
deriving DecidableEq

namespace IndexError

def message (e : IndexError) : Text :=
  "index ".toList ++ e.index.display ++ " out of range for view of length ".toList ++
    decimal e.length.toNat

end IndexError

end CanonicalText
