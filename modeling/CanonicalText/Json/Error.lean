import CanonicalText.Binary64.Shortest
import CanonicalText.Text.Quoted

/-!
# What can be wrong with a JSON text

A text may be malformed, or stop too early, or be well formed so far and hold something other than what
is wanted at that place. In the last case the `Mismatch` says what was found and what was expected, and
`Mismatch.message` words it.
-/

namespace CanonicalText.Json

/-- A JSON number: a natural number or a negative integer where that fits into 64 bits, and a floating
point number otherwise. -/
inductive Number where
  | natural (n : UInt64)
  | negative (n : Int64)
  | floating (x : Binary64)
deriving DecidableEq

inductive Found where
  | null
  | boolean (b : Bool)
  | number (n : Number)
  | text (t : Text)
  | array
  | object
deriving DecidableEq

/-- A type that a JSON value can be read as. -/
inductive Expected where
  | word
  | integer
  | floating
  | character
  | text
  | boolean
  | null
  | array
  | record (title : String)
  | recordOf (title : String) (fields : Nat)
deriving DecidableEq

/-- A well formed part of a JSON text that does not fit. -/
inductive Mismatch where
  | wrongType (found : Found) (expected : Expected)
  | wrongValue (found : Found) (expected : Expected)
  | wrongLength (length : Nat) (expected : Expected)
  | duplicateField (name : String)
  | missingField (name : String)
  | unknownField (name : Text) (known : List String)
  | unknownVariant (name : Text) (known : List String)
deriving DecidableEq

inductive Error where
  | mismatch (cause : Mismatch)
  | malformed
  | truncated
deriving DecidableEq

def accented (t : Text) : Text := '\x60' :: (t ++ ['\x60'])

def Number.describe : Number → Text
  | natural n => "integer ".toList ++ accented (decimal n.toNat)
  | negative n => "integer ".toList ++ accented (signedDecimal n.toInt)
  | floating x => "floating point ".toList ++ accented (x.text .json)

def Found.describe : Found → Text
  | null => "null".toList
  | boolean b => "boolean ".toList ++ accented (if b then "true".toList else "false".toList)
  | number n => n.describe
  | text t => "string ".toList ++ quotedText t
  | array => "sequence".toList
  | object => "map".toList

def Expected.describe : Expected → Text
  | word => "usize".toList
  | integer => "i64".toList
  | floating => "f64".toList
  | character => "a character".toList
  | text => "a string".toList
  | boolean => "a boolean".toList
  | null => "unit".toList
  | array => "a sequence".toList
  | record title => "struct ".toList ++ title.toList
  | recordOf title fields =>
    "struct ".toList ++ title.toList ++ " with ".toList ++ decimal fields ++
      (if fields = 1 then " element".toList else " elements".toList)

def choices : List String → Text
  | [] => []
  | [a] => accented a.toList
  | [a, b] => accented a.toList ++ " or ".toList ++ accented b.toList
  | names => "one of ".toList ++ ", ".toList.intercalate (names.map fun a => accented a.toList)

def Mismatch.message : Mismatch → Text
  | wrongType found expected =>
    "invalid type: ".toList ++ found.describe ++ ", expected ".toList ++ expected.describe
  | wrongValue found expected =>
    "invalid value: ".toList ++ found.describe ++ ", expected ".toList ++ expected.describe
  | wrongLength length expected =>
    "invalid length ".toList ++ decimal length ++ ", expected ".toList ++ expected.describe
  | duplicateField name => "duplicate field ".toList ++ accented name.toList
  | missingField name => "missing field ".toList ++ accented name.toList
  | unknownField name known =>
    "unknown field ".toList ++ accented name ++ ", expected ".toList ++ choices known
  | unknownVariant name known =>
    "unknown variant ".toList ++ accented name ++ ", expected ".toList ++ choices known

end CanonicalText.Json
