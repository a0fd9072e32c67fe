import CanonicalText.Json.Error

/-!
# Writing JSON texts

A `Value` is a JSON document. `Value.compact` writes it without blanks, `Value.pretty` with every item
and member on a line of its own, indented by two blanks for each bracket around it; an empty array or
object has no lines. Strings escape what JSON makes them escape and nothing else.
-/

namespace CanonicalText.Json

inductive Value where
  | null
  | boolean (b : Bool)
  | number (n : Number)
  | text (t : Text)
  | array (items : List Value)
  | object (members : List (Text × Value))

/-- A character inside a string: quotes, backslashes and control characters are escaped. -/
def writtenChar (c : Char) : Text :=
  if c = '"' then ['\\', '"']
  else if c = '\\' then ['\\', '\\']
  else if c = '\x08' then ['\\', 'b']
  else if c = '\x0c' then ['\\', 'f']
  else if c = '\n' then ['\\', 'n']
  else if c = '\r' then ['\\', 'r']
  else if c = '\t' then ['\\', 't']
  else if c < ' ' then '\\' :: 'u' :: zeroPadded 4 (hexadecimal c.toNat)
  else [c]

def writtenText (t : Text) : Text := '"' :: (t.flatMap writtenChar ++ ['"'])

/-- A number; what is not finite is written as `null`. -/
def Number.written : Number → Text
  | natural n => decimal n.toNat
  | negative n => signedDecimal n.toInt
  | floating x => if x.isNaN ∨ x.isInfinite then "null".toList else x.text .json

def commaSeparated (gap : Text) : List Text → Text
  | [] => []
  | [part] => part
  | part :: parts => part ++ ',' :: gap ++ commaSeparated gap parts

def enclosed (first last : Char) (parts : List Text) : Text :=
  first :: (commaSeparated [] parts ++ [last])

def enclosedLines (first last : Char) (depth : Nat) : List Text → Text
  | [] => [first, last]
  | parts =>
    let inner := '\n' :: List.replicate (2 * (depth + 1)) ' '
    first :: (inner ++ commaSeparated inner parts ++ '\n' :: List.replicate (2 * depth) ' ' ++ [last])

namespace Value

def writtenBoolean (b : Bool) : Text := if b then "true".toList else "false".toList

mutual

def compact : Value → Text
  | null => "null".toList
  | boolean b => writtenBoolean b
  | number n => n.written
  | text t => writtenText t
  | array items => enclosed '[' ']' (compactItems items)
  | object members => enclosed '\x7b' '\x7d' (compactMembers members)

def compactItems : List Value → List Text
  | [] => []
  | item :: items => item.compact :: compactItems items

def compactMembers : List (Text × Value) → List Text
  | [] => []
  | (name, value) :: members => (writtenText name ++ ':' :: value.compact) :: compactMembers members

end

mutual

/-- The document on lines, inside as many brackets as `depth` says. -/
def prettyAt (depth : Nat) : Value → Text
  | null => "null".toList
  | boolean b => writtenBoolean b
  | number n => n.written
  | text t => writtenText t
  | array items => enclosedLines '[' ']' depth (prettyItems (depth + 1) items)
  | object members => enclosedLines '\x7b' '\x7d' depth (prettyMembers (depth + 1) members)

def prettyItems (depth : Nat) : List Value → List Text
  | [] => []
  | item :: items => prettyAt depth item :: prettyItems depth items

def prettyMembers (depth : Nat) : List (Text × Value) → List Text
  | [] => []
  | (name, value) :: members =>
    (writtenText name ++ ':' :: ' ' :: prettyAt depth value) :: prettyMembers depth members

end

def pretty (v : Value) : Text := prettyAt 0 v

end Value

end CanonicalText.Json
