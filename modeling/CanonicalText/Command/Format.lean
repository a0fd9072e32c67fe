import CanonicalText.Json.Coordinates
import CanonicalText.Text.Quoted
import CanonicalText.View.Buffer

/-!
# Output formats

Canonical characters and their positions are printed as plain text, as one row for each character, or as
a JSON document. Rows end with a line break and hold none: a character is shown in quotes or as its code
point.
-/

namespace CanonicalText

inductive OutputFormat where
  /-- The text itself, or rows of positions and characters in quotes. -/
  | human
  /-- A JSON document. -/
  | json
  /-- Rows of positions and code points. -/
  | machine
deriving DecidableEq

namespace OutputFormat

def names : List (String × OutputFormat) := [("human", human), ("json", json), ("machine", machine)]

def debug : OutputFormat → Text
  | human => "Human".toList
  | json => "Json".toList
  | machine => "Machine".toList

end OutputFormat

def humanRow (p : Position) (c : Char) : Text := p.display ++ ' ' :: quotedChar c

/-- The row of a code point, in at least four upper case hexadecimal digits. -/
def machineRow (p : Position) (c : Char) : Text :=
  p.display ++ ':' :: 'U' :: '+' :: zeroPadded 4 ((hexadecimal c.toNat).map Char.toUpper)

def rows (row : Position → Char → Text) (positions : List Position) (chars : Text) : Text :=
  (positions.zip chars).flatMap fun r => row r.1 r.2 ++ ['\n']

/-- The JSON document of a text, with the positions of its characters if they are wanted. -/
def document (withPositions : Bool) (positions : List Position) (chars : Text) : Json.Value :=
  .object (("text".toList, .text chars) ::
    if withPositions then [("positions".toList, .array (positions.map Position.toJson))] else [])

structure Formatter where
  format : OutputFormat
  withPositions : Bool

namespace Formatter

def render (f : Formatter) (positions : List Position) (chars : Text) : Text :=
  match f.format with
  | .human => if f.withPositions then rows humanRow positions chars else chars
  | .json => (document f.withPositions positions chars).pretty ++ ['\n']
  | .machine => rows machineRow positions chars

/-- What is printed for two buffers, which have to be of one length. -/
def printed (f : Formatter) (positions : Buffer Position) (chars : Buffer Char) :
    Except Fault Text :=
  if chars.length = positions.length then .ok (f.render positions.elements chars.elements)
  else .error (.unequalLengths chars.length positions.length)

end Formatter

end CanonicalText
