import CanonicalText.SizeHint
import CanonicalText.Text.Decimal
import CanonicalText.Word

/-!
# Character sources

A source is pulled for one character at a time and may give none; a source that has given none can
still give characters when it is pulled again. `Chunks` gives none after each of its chunks, `Cycle`
repeats a text for ever, and a `Feed` is one of the two.
-/

namespace CanonicalText

class Source (σ : Type) where
  /-- The next character, or `none` at an end, and the source after it. -/
  pull : σ → Option Char × σ
  /-- What the source says of the number of characters before its next end. -/
  hint : σ → SizeHint
  /-- How many characters come before the next end, or `none` if there is no end. -/
  remaining? : σ → Option Nat

/-- Texts to be given one after the other, with an end after each. -/
structure Chunks where
  current : Text
  later : List Text

namespace Chunks

def ofList : List Text → Chunks
  | [] => ⟨[], []⟩
  | chunk :: later => ⟨chunk, later⟩

/-- At the end of a chunk nothing is given and the next chunk, if any, becomes the current one. -/
def pull (s : Chunks) : Option Char × Chunks :=
  match s.current, s.later with
  | c :: current, later => (some c, ⟨current, later⟩)
  | [], chunk :: later => (none, ⟨chunk, later⟩)
  | [], [] => (none, s)

def hint (s : Chunks) : SizeHint :=
  ⟨UInt64.ofNat s.current.length, some (UInt64.ofNat s.current.length)⟩

instance : Source Chunks := ⟨pull, hint, fun s => some s.current.length⟩

end Chunks

/-- A text to be given over and over: all of it, and what is left of this round. -/
structure Cycle where
  text : Text
  left : Text

namespace Cycle

def ofText (text : Text) : Cycle := ⟨text, text⟩

def pull (s : Cycle) : Option Char × Cycle :=
  match s.left, s.text with
  | c :: left, _ => (some c, ⟨s.text, left⟩)
  | [], c :: rest => (some c, ⟨s.text, rest⟩)
  | [], [] => (none, s)

def hint (s : Cycle) : SizeHint :=
  if s.text = [] then ⟨0, some 0⟩ else ⟨lastWord, none⟩

instance : Source Cycle := ⟨pull, hint, fun s => if s.text = [] then some s.left.length else none⟩

end Cycle

inductive Feed where
  | chunks (s : Chunks)
  | cycle (s : Cycle)

namespace Feed

instance : Source Feed where
  pull
    | chunks s => let r := Source.pull s; (r.1, chunks r.2)
    | cycle s => let r := Source.pull s; (r.1, cycle r.2)
  hint
    | chunks s => Source.hint s
    | cycle s => Source.hint s
  remaining?
    | chunks s => Source.remaining? s
    | cycle s => Source.remaining? s

end Feed

end CanonicalText
