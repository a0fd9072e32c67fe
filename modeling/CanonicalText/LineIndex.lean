import CanonicalText.Position

/-!
# Line index

`LineIndex.ofChars` notes where each line of a text starts; a line ends after its `\n`, and the last
line at the end of the text. `position?` turns an offset into a line and a column by halving the list
of line starts, `offset?` turns them back.
-/

namespace CanonicalText

/-- The offsets at which the lines of a text start, and the length of the text. -/
structure LineIndex where
  starts : Array UInt64
  length : UInt64

namespace LineIndex

/-- The index of a text that has been read up to here, one character later. -/
def push (index : LineIndex) (c : Char) : LineIndex :=
  let length := index.length + 1
  if c = '\n' then ⟨index.starts.push length, length⟩ else ⟨index.starts, length⟩

def empty : LineIndex := ⟨#[0], 0⟩

/-- The index of a text, every character but `\n` being an ordinary one. -/
def ofChars (text : Text) : LineIndex := text.foldl push empty

/-- How many lines there are, the last one included even if it is empty. -/
def lineCount (index : LineIndex) : UInt64 := UInt64.ofNat index.starts.size

def isEmpty (index : LineIndex) : Bool := index.length == 0

def lineStart? (index : LineIndex) (line : UInt64) : Option UInt64 := index.starts[line.toNat]?

/-- The last of the ascending `starts` from `low` on and before `high` that is at most `offset`, given
that `low` is one of them: the upper or the lower half is searched, as the middle one says. -/
def search (starts : Array UInt64) (offset : UInt64) (low high : Nat) : Nat :=
  if low + 1 < high then
    let middle := (low + high) / 2
    if starts.getD middle 0 ≤ offset then search starts offset middle high
    else search starts offset low middle
  else low
termination_by high - low

/-- The line and column of an offset; the end of the text is the end of the last line. -/
def position? (index : LineIndex) (offset : UInt64) : Option Position :=
  if index.length < offset then none
  else
    let line := search index.starts offset 0 index.starts.size
    some ⟨UInt64.ofNat line, offset - index.starts.getD line 0⟩

/-- The offset of a line and column, the place of the line's `\n` or of its end being the last one. -/
def offset? (index : LineIndex) (p : Position) : Option UInt64 := do
  let start ← index.lineStart? p.line
  let offset ← checkedAdd start p.column
  let limit := match index.lineStart? (p.line + 1) with
    | some next => next - 1
    | none => index.length
  if offset ≤ limit then some offset else none

end LineIndex

end CanonicalText
