import CanonicalText.Command.World
import CanonicalText.Text.Bytes

/-!
# Trees of files

A tree says what stands under names, counted from the top on. A path is walked step by step. The walk stays
at `.` and goes up at `..`, at the top too; from a directory it goes on to what has the name of the step,
and on from a link to where that leads. From a file it goes nowhere, not even at a step that stays. A path
that is too long leads nowhere.

* `Tree.walk?` : where a path leads;
* `Tree.entry` : what is found there.
-/

namespace CanonicalText

inductive Node where
  | directory
  /-- A link to what stands under other names, no link itself. -/
  | link (names : List Text)
  | entry (e : Entry)

/-- What there is, under its names. What is on the way to it is a directory. -/
abbrev Tree := List (List Text × Node)

inductive Place where
  | directory (names : List Text)
  | entry (e : Entry)

def staysPut (step : Text) : Bool := step = [] ∨ step = ['.']

/-- The steps of a path, as far as they go on. -/
def namesOf (path : Text) : List Text := (path.splitOn '/').filter fun step => !staysPut step

/-- The greatest number of bytes of a path that leads anywhere. -/
def longestPath : Nat := 4095

namespace Tree

/-- What the names lead to, if no link is among them. -/
def unlinked? (tree : Tree) (names : List Text) : Option Place :=
  match tree.lookup names with
  | some (.entry e) => some (.entry e)
  | some .directory => some (.directory names)
  | some (.link _) => none
  | none => if tree.any fun r => names.isPrefixOf r.1 then some (.directory names) else none

/-- What the names lead to, of which the last one may be that of a link. -/
def place? (tree : Tree) (names : List Text) : Option Place :=
  match tree.lookup names with
  | some (.link target) => tree.unlinked? target
  | _ => tree.unlinked? names

def step? (tree : Tree) (place : Place) (step : Text) : Option Place :=
  match place with
  | .entry _ => none
  | .directory names =>
    if staysPut step then some (.directory names)
    else if step = ['.', '.'] then some (.directory names.dropLast)
    else tree.place? (names ++ [step])

/-- Where a path leads from a directory. One that begins with a slash starts at the top; the empty path
leads nowhere. -/
def walk? (tree : Tree) (start : List Text) (path : Text) : Option Place :=
  if longestPath < utf8Length path then none
  else
    match path with
    | [] => none
    | c :: _ => (path.splitOn '/').foldlM tree.step? (.directory (if c = '/' then [] else start))

def entry (tree : Tree) (start : List Text) (path : Text) : Entry :=
  match tree.walk? start path with
  | none => .missing
  | some (.directory _) => .unreadable
  | some (.entry e) => e

end Tree

end CanonicalText
