import CanonicalText.View.Store

/-!
# Cursors

A cursor walks a view from both ends. It remembers which offsets are still ahead, `front` up to `back`,
and reads an element from the store when it comes to it, so that it sees what was written meanwhile.

* `next`, `nextBack` : the first and the last element still ahead;
* `skipTo`, `skipToBack` : the one after so many others;
* `rest`, `restBack` : all that are still ahead, from either side.
-/

namespace CanonicalText

/-- A walk over a view, and the offsets that are still ahead of it. -/
structure Cursor where
  view : View
  front : UInt64
  back : UInt64
deriving DecidableEq

namespace Cursor

variable {α : Type}

def ofView (v : View) : Cursor := ⟨v, 0, v.length⟩

def length (c : Cursor) : UInt64 := c.back - c.front

def next (s : Store α) (c : Cursor) : Option α × Cursor :=
  if c.front = c.back then (none, c)
  else (s.tryGet c.view (.fromStart c.front), { c with front := c.front + 1 })

def nextBack (s : Store α) (c : Cursor) : Option α × Cursor :=
  if c.front = c.back then (none, c)
  else (s.tryGet c.view (.fromStart (c.back - 1)), { c with back := c.back - 1 })

/-- The element after `n` others on a walk by `step`, or `none` if the walk ends before. -/
def skipToBy (step : Cursor → Option α × Cursor) : Nat → Cursor → Option α × Cursor
  | 0, c => step c
  | n + 1, c =>
    match step c with
    | (none, c) => (none, c)
    | (some _, c) => skipToBy step n c

/-- The elements that a walk by `step` meets before it ends, `n` at most. -/
def takeBy (step : Cursor → Option α × Cursor) : Nat → Cursor → List α × Cursor
  | 0, c => ([], c)
  | n + 1, c =>
    match step c with
    | (none, c) => ([], c)
    | (some x, c) => let r := takeBy step n c; (x :: r.1, r.2)

def skipTo (s : Store α) (n : Nat) (c : Cursor) : Option α × Cursor := skipToBy (next s) n c

def skipToBack (s : Store α) (n : Nat) (c : Cursor) : Option α × Cursor :=
  skipToBy (nextBack s) n c

def rest (s : Store α) (c : Cursor) : List α × Cursor := takeBy (next s) c.length.toNat c

def restBack (s : Store α) (c : Cursor) : List α × Cursor := takeBy (nextBack s) c.length.toNat c

end Cursor

end CanonicalText
