import CanonicalText.Reader.Normalizer
import CanonicalText.Reader.Source

/-!
# Streams of canonical characters

A stream is a source with a normalizer behind it. It pulls no further than the item that is asked for
needs (`Stream.next`), and works on sources without an end.

* `next`, `skipTo`, `take` : one item, the one after so many others, and so many;
* `rest?` : all items before the next end, if there is one;
* `hint` : bounds on their number.
-/

namespace CanonicalText

/-- A source and the normalizer that its characters are fed to. -/
structure Stream (σ : Type) where
  source : σ
  machine : Normalizer

namespace Stream

variable {σ : Type} [Source σ]

def ofSource (source : σ) : Stream σ := ⟨source, .start⟩

/-- Where the next item will stand. -/
def position (s : Stream σ) : Position := s.machine.position

/-- Every two characters give at least one item, and no character gives two. -/
def hint (s : Stream σ) : SizeHint :=
  let h := Source.hint s.source
  ⟨h.lower / 2, h.upper⟩

/-- The next item, or `none` at an end of the source. A character that gives no item leaves the machine
in its normal state, in which every character gives one. -/
def next (s : Stream σ) : Option (Position × Char) × Stream σ :=
  match Source.pull s.source with
  | (none, source) => (none, ⟨source, s.machine⟩)
  | (some c, source) =>
    let fed := s.machine.feed c
    if _h : fed.1 = none then next ⟨source, fed.2⟩ else (fed.1, ⟨source, fed.2⟩)
termination_by if s.machine.state = .afterReturn then 1 else 0
decreasing_by
  rw [Normalizer.feed_of_none _h]
  simp [(Normalizer.feed_eq_none_iff.1 _h).1]

/-- The item after `n` others, or `none` if an end comes first. -/
def skipTo : Nat → Stream σ → Option (Position × Char) × Stream σ
  | 0, s => s.next
  | n + 1, s =>
    match s.next with
    | (none, s) => (none, s)
    | (some _, s) => skipTo n s

/-- The next `n` items, or those before the next end if they are fewer. -/
def take : Nat → Stream σ → List (Position × Char) × Stream σ
  | 0, s => ([], s)
  | n + 1, s =>
    match s.next with
    | (none, s) => ([], s)
    | (some item, s) => let r := take n s; (item :: r.1, r.2)

/-- The items before the next end, which is passed; `none` if there is no end. There are no more items
than characters. -/
def rest? (s : Stream σ) : Option (List (Position × Char) × Stream σ) :=
  (Source.remaining? s.source).map fun n => s.take (n + 1)

end Stream

end CanonicalText
