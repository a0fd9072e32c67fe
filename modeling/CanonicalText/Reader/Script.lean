import CanonicalText.Reader.Stream

/-!
# Calls on numbered streams

A set of streams over feeds, numbered from zero, and the calls on one of them: to read on, to ask, to
copy it, or to drop the positions from what it gives.
-/

namespace CanonicalText

/-- A stream, and whether its items come with their positions. -/
structure Reader where
  stream : Stream Feed
  positioned : Bool

namespace Reader

def ofFeed (feed : Feed) : Reader := ⟨.ofSource feed, true⟩

inductive Call where
  | next
  | nth (n : UInt64)
  | take (n : UInt64)
  | rest
  | count
  | last
  | position
  | hint
  /-- From now on the stream gives characters only. -/
  | dropPositions

/-- A call on the stream of the given number, or a copy of it, which gets the next number. -/
inductive Step where
  | call (number : Nat) (call : Call)
  | fork (number : Nat)

inductive Item where
  | positioned (p : Position) (c : Char)
  | plain (c : Char)

inductive Answer where
  | item (item : Option Item)
  | items (items : List Item)
  | count (n : Nat)
  | position (p : Position)
  | hint (h : SizeHint)
  | forked (number : Nat)
  | done
  /-- The stream has no next end to read up to. -/
  | endless
  /-- There is no stream of that number. -/
  | unknown

def shown (r : Reader) (item : Position × Char) : Item :=
  if r.positioned then .positioned item.1 item.2 else .plain item.2

def drain (r : Reader) (answer : List (Position × Char) → Answer) : Answer × Reader :=
  match r.stream.rest? with
  | some (items, stream) => (answer items, { r with stream })
  | none => (.endless, r)

def perform (r : Reader) : Call → Answer × Reader
  | .next => let (item, stream) := r.stream.next; (.item (item.map r.shown), { r with stream })
  | .nth n =>
    let (item, stream) := r.stream.skipTo n.toNat; (.item (item.map r.shown), { r with stream })
  | .take n =>
    let (items, stream) := r.stream.take n.toNat; (.items (items.map r.shown), { r with stream })
  | .rest => r.drain fun items => .items (items.map r.shown)
  | .count => r.drain fun items => .count items.length
  | .last => r.drain fun items => .item (items.getLast?.map r.shown)
  | .position => (.position r.stream.position, r)
  | .hint => (.hint r.stream.hint, r)
  | .dropPositions => (.done, { r with positioned := false })

def step (readers : Array Reader) : Step → Answer × Array Reader
  | .call number c =>
    match readers[number]? with
    | none => (.unknown, readers)
    | some r => let (answer, r) := r.perform c; (answer, readers.setIfInBounds number r)
  | .fork number =>
    match readers[number]? with
    | none => (.unknown, readers)
    | some r => (.forked readers.size, readers.push r)

def run (readers : Array Reader) : List Step → List Answer
  | [] => []
  | s :: steps => let (answer, readers) := step readers s; answer :: run readers steps

end Reader

end CanonicalText
