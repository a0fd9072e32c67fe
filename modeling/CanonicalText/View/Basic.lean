import CanonicalText.Fault

/-!
# Views

A view is a window on a numbered storage: the offsets from `start` up to `stop`. It holds no elements
itself, so a narrower view of the same storage is made from the offsets alone. Each way to narrow a view
refuses bounds outside of it.

* `View.position?` : where an index finds an element;
* `View.bound` : where an index may begin or end a slice;
* `View.slice`, `View.range`, `View.sliceLength` : the narrower views.
-/

namespace CanonicalText

/-- A window on a storage. -/
structure View where
  storage : Nat
  start : UInt64
  stop : UInt64
deriving DecidableEq

inductive Bound (ι : Type) where
  | unbounded
  | included (i : ι)
  | excluded (i : ι)
deriving DecidableEq

def Bound.map {ι κ : Type} (f : ι → κ) : Bound ι → Bound κ
  | unbounded => unbounded
  | included i => included (f i)
  | excluded i => excluded (f i)

namespace View

def length (v : View) : UInt64 := v.stop - v.start

def isEmpty (v : View) : Bool := v.start == v.stop

def sharesStorage (v w : View) : Bool := v.storage == w.storage

def position? (v : View) (i : Index) : Option UInt64 :=
  (i.resolve? v.length).filter (· < v.length)

def canGet (v : View) (i : Index) : Bool := (v.position? i).isSome

/-- The offset at which an index may bound a slice: that of an element, or the end. -/
def bound (v : View) (i : Index) : Except Fault UInt64 :=
  match (i.resolve? v.length).filter (· ≤ v.length) with
  | some p => .ok p
  | none => .error (.boundOutOfRange i v.length)

def ofOffsets (storage : Nat) (start stop : UInt64) : Except Fault View :=
  if start ≤ stop then .ok ⟨storage, start, stop⟩ else .error (.reversedView start stop)

def narrow (v : View) (first last : UInt64) : Except Fault View :=
  ofOffsets v.storage (v.start + first) (v.start + last)

/-- The first offset of a slice, as its lower bound says. -/
def firstOffset (v : View) : Bound Index → Except Fault UInt64
  | .unbounded => .ok 0
  | .included i => v.bound i
  | .excluded i => (v.bound i).map (· + 1)

/-- The offset after the last of a slice, as its upper bound says. -/
def endOffset (v : View) : Bound Index → Except Fault UInt64
  | .unbounded => .ok v.length
  | .included i => (v.bound i).map (· + 1)
  | .excluded i => v.bound i

/-- The part of a view between two bounds, of which the lower is looked at first. -/
def slice (v : View) (lower upper : Bound Index) : Except Fault View := do
  let first ← v.firstOffset lower
  let last ← v.endOffset upper
  if first ≤ last ∧ last ≤ v.length then v.narrow first last
  else .error (.rangeOutOfRange first last v.length)

/-- The part of a view between two bounds counted from its start. -/
def range (v : View) (lower upper : Bound UInt64) : Except Fault View :=
  v.slice (lower.map .fromStart) (upper.map .fromStart)

/-- The part of a view that starts at an index and has the given number of elements. -/
def sliceLength (v : View) (i : Index) (count : UInt64) : Except Fault View := do
  let first ← v.bound i
  match (checkedAdd first count).filter (· ≤ v.length) with
  | some last => v.narrow first last
  | none => .error (.extentOutOfRange count first v.length)

end View

end CanonicalText
