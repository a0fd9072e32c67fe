import CanonicalText.SizeHint
import CanonicalText.View.Cursor
import CanonicalText.View.Element

/-!
# Sessions

A session holds a store, and the views and cursors made so far, numbered from zero. An operation makes a
view or a cursor, reads, writes, compares or shows; its answer says what came of it, and an operation
that fails leaves the session as it was.
-/

namespace CanonicalText

structure Session (α : Type) where
  store : Store α
  views : Array View
  cursors : Array Cursor

inductive Cursor.Call where
  | next
  | nextBack
  | nth (n : UInt64)
  | nthBack (n : UInt64)
  | length
  | hint
  | debug
  | rest
  | restBack
  | count
  | last

/-- One step of a session. Views and cursors go by their numbers. -/
inductive Operation (α : Type) where
  /-- A new storage of the items, all in view. -/
  | create (items : List α)
  /-- A new storage of the items of a JSON array, all in view. -/
  | decode (text : Text)
  | copy (v : Nat)
  | slice (v : Nat) (lower upper : Bound Index)
  | range (v : Nat) (lower upper : Bound UInt64)
  | sliceLength (v : Nat) (i : Index) (count : UInt64)
  | get (v : Nat) (i : Index)
  | tryGet (v : Nat) (i : Index)
  | canGet (v : Nat) (i : Index)
  | set (v : Nat) (i : Index) (x : α)
  | length (v : Nat)
  | isEmpty (v : Nat)
  | rawRange (v : Nat)
  | elements (v : Nat)
  | allElements
  | sharesStorage (v w : Nat)
  | equal (v w : Nat)
  | equalItems (v : Nat) (items : List α)
  | distinct (views : List Nat)
  | debug (v : Nat)
  | pretty (v : Nat)
  | encode (v : Nat)
  | walk (v : Nat)
  | advance (cursor : Nat) (call : Cursor.Call)

inductive Answer (α : Type) where
  /-- A view, with its number and its elements. -/
  | made (number : Nat) (view : View) (items : List α)
  | cursor (number : Nat)
  | element (x : α)
  | optional (x : Option α)
  | items (xs : List α)
  | allElements (xss : List (List α))
  | truth (b : Bool)
  | bothWays (forth back : Bool)
  | length (n : UInt64)
  | range (start stop : UInt64)
  | hint (h : SizeHint)
  | count (n : Nat)
  | text (t : Text)
  | indexError (e : IndexError)
  | fault (f : Fault)
  | jsonError (e : Json.Error)
  /-- There is no view or cursor of that number. -/
  | unknown
  /-- A body that read an element: the element at its beginning, its answers, the element at its end. -/
  | readElement (x : α) (answers : List (Answer α)) (after : Answer α)
  /-- A body that read all elements: its answers, and the elements at its end. -/
  | readElements (answers : List (Answer α)) (after : List α)

def Answer.fault? {α : Type} : Answer α → Option Fault
  | .fault f => some f
  | _ => none

def Answer.ofAccessError {α : Type} : AccessError → Answer α
  | .index e => .indexError e
  | .fault f => .fault f

def Answer.ofAccess {α : Type} : Except AccessError α → Answer α
  | .ok x => .element x
  | .error e => .ofAccessError e

namespace Cursor

variable {α : Type} [Element α]

def debugText (s : Store α) (c : Cursor) : Text :=
  "Iter \x7b view: ".toList ++ Element.debugList (s.elements c.view) ++ ", front: ".toList ++
    decimal c.front.toNat ++ ", back: ".toList ++ decimal c.back.toNat ++ " \x7d".toList

def perform (s : Store α) (c : Cursor) : Call → Answer α × Cursor
  | .next => let (x, c) := c.next s; (.optional x, c)
  | .nextBack => let (x, c) := c.nextBack s; (.optional x, c)
  | .nth n => let (x, c) := c.skipTo s n.toNat; (.optional x, c)
  | .nthBack n => let (x, c) := c.skipToBack s n.toNat; (.optional x, c)
  | .length => (.length c.length, c)
  | .hint => (.hint ⟨c.length, some c.length⟩, c)
  | .debug => (.text (c.debugText s), c)
  | .rest => let (xs, c) := c.rest s; (.items xs, c)
  | .restBack => let (xs, c) := c.restBack s; (.items xs, c)
  | .count => let (xs, c) := c.rest s; (.count xs.length, c)
  | .last => let (xs, c) := c.rest s; (.optional xs.getLast?, c)

end Cursor

namespace Session

variable {α : Type}

def empty : Session α := ⟨.empty, #[], #[]⟩

def addView (s : Session α) (view : View) : Answer α × Session α :=
  (.made s.views.size view (s.store.elements view), { s with views := s.views.push view })

def addViewOr (s : Session α) : Except Fault View → Answer α × Session α
  | .ok view => s.addView view
  | .error f => (.fault f, s)

/-- Adds a new storage and the view of all of it. -/
def create (s : Session α) (items : List α) : Answer α × Session α :=
  let (view, store) := s.store.allocate items.toArray
  { s with store }.addView view

def onView (s : Session α) (v : Nat) (f : View → Answer α × Session α) : Answer α × Session α :=
  match s.views[v]? with
  | some view => f view
  | none => (.unknown, s)

def ask (s : Session α) (v : Nat) (f : View → Answer α) : Answer α × Session α :=
  s.onView v fun view => (f view, s)

def allElements (s : Session α) : List (List α) := s.views.toList.map s.store.elements

variable [BEq α] [Element α]

def perform (s : Session α) : Operation α → Answer α × Session α
  | .create items => s.create items
  | .decode text =>
    match Json.decodeText (Json.array Element.ofJson) text with
    | .ok items => s.create items
    | .error e => (.jsonError e, s)
  | .copy v => s.onView v s.addView
  | .slice v lower upper => s.onView v fun view => s.addViewOr (view.slice lower upper)
  | .range v lower upper => s.onView v fun view => s.addViewOr (view.range lower upper)
  | .sliceLength v i count => s.onView v fun view => s.addViewOr (view.sliceLength i count)
  | .get v i => s.ask v fun view => .ofAccess (s.store.get view i)
  | .tryGet v i => s.ask v fun view => .optional (s.store.tryGet view i)
  | .canGet v i => s.ask v fun view => .truth (view.canGet i)
  | .set v i x => s.onView v fun view =>
    match s.store.set view i x with
    | .ok store => let s := { s with store }; (.allElements s.allElements, s)
    | .error e => (.ofAccessError e, s)
  | .length v => s.ask v fun view => .length view.length
  | .isEmpty v => s.ask v fun view => .truth view.isEmpty
  | .rawRange v => s.ask v fun view => .range view.start view.stop
  | .elements v => s.ask v fun view => .items (s.store.elements view)
  | .allElements => (.allElements s.allElements, s)
  | .sharesStorage v w => s.onView v fun a => s.ask w fun b => .truth (a.sharesStorage b)
  | .equal v w =>
    s.onView v fun a => s.ask w fun b => .bothWays (s.store.equal a b) (s.store.equal b a)
  | .equalItems v items => s.ask v fun view => .truth (s.store.showsOnly view items)
  | .distinct views => (.count (s.store.distinct (views.filterMap (s.views[·]?))), s)
  | .debug v => s.ask v fun view => .text (Element.debugList (s.store.elements view))
  | .pretty v => s.ask v fun view => .text (Element.prettyList (s.store.elements view))
  | .encode v => s.ask v fun view => .text (Element.encodeList (s.store.elements view))
  | .walk v => s.onView v fun view =>
    (.cursor s.cursors.size, { s with cursors := s.cursors.push (.ofView view) })
  | .advance k call =>
    match s.cursors[k]? with
    | none => (.unknown, s)
    | some c =>
      let (answer, c) := c.perform s.store call
      (answer, { s with cursors := s.cursors.setIfInBounds k c })

end Session

end CanonicalText
