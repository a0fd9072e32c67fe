import CanonicalText.View.Basic

/-!
# Stores

A store holds numbered storages of fixed length, and notes which of them are being read by a body that
is still running. Views of one storage are windows on the same elements: what is written through one is
read through all.

* `Store.allocate` : a new storage, with a view of all of it;
* `Store.get`, `Store.elements` : what a view shows;
* `Store.set` : writes one element, unless its storage is being read;
* `Store.equal`, `Store.showsOnly`, `Store.hashSet` : views compared as sequences;
* `Store.enter`, `Store.leave` : a body begins and ends reading.
-/

namespace CanonicalText

/-- Storages by number, and the numbers of those that are being read, once for each reading body, the newest
first. -/
structure Store (α : Type) where
  storages : Array (Array α)
  reading : List Nat

inductive AccessError where
  | index (e : IndexError)
  | fault (f : Fault)
deriving DecidableEq

/-- Elements in order and how many there are: what views, and lists of items, are compared as. -/
structure Sequence (α : Type) where
  length : UInt64
  elements : List α

namespace Sequence

variable {α : Type}

def ofList (items : List α) : Sequence α := ⟨UInt64.ofNat items.length, items⟩

/-- Lengths are compared first, and the elements of sequences of one length in order. -/
def equal [BEq α] (a b : Sequence α) : Bool := a.length == b.length && a.elements == b.elements

end Sequence

namespace Store

variable {α : Type}

def empty : Store α := ⟨#[], []⟩

/-- Adds a storage of the given elements; the view shows all of them. -/
def allocate (s : Store α) (items : Array α) : View × Store α :=
  (⟨s.storages.size, 0, UInt64.ofNat items.size⟩, { s with storages := s.storages.push items })

def storage (s : Store α) (number : Nat) : Array α := s.storages.getD number #[]

def elements (s : Store α) (v : View) : List α :=
  ((s.storage v.storage).extract v.start.toNat v.stop.toNat).toList

def get (s : Store α) (v : View) (i : Index) : Except AccessError α :=
  match v.position? i with
  | none => .error (.index ⟨i, v.length⟩)
  | some p =>
    match (s.storage v.storage)[(v.start + p).toNat]? with
    | some x => .ok x
    | none => .error (.fault (.outsideStorage (v.start + p)))

def tryGet (s : Store α) (v : View) (i : Index) : Option α := (s.get v i).toOption

def isBeingRead (s : Store α) (number : Nat) : Bool := s.reading.contains number

def enter (s : Store α) (number : Nat) : Store α := { s with reading := number :: s.reading }

/-- Takes the newest entry of a number out of entries that have the newest first. The newest of all moves to
its place. -/
def release (number : Nat) : List Nat → List Nat
  | [] => []
  | newest :: older =>
    if newest = number then older
    else if older.contains number then older.replace number newest
    else newest :: older

def leave (s : Store α) (number : Nat) : Store α := { s with reading := release number s.reading }

/-- Writes the element that an index finds. That there is one is looked at first, whether the storage is
being read after that. -/
def set (s : Store α) (v : View) (i : Index) (x : α) : Except AccessError (Store α) :=
  match v.position? i with
  | none => .error (.index ⟨i, v.length⟩)
  | some p =>
    if s.isBeingRead v.storage then .error (.fault (.storageBeingRead i))
    else
      let cells := s.storage v.storage
      let offset := (v.start + p).toNat
      if offset < cells.size then
        .ok { s with storages := s.storages.setIfInBounds v.storage (cells.setIfInBounds offset x) }
      else .error (.fault (.outsideStorage (v.start + p)))

def sequence (s : Store α) (v : View) : Sequence α := ⟨v.length, s.elements v⟩

def equal [BEq α] (s : Store α) (v w : View) : Bool := (s.sequence v).equal (s.sequence w)

def showsOnly [BEq α] (s : Store α) (v : View) (items : List α) : Bool := (s.sequence v).equal (.ofList items)

/-- Puts a view into a hash set, where `hash` is what lists of elements hash to. It is kept unless one of the same
hash is there that is equal to it. -/
def insertView [BEq α] (s : Store α) (hash : List α → UInt64) (kept : List View) (v : View) : List View :=
  if kept.any fun w => hash (s.elements w) == hash (s.elements v) && s.equal w v then kept else kept ++ [v]

def hashSet [BEq α] (s : Store α) (hash : List α → UInt64) (views : List View) : List View :=
  views.foldl (s.insertView hash) []

/-- How many different element sequences the views show: as many as a hash set keeps of them. It keeps as many
whatever the hashes are, so one hash does for all lists. -/
def distinct [BEq α] (s : Store α) (views : List View) : Nat := (s.hashSet (fun _ => 0) views).length

end Store

end CanonicalText
