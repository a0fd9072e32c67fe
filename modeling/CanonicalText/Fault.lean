import CanonicalText.Position
import CanonicalText.View.Index

/-!
# Faults

A fault is a broken precondition: the caller asked for something that the operation does not allow. Each
constructor is one cause; `Fault.message` words it.
-/

namespace CanonicalText

inductive Fault where
  /-- A slice bound lies outside the view. -/
  | boundOutOfRange (index : Index) (length : UInt64)
  /-- The bounds of a slice are in reverse or run past the view. -/
  | rangeOutOfRange (first last length : UInt64)
  /-- So many elements from that place on run past the view. -/
  | extentOutOfRange (count first length : UInt64)
  /-- The storage to be written is being read. -/
  | storageBeingRead (index : Index)
  /-- A view would end before it starts. -/
  | reversedView (start stop : UInt64)
  /-- An element was sought outside its storage. -/
  | outsideStorage (offset : UInt64)
  /-- A location would end before it starts. -/
  | reversedLocation (start stop : Position)
  /-- Two views that belong together differ in length. -/
  | unequalLengths (left right : UInt64)
  /-- A text is to be cut inside one of its characters. -/
  | insideCharacter (offset : Nat)
deriving DecidableEq

namespace Fault

def message : Fault → Text
  | boundOutOfRange i n =>
    "slice bound ".toList ++ i.display ++ " out of range for view of length ".toList ++
      decimal n.toNat
  | rangeOutOfRange a b n =>
    "slice ".toList ++ decimal a.toNat ++ "..".toList ++ decimal b.toNat ++
      " out of range for view of length ".toList ++ decimal n.toNat
  | extentOutOfRange k a n =>
    "slice of ".toList ++ decimal k.toNat ++ " at ".toList ++ decimal a.toNat ++
      " out of range for view of length ".toList ++ decimal n.toNat
  | storageBeingRead i =>
    "cannot set index ".toList ++ i.display ++
      " while the same storage is being read on this thread".toList
  | reversedView a b =>
    "view starts at ".toList ++ decimal a.toNat ++ " but ends at ".toList ++ decimal b.toNat
  | outsideStorage p => "no element at offset ".toList ++ decimal p.toNat ++ " of the storage".toList
  | reversedLocation p q =>
    "location starts at ".toList ++ p.display ++ " but ends at ".toList ++ q.display
  | unequalLengths m n =>
    "views of lengths ".toList ++ decimal m.toNat ++ " and ".toList ++ decimal n.toNat ++
      " do not belong together".toList
  | insideCharacter n => "byte ".toList ++ decimal n ++ " is inside a character".toList

end Fault

end CanonicalText
