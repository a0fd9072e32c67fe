import CanonicalText.Fault

/-!
# Locations

A location is a stretch of the canonical text from one position up to another, which it does not
contain. `Location.spanning` refuses a stretch in reverse; the fields can still be filled in any order.
`Location.compare` orders locations by their ends; it is no total order.
-/

namespace CanonicalText

structure Location where
  start : Position
  stop : Position
deriving DecidableEq

namespace Location

/-- The stretch from `start` up to `stop`, unless that is in reverse. -/
def spanning (start stop : Position) : Except Fault Location :=
  if start ≤ stop then .ok ⟨start, stop⟩ else .error (.reversedLocation start stop)

def point (p : Position) : Location := ⟨p, p⟩

instance : Inhabited Location := ⟨point .origin⟩

def isPoint (a : Location) : Bool := a.start = a.stop

def contains (a : Location) (p : Position) : Bool := a.start ≤ p && p < a.stop

/-- The least stretch from the earlier start to the later stop. -/
def cover (a b : Location) : Location :=
  ⟨a.start.earlier b.start, a.stop.later b.stop⟩

/-- A point is equal to everything. Otherwise the location that both starts and stops no earlier is the
greater, the one that both starts and stops no later is the less, and of two nested locations the inner
is the less. -/
def compare (a b : Location) : Ordering :=
  if a.start = a.stop then .eq
  else if b.start ≤ a.start ∧ b.stop ≤ a.stop then .gt
  else if a.start ≤ b.start ∧ a.stop ≤ b.stop then .lt
  else if b.start ≤ a.start ∧ a.stop ≤ b.stop then .lt
  else if a.start ≤ b.start ∧ b.stop ≤ a.stop then .gt
  else .eq

def display (a : Location) : Text := a.start.display ++ "..".toList ++ a.stop.display

def debug (a : Location) : Text :=
  "Location \x7b from: ".toList ++ a.start.debug ++ ", to: ".toList ++ a.stop.debug ++
    " \x7d".toList

end Location

end CanonicalText
