import CanonicalText.Word
import CanonicalText.Text.Decimal

/-!
# Positions

A position is a line and a column, both counted from zero over the canonical text, columns in
characters. Positions are ordered by line, then by column (`Position.le_iff`, `Position.lt_iff`).
-/

namespace CanonicalText

structure Position where
  line : UInt64
  column : UInt64
deriving DecidableEq

namespace Position

def origin : Position := ⟨0, 0⟩

instance : Inhabited Position := ⟨origin⟩

def nextColumn (p : Position) : Position := ⟨p.line, saturatingSucc p.column⟩

def nextLine (p : Position) : Position := ⟨saturatingSucc p.line, 0⟩

instance : LT Position := ⟨fun p q => p.line < q.line ∨ p.line = q.line ∧ p.column < q.column⟩

instance : LE Position := ⟨fun p q => p.line < q.line ∨ p.line = q.line ∧ p.column ≤ q.column⟩

instance (p q : Position) : Decidable (p < q) :=
  inferInstanceAs (Decidable (p.line < q.line ∨ p.line = q.line ∧ p.column < q.column))

instance (p q : Position) : Decidable (p ≤ q) :=
  inferInstanceAs (Decidable (p.line < q.line ∨ p.line = q.line ∧ p.column ≤ q.column))

theorem lt_iff {p q : Position} :
    p < q ↔ p.line < q.line ∨ p.line = q.line ∧ p.column < q.column := Iff.rfl

theorem le_iff {p q : Position} :
    p ≤ q ↔ p.line < q.line ∨ p.line = q.line ∧ p.column ≤ q.column := Iff.rfl

def compare (p q : Position) : Ordering := if p < q then .lt else if p = q then .eq else .gt

def earlier (p q : Position) : Position := if p ≤ q then p else q

def later (p q : Position) : Position := if p ≤ q then q else p

def display (p : Position) : Text := decimal p.line.toNat ++ ':' :: decimal p.column.toNat

def debug (p : Position) : Text :=
  "Position \x7b line: ".toList ++ decimal p.line.toNat ++ ", column: ".toList ++
    decimal p.column.toNat ++ " \x7d".toList

end Position

end CanonicalText
