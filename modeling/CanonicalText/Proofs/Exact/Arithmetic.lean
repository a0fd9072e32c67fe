import Mathlib
import CanonicalText.Command.Run

/-!
# Arithmetics of numbers

Where lengths and offsets are natural numbers and not words, one has to say what a sum comes to that is too great for a
word, and what a difference below zero. An arithmetic says so; on all that words can express, it is exact. Three of them
matter: words wrap around (`Arithmetic.machine`), numbers have no upper end (`Arithmetic.unbounded`), and numbers that
stop where words do have no result instead (`Arithmetic.checked`).

* `Exact.Failure` : why there is no result, in numbers;
* `Exact.Arithmetic` : sums and differences, exact as long as they are words;
* `Exact.result`, `Exact.result_bind` : a result on words, told in numbers, and one that is made of others;
* `Exact.Arithmetic.filter_checkedAdd` : a checked sum of words that must not exceed another word.
-/

namespace CanonicalText

theorem filter_le_map_toNat (o : Option UInt64) (n : UInt64) :
    (o.map UInt64.toNat).filter (· ≤ n.toNat) = (o.filter (· ≤ n)).map UInt64.toNat := by
  simp only [Option.filter_map, Function.comp_def, UInt64.le_iff_toNat_le]

theorem filter_lt_map_toNat (o : Option UInt64) (n : UInt64) :
    (o.map UInt64.toNat).filter (· < n.toNat) = (o.filter (· < n)).map UInt64.toNat := by
  simp only [Option.filter_map, Function.comp_def, UInt64.lt_iff_toNat_lt]

namespace Exact

inductive Index where
  | fromStart (i : Nat)
  | fromEnd (n : Nat)
deriving DecidableEq

/-- Why there is no result: an arithmetic has none, or an operation refuses what it is asked for. -/
inductive Failure where
  /-- A sum or a difference does not exist. -/
  | noNumber
  | boundOutOfRange (index : Index) (length : Nat)
  | rangeOutOfRange (first last length : Nat)
  | extentOutOfRange (count first length : Nat)
  | storageBeingRead (index : Index)
  | reversedView (start stop : Nat)
  | outsideStorage (offset : Nat)
  | noElement (index : Index) (length : Nat)
  /-- A line has no start among those of an index. -/
  | noStart (line : Nat)
  | lineOutOfRange (line lineCount : Nat)
  /-- Anything else that breaks off a run. -/
  | other (halt : Halt)
deriving DecidableEq

/-- Sums and differences of numbers. As long as operands and results are words they are exact; beyond that they may be
anything, apart from a checked sum, which is exact or missing. -/
structure Arithmetic where
  add : Nat → Nat → Except Failure Nat
  sub : Nat → Nat → Except Failure Nat
  checkedAdd : Nat → Nat → Option Nat
  add_eq {a b : Nat} : a + b < UInt64.size → add a b = .ok (a + b)
  sub_eq {a b : Nat} : b ≤ a → a < UInt64.size → sub a b = .ok (a - b)
  checkedAdd_eq {a b : Nat} : a + b < UInt64.size → checkedAdd a b = some (a + b)
  eq_add_of_checkedAdd {a b c : Nat} : checkedAdd a b = some c → c = a + b

namespace Arithmetic

/-- Sums and differences modulo `2 ^ 64`. -/
def machine : Arithmetic where
  add a b := .ok ((a + b) % UInt64.size)
  sub a b := .ok ((UInt64.size - b % UInt64.size + a) % UInt64.size)
  checkedAdd a b := if a + b < UInt64.size then some (a + b) else none
  add_eq h := by rw [Nat.mod_eq_of_lt h]
  sub_eq {a b} hle ha := by
    have hb : b % UInt64.size = b := Nat.mod_eq_of_lt (hle.trans_lt ha)
    have hsum : UInt64.size - b + a = a - b + UInt64.size := by omega
    rw [hb, hsum, Nat.add_mod_right, Nat.mod_eq_of_lt ((Nat.sub_le a b).trans_lt ha)]
  checkedAdd_eq h := if_pos h
  eq_add_of_checkedAdd h := by
    rw [Option.ite_none_right_eq_some] at h
    exact (Option.some.inj h.2).symm

/-- Numbers without an upper end. No difference is below zero. -/
def unbounded : Arithmetic where
  add a b := .ok (a + b)
  sub a b := if b ≤ a then .ok (a - b) else .error .noNumber
  checkedAdd a b := some (a + b)
  add_eq _ := rfl
  sub_eq hle _ := if_pos hle
  checkedAdd_eq _ := rfl
  eq_add_of_checkedAdd h := (Option.some.inj h).symm

/-- Numbers up to the last word. No sum is greater, and no difference is below zero. -/
def checked : Arithmetic where
  add a b := if a + b < UInt64.size then .ok (a + b) else .error .noNumber
  sub a b := if b ≤ a then .ok (a - b) else .error .noNumber
  checkedAdd a b := if a + b < UInt64.size then some (a + b) else none
  add_eq h := if_pos h
  sub_eq hle _ := if_pos hle
  checkedAdd_eq h := if_pos h
  eq_add_of_checkedAdd h := by
    rw [Option.ite_none_right_eq_some] at h
    exact (Option.some.inj h.2).symm

/-- The arithmetic of the machine is that of words. -/
theorem machine_eq (a b : UInt64) :
    machine.add a.toNat b.toNat = .ok (a + b).toNat ∧ machine.sub a.toNat b.toNat = .ok (a - b).toNat ∧
      machine.checkedAdd a.toNat b.toNat = (CanonicalText.checkedAdd a b).map UInt64.toNat := by
  refine ⟨?_, ?_, ?_⟩
  · rw [UInt64.toNat_add]
    rfl
  · show Except.ok ((UInt64.size - b.toNat % UInt64.size + a.toNat) % UInt64.size) = _
    rw [UInt64.toNat_sub, Nat.mod_eq_of_lt b.toNat_lt_size]
  · show (if a.toNat + b.toNat < UInt64.size then some (a.toNat + b.toNat) else none) = _
    unfold CanonicalText.checkedAdd
    split
    · next h => rw [Option.map_some, toNat_add_of_lt h]
    · rfl

variable (ar : Arithmetic)

theorem add_toNat {a b c : UInt64} (h : a.toNat + b.toNat = c.toNat) : ar.add a.toNat b.toNat = .ok c.toNat := by
  rw [ar.add_eq (h ▸ c.toNat_lt_size), h]

theorem sub_toNat {a b : UInt64} (h : b ≤ a) : ar.sub a.toNat b.toNat = .ok (a - b).toNat := by
  rw [ar.sub_eq (UInt64.le_iff_toNat_le.1 h) a.toNat_lt_size, UInt64.toNat_sub_of_le _ _ h]

/-- **A checked sum** is the one of words if that is a word, and is missing or no word otherwise. -/
theorem checkedAdd_cases (a b : UInt64) :
    (∃ c, CanonicalText.checkedAdd a b = some c ∧ ar.checkedAdd a.toNat b.toNat = some c.toNat) ∨
      CanonicalText.checkedAdd a b = none ∧ ∀ c, ar.checkedAdd a.toNat b.toNat = some c → UInt64.size ≤ c := by
  unfold CanonicalText.checkedAdd
  split
  · next h => exact .inl ⟨_, rfl, by rw [ar.checkedAdd_eq h, toNat_add_of_lt h]⟩
  · next h => exact .inr ⟨rfl, fun c hc => ar.eq_add_of_checkedAdd hc ▸ Nat.not_lt.1 h⟩

theorem filter_checkedAdd (a b n : UInt64) :
    (ar.checkedAdd a.toNat b.toNat).filter (· ≤ n.toNat) =
      ((CanonicalText.checkedAdd a b).filter (· ≤ n)).map UInt64.toNat := by
  rcases ar.checkedAdd_cases a b with ⟨c, hc, hsum⟩ | ⟨hnone, hgreat⟩
  · rw [hc, hsum, ← filter_le_map_toNat, Option.map_some]
  · rw [hnone, Option.filter_none, Option.map_none, Option.filter_eq_none_iff]
    intro c hc hle
    have := hgreat c hc
    have := n.toNat_lt_size
    rw [decide_eq_true_eq] at hle
    omega

end Arithmetic

end Exact

/-! ## Results in numbers -/

def Index.exact : Index → Exact.Index
  | fromStart i => .fromStart i.toNat
  | fromEnd n => .fromEnd n.toNat

def Fault.exact : Fault → Exact.Failure
  | boundOutOfRange i length => .boundOutOfRange i.exact length.toNat
  | rangeOutOfRange first last length => .rangeOutOfRange first.toNat last.toNat length.toNat
  | extentOutOfRange count first length => .extentOutOfRange count.toNat first.toNat length.toNat
  | storageBeingRead i => .storageBeingRead i.exact
  | reversedView start stop => .reversedView start.toNat stop.toNat
  | outsideStorage offset => .outsideStorage offset.toNat
  | f => .other (.fault f)

namespace Exact

class Fails (ε : Type) where
  failure : ε → Failure

instance : Fails Fault := ⟨Fault.exact⟩

instance : Fails AccessError where
  failure
    | .index e => .noElement e.index.exact e.length.toNat
    | .fault f => f.exact

instance : Fails Halt where
  failure
    | .error (.lineOutOfRange line lineCount) => .lineOutOfRange line.toNat lineCount.toNat
    | .error e => .other (.error e)
    | .fault f => f.exact

variable {ε α β γ δ : Type} [Fails ε]

/-- A result on words, told in numbers. -/
def result (f : α → β) : Except ε α → Except Failure β
  | .ok x => .ok (f x)
  | .error e => .error (Fails.failure e)

/-- What is made of a result is told in numbers if the result is, and what comes after it. -/
theorem result_bind {f : α → β} {g : γ → δ} {x : Except ε α} {h : α → Except ε γ} {k : β → Except Failure δ}
    (hk : ∀ a, x = .ok a → k (f a) = result g (h a)) : (result f x >>= k) = result g (x >>= h) := by
  cases x with
  | error e => rfl
  | ok a => exact hk a rfl

end Exact

end CanonicalText
