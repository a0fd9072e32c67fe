/-!
# Machine words

Lines, columns, offsets and lengths are 64-bit words. Plain `+` and `-` on them work modulo `2 ^ 64`;
the operations that must not wrap are here.

* `saturatingSucc` : the next word, the greatest word being its own successor (`toNat_saturatingSucc`);
* `checkedAdd` : the sum, if it is a word (`checkedAdd_eq_some_iff`);
* `checkedSub` : the difference, if it is not negative (`checkedSub_eq_some_iff`).
-/

namespace CanonicalText

def lastWord : UInt64 := 0xFFFFFFFFFFFFFFFF

/-- The next word; the greatest word stays. -/
def saturatingSucc (w : UInt64) : UInt64 := if w = lastWord then w else w + 1

/-- The sum of two words, unless it is too great for a word. -/
def checkedAdd (a b : UInt64) : Option UInt64 :=
  if a.toNat + b.toNat < UInt64.size then some (a + b) else none

def checkedSub (a b : UInt64) : Option UInt64 := if b ≤ a then some (a - b) else none

theorem toNat_lastWord : lastWord.toNat = UInt64.size - 1 := rfl

theorem toNat_saturatingSucc (w : UInt64) :
    (saturatingSucc w).toNat = min (w.toNat + 1) (UInt64.size - 1) := by
  have hw := w.toNat_lt_size
  unfold saturatingSucc
  split
  · next h => subst h; simp [toNat_lastWord]
  · next h =>
    have : w.toNat ≠ UInt64.size - 1 := fun e => h (UInt64.toNat_inj.1 (e.trans toNat_lastWord.symm))
    rw [UInt64.toNat_add, show (1 : UInt64).toNat = 1 from rfl]
    simp only [UInt64.size] at *
    omega

theorem saturatingSucc_of_lt {w : UInt64} (h : w.toNat + 1 < UInt64.size) : saturatingSucc w = w + 1 := by
  unfold saturatingSucc
  split
  · next hw =>
    rw [hw, toNat_lastWord] at h
    simp only [UInt64.size] at h
    omega
  · rfl

theorem toNat_add_of_lt {a b : UInt64} (h : a.toNat + b.toNat < UInt64.size) :
    (a + b).toNat = a.toNat + b.toNat := by
  rw [UInt64.toNat_add]
  exact Nat.mod_eq_of_lt h

theorem toNat_add_one_of_lt {w : UInt64} (h : w.toNat + 1 < UInt64.size) : (w + 1).toNat = w.toNat + 1 :=
  toNat_add_of_lt h

theorem checkedAdd_eq_some_iff {a b c : UInt64} :
    checkedAdd a b = some c ↔ a.toNat + b.toNat = c.toNat := by
  have hc := c.toNat_lt
  unfold checkedAdd
  split
  · next h =>
    rw [Option.some.injEq, ← UInt64.toNat_inj, UInt64.toNat_add, Nat.mod_eq_of_lt h]
  · next h => simp only [reduceCtorEq, false_iff, UInt64.size] at *; omega

theorem checkedSub_eq_some_iff {a b c : UInt64} :
    checkedSub a b = some c ↔ a.toNat = b.toNat + c.toNat := by
  have ha := a.toNat_lt
  have hb := b.toNat_lt
  have hc := c.toNat_lt
  unfold checkedSub
  split
  · next h =>
    rw [UInt64.le_iff_toNat_le] at h
    rw [Option.some.injEq, ← UInt64.toNat_inj, UInt64.toNat_sub_of_le _ _ (UInt64.le_iff_toNat_le.2 h)]
    omega
  · next h =>
    rw [UInt64.le_iff_toNat_le] at h
    simp only [reduceCtorEq, false_iff]; omega

end CanonicalText
