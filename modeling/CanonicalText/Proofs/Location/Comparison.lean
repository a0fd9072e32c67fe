import Mathlib
import CanonicalText.Proofs.Location

/-!
# Locations compared

Locations are compared by the four ways in which two stretches can lie to each other. For all that are no points
this is an order by one key, the stop and then the start, so it is total and linear although stretches overlap and
nest. A point is equal to everything.

* `Location.compare_eq_ite` : the tests come to one comparison of keys;
* `Location.compare_orders_by_stop` : the order that follows.
-/

namespace CanonicalText.Location

variable {a b : Location}

def key (a : Location) : Position ×ₗ Position := toLex (a.stop, a.start)

theorem key_lt_iff : a.key < b.key ↔ a.stop < b.stop ∨ a.stop = b.stop ∧ a.start < b.start :=
  Prod.Lex.toLex_lt_toLex

theorem key_injective : Function.Injective key := by
  rintro ⟨start, stop⟩ ⟨start', stop'⟩ h
  obtain ⟨hstop, hstart⟩ := Prod.mk.inj (toLex.injective h)
  exact (mk.injEq ..).mpr ⟨hstart, hstop⟩

/-- **The four tests are one comparison**: the later stop is the greater, and of two that stop together the one
with the later start. -/
theorem compare_eq_ite (a b : Location) :
    a.compare b = if a.start = a.stop then .eq else if a.key < b.key then .lt else .gt := by
  unfold compare
  by_cases hpoint : a.start = a.stop
  · rw [if_pos hpoint, if_pos hpoint]
  rw [if_neg hpoint, if_neg hpoint]
  rcases lt_trichotomy a.stop b.stop with hstop | hstop | hstop
  · have hkey : a.key < b.key := key_lt_iff.2 (.inl hstop)
    rw [if_pos hkey, if_neg fun h => hstop.not_ge h.2]
    -- a stretch that stops before the other one is less, wherever it starts
    rcases le_or_gt a.start b.start with hstart | hstart
    · rw [if_pos ⟨hstart, hstop.le⟩]
    · rw [if_neg fun h => hstart.not_ge h.1, if_pos ⟨hstart.le, hstop.le⟩]
  · rcases lt_or_ge a.start b.start with hstart | hstart
    · have hkey : a.key < b.key := key_lt_iff.2 (.inr ⟨hstop, hstart⟩)
      rw [if_pos hkey, if_neg fun h => hstart.not_ge h.1, if_pos ⟨hstart.le, hstop.le⟩]
    · have hkey : ¬ a.key < b.key := by
        rw [key_lt_iff, not_or]
        exact ⟨hstop.not_lt, fun h => hstart.not_gt h.2⟩
      rw [if_neg hkey, if_pos ⟨hstart, hstop.ge⟩]
  · have hkey : ¬ a.key < b.key := by
      rw [key_lt_iff, not_or]
      exact ⟨hstop.not_gt, fun h => hstop.ne' h.1⟩
    rw [if_neg hkey]
    rcases le_or_gt b.start a.start with hstart | hstart
    · rw [if_pos ⟨hstart, hstop.le⟩]
    · rw [if_neg fun h => hstart.not_ge h.1, if_neg fun h => hstop.not_ge h.2,
        if_neg fun h => hstop.not_ge h.2, if_pos ⟨hstart.le, hstop.le⟩]

theorem compare_eq_eq_iff : a.compare b = .eq ↔ a.start = a.stop := by
  rw [compare_eq_ite]
  split_ifs <;> simp_all

theorem compare_eq_lt_iff (ha : a.start ≠ a.stop) : a.compare b = .lt ↔ a.key < b.key := by
  rw [compare_eq_ite, if_neg ha]
  split_ifs <;> simp_all

theorem compare_eq_gt_iff (ha : a.start ≠ a.stop) : a.compare b = .gt ↔ ¬ a.key < b.key := by
  rw [compare_eq_ite, if_neg ha]
  split_ifs <;> simp_all

/-- On locations that are no points, being less is a linear order. -/
theorem isStrictTotalOrder_compare :
    IsStrictTotalOrder {a : Location // a.start ≠ a.stop} fun a b => a.1.compare b.1 = .lt where
  irrefl a := by
    rw [compare_eq_lt_iff a.2]
    exact lt_irrefl _
  trans a b c hab hbc := by
    rw [compare_eq_lt_iff] at *
    exacts [hab.trans hbc, a.2, b.2, a.2]
  trichotomous a b hab hba := by
    rw [compare_eq_lt_iff a.2] at hab
    rw [compare_eq_lt_iff b.2] at hba
    exact Subtype.ext (key_injective (le_antisymm (not_lt.1 hba) (not_lt.1 hab)))

/-- **Locations compare by stop, then by start.** A location is equal to another one just if it is a point itself.
Among the locations that are no points being less is a linear order, also if they overlap or nest. -/
theorem compare_orders_by_stop :
    (∀ a b : Location, a.compare b = .eq ↔ a.start = a.stop) ∧
    (∀ a b : Location, a.start ≠ a.stop →
      (a.compare b = .lt ↔ toLex (a.stop, a.start) < toLex (b.stop, b.start)) ∧
      (a.compare b = .gt ↔ ¬ toLex (a.stop, a.start) < toLex (b.stop, b.start))) ∧
    IsStrictTotalOrder {a : Location // a.start ≠ a.stop} (fun a b => a.1.compare b.1 = .lt) ∧
    ∀ a b : Location, a.start ≠ a.stop → b.start ≠ b.stop → a ≠ b →
      (a.compare b = .lt ∧ b.compare a = .gt) ∨ (a.compare b = .gt ∧ b.compare a = .lt) := by
  refine ⟨fun a b => compare_eq_eq_iff, fun a b ha => ⟨compare_eq_lt_iff ha, compare_eq_gt_iff ha⟩,
    isStrictTotalOrder_compare, fun a b ha hb hab => ?_⟩
  rw [compare_eq_lt_iff ha, compare_eq_lt_iff hb, compare_eq_gt_iff ha, compare_eq_gt_iff hb]
  rcases lt_or_gt_of_ne (key_injective.ne hab) with h | h
  · exact .inl ⟨h, h.not_gt⟩
  · exact .inr ⟨h.not_gt, h⟩

/-- Two stretches that overlap, one inside of the second, and one in reverse: all of them stand in one order by
their stops. A point outside of them is equal to each, but none of them is equal to it. -/
theorem compare_orders_by_stop_of_overlapping :
    let first : Location := ⟨⟨0, 0⟩, ⟨0, 4⟩⟩
    let second : Location := ⟨⟨0, 2⟩, ⟨1, 0⟩⟩
    let inside : Location := ⟨⟨0, 5⟩, ⟨1, 0⟩⟩
    let reversed : Location := ⟨⟨3, 0⟩, ⟨0, 4⟩⟩
    first.start ≠ first.stop ∧ first.compare second = .lt ∧ second.compare first = .gt ∧
      second.compare inside = .lt ∧ first.compare reversed = .lt ∧ reversed.compare second = .lt ∧
      first.compare first = .gt ∧ (point ⟨9, 9⟩).compare first = .eq ∧ first.compare (point ⟨0, 0⟩) = .gt := by
  intro first second inside reversed
  obtain ⟨hpoint, hkeys, horder, hone⟩ := compare_orders_by_stop
  have hfirst : first.start ≠ first.stop := by decide
  have hsecond : second.start ≠ second.stop := by decide
  have hreversed : reversed.start ≠ reversed.stop := by decide
  have hless : first.compare second = .lt := (hkeys first second hfirst).1.2 (by decide)
  have hmore : second.compare first = .gt := by
    rcases hone first second hfirst hsecond (by decide) with ⟨-, h⟩ | ⟨h, -⟩
    · exact h
    · rw [hless] at h
      cases h
  exact ⟨hfirst, hless, hmore, (hkeys second inside hsecond).1.2 (by decide),
    (hkeys first reversed hfirst).1.2 (by decide), (hkeys reversed second hreversed).1.2 (by decide),
    (hkeys first first hfirst).2.2 (by decide), (hpoint _ _).2 rfl, (hkeys first _ hfirst).2.2 (by decide)⟩

end CanonicalText.Location
