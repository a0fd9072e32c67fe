import Mathlib
import CanonicalText.Proofs.Location

/-!
# The stretch that covers two others

A location holds the positions from its start up to its stop. Two that hold some are told apart by these, so the
location that covers both, from the earlier start to the later stop, is the least that holds what they hold. The laws
of a join hold of all locations, but of one without positions its ends still count.

* `Location.positions` : what a location holds, as an interval of positions;
* `Location.positions_subset_iff` : when one location holds what another one does;
* `Location.positions_cover_subset_iff` : the cover is below what holds both;
* `Location.cover_is_least` : all laws of the cover.
-/

namespace CanonicalText.Location

variable {a b d : Location}

def positions (a : Location) : Set Position := Set.Ico a.start a.stop

theorem contains_iff {p : Position} : a.contains p = true ↔ p ∈ a.positions := by
  rw [contains, Bool.and_eq_true, decide_eq_true_iff, decide_eq_true_iff]
  exact Set.mem_Ico.symm

/-- What holds a position tells its ends: the start is held, and the stop is the first that is not. -/
theorem positions_subset_iff (ha : a.start < a.stop) :
    a.positions ⊆ d.positions ↔ d.start ≤ a.start ∧ a.stop ≤ d.stop :=
  Set.Ico_subset_Ico_iff ha

theorem start_cover (a b : Location) : (a.cover b).start = min a.start b.start :=
  Position.earlier_eq_min _ _

theorem stop_cover (a b : Location) : (a.cover b).stop = max a.stop b.stop :=
  Position.later_eq_max _ _

theorem eq_of_ends_eq (hstart : a.start = b.start) (hstop : a.stop = b.stop) : a = b := by
  cases a
  cases b
  exact (mk.injEq ..).mpr ⟨hstart, hstop⟩

theorem cover_comm (a b : Location) : a.cover b = b.cover a := by
  apply eq_of_ends_eq
  · rw [start_cover, start_cover, min_comm]
  · rw [stop_cover, stop_cover, max_comm]

theorem cover_assoc (a b c : Location) : (a.cover b).cover c = a.cover (b.cover c) := by
  apply eq_of_ends_eq
  · simp only [start_cover, min_assoc]
  · simp only [stop_cover, max_assoc]

theorem cover_self (a : Location) : a.cover a = a := by
  apply eq_of_ends_eq
  · rw [start_cover, min_self]
  · rw [stop_cover, max_self]

theorem positions_subset_cover (a b : Location) : a.positions ⊆ (a.cover b).positions := by
  apply Set.Ico_subset_Ico
  · rw [start_cover]
    exact min_le_left _ _
  · rw [stop_cover]
    exact le_max_left _ _

/-- **The cover is the least** that holds what both hold: its start is that of one of them, its stop that of one of
them, and these ends are forced. -/
theorem positions_cover_subset_iff (ha : a.start < a.stop) (hb : b.start < b.stop) :
    (a.cover b).positions ⊆ d.positions ↔ a.positions ⊆ d.positions ∧ b.positions ⊆ d.positions := by
  have hcover : (a.cover b).start < (a.cover b).stop := by
    rw [start_cover, stop_cover]
    exact (min_le_left _ _).trans_lt (ha.trans_le (le_max_left _ _))
  rw [positions_subset_iff hcover, positions_subset_iff ha, positions_subset_iff hb, start_cover, stop_cover,
    le_min_iff, max_le_iff]
  exact and_and_and_comm

/-- A point holds nothing, and still the cover reaches up to it. -/
theorem not_positions_cover_point_subset {p : Position} (hp : p < b.start) (hb : b.start < b.stop) :
    (point p).positions ⊆ b.positions ∧ ¬ ((point p).cover b).positions ⊆ b.positions := by
  have hcover : p ∈ ((point p).cover b).positions := by
    rw [positions, start_cover, stop_cover]
    exact ⟨min_le_left _ _, lt_max_of_lt_right (hp.trans hb)⟩
  refine ⟨?_, fun h => (h hcover).1.not_gt hp⟩
  rw [show (point p).positions = Set.Ico p p from rfl, Set.Ico_self]
  exact Set.empty_subset _

/-- **The cover joins two locations.** The order does not matter, and nothing is gained by covering twice, also with
locations in reverse. It contains what either of them contains; and whatever contains all that two locations contain
that run forward and are no points, contains all that their cover contains. -/
theorem cover_is_least :
    (∀ a b : Location, a.cover b = b.cover a) ∧
    (∀ a b c : Location, (a.cover b).cover c = a.cover (b.cover c)) ∧
    (∀ a : Location, a.cover a = a) ∧
    (∀ (a b : Location) (p : Position), a.contains p ∨ b.contains p → (a.cover b).contains p) ∧
    ∀ a b d : Location, a.start < a.stop → b.start < b.stop →
      (∀ p, a.contains p → d.contains p) → (∀ p, b.contains p → d.contains p) →
        ∀ p, (a.cover b).contains p → d.contains p := by
  simp only [contains_iff]
  refine ⟨cover_comm, cover_assoc, cover_self, fun a b p h => ?_, fun a b d ha hb had hbd => ?_⟩
  · rcases h with h | h
    · exact positions_subset_cover a b h
    · exact cover_comm b a ▸ positions_subset_cover b a h
  · exact (positions_cover_subset_iff ha hb).2 ⟨had, hbd⟩

/-- Two stretches with a gap in between, the first of which stops at the beginning of a line. -/
theorem cover_is_least_of_gap :
    let a : Location := ⟨⟨0, 5⟩, ⟨1, 0⟩⟩
    let b : Location := ⟨⟨3, 1⟩, ⟨3, 2⟩⟩
    let d : Location := ⟨⟨0, 2⟩, ⟨3, 2⟩⟩
    a.start < a.stop ∧ b.start < b.stop ∧ (∀ p, a.contains p → d.contains p) ∧ (∀ p, b.contains p → d.contains p) ∧
      ∀ p, (a.cover b).contains p → d.contains p := by
  intro a b d
  have ha : a.start < a.stop := by decide
  have hb : b.start < b.stop := by decide
  have had : ∀ p, a.contains p → d.contains p := by
    simp only [contains_iff]
    exact fun p hp => (positions_subset_iff ha).2 (by decide) hp
  have hbd : ∀ p, b.contains p → d.contains p := by
    simp only [contains_iff]
    exact fun p hp => (positions_subset_iff hb).2 (by decide) hp
  exact ⟨ha, hb, had, hbd, cover_is_least.2.2.2.2 a b d ha hb had hbd⟩

end CanonicalText.Location
