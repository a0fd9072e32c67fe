import Mathlib.Order.Defs.LinearOrder
import Mathlib.Order.MinMax
import CanonicalText.Proofs.Json.RoundTrip

/-!
# Locations in order

Positions are in a linear order, and the stretch of a location should run forward in it. Every operation on
locations keeps that. The reader of JSON texts does not: it takes the two ends as they stand in the text, so
every location can be read, also one in reverse.

* `Position.earlier_eq_min`, `Position.later_eq_max` : the least and the greatest of two positions;
* `Location.Ordered` : a stretch that runs forward;
* `Location.Built` : the locations that the operations give;
* `Location.ordered_of_built_iff` : when all of these run forward.
-/

namespace CanonicalText

namespace Position

variable {p q r : Position}

theorem le_iff_toNat : p ≤ q ↔
    p.line.toNat < q.line.toNat ∨ p.line.toNat = q.line.toNat ∧ p.column.toNat ≤ q.column.toNat := by
  rw [le_iff, UInt64.lt_iff_toNat_lt, UInt64.le_iff_toNat_le, UInt64.toNat_inj]

theorem lt_iff_toNat : p < q ↔
    p.line.toNat < q.line.toNat ∨ p.line.toNat = q.line.toNat ∧ p.column.toNat < q.column.toNat := by
  rw [lt_iff, UInt64.lt_iff_toNat_lt, UInt64.lt_iff_toNat_lt, UInt64.toNat_inj]

theorem eq_of_toNat_eq (hline : p.line.toNat = q.line.toNat) (hcolumn : p.column.toNat = q.column.toNat) :
    p = q := by
  cases p
  cases q
  rw [mk.injEq, ← UInt64.toNat_inj, ← UInt64.toNat_inj]
  exact ⟨hline, hcolumn⟩

/-- Positions are in order by line, then by column. -/
instance : LinearOrder Position where
  le_refl p := le_iff_toNat.2 (by omega)
  le_trans p q r hpq hqr := by
    rw [le_iff_toNat] at *
    omega
  le_antisymm p q hpq hqp := by
    rw [le_iff_toNat] at *
    exact eq_of_toNat_eq (by omega) (by omega)
  le_total p q := by
    rw [le_iff_toNat, le_iff_toNat]
    omega
  lt_iff_le_not_ge p q := by
    rw [lt_iff_toNat, le_iff_toNat, le_iff_toNat]
    omega
  min := earlier
  max := later
  compare := compare
  toDecidableLE := inferInstance
  toDecidableEq := inferInstance
  toDecidableLT := inferInstance

theorem earlier_eq_min (p q : Position) : p.earlier q = min p q := rfl

theorem later_eq_max (p q : Position) : p.later q = max p q := rfl

end Position

namespace Location

variable {a b : Location}

def Ordered (a : Location) : Prop := a.start ≤ a.stop

instance : Decidable a.Ordered := inferInstanceAs (Decidable (a.start ≤ a.stop))

theorem spanning_eq_ok_iff {start stop : Position} :
    spanning start stop = .ok a ↔ start ≤ stop ∧ a = ⟨start, stop⟩ := by
  unfold spanning
  split
  · next h => simp [h, eq_comm]
  · next h => simp [h]

theorem ordered_point (p : Position) : (point p).Ordered := le_refl p

/-- The stretch that covers two others runs forward if one of them does. -/
theorem Ordered.cover_left (h : a.Ordered) (b : Location) : (a.cover b).Ordered := by
  show a.start.earlier b.start ≤ a.stop.later b.stop
  rw [Position.earlier_eq_min, Position.later_eq_max]
  calc
    min a.start b.start ≤ a.start := min_le_left _ _
    _ ≤ a.stop := h
    _ ≤ max a.stop b.stop := le_max_left _ _

/-- The locations that can be made of positions and of the JSON texts in question. -/
inductive Built (texts : Text → Prop) : Location → Prop where
  | spanning {start stop : Position} {a : Location} (h : spanning start stop = .ok a) : Built texts a
  | point (p : Position) : Built texts (point p)
  | default : Built texts default
  | cover {a b : Location} (ha : Built texts a) (hb : Built texts b) : Built texts (a.cover b)
  | read {text : Text} {a : Location} (htext : texts text) (h : Json.decodeText ofJson text = .ok a) :
      Built texts a

variable {texts : Text → Prop}

theorem Built.ordered (hread : ∀ text a, texts text → Json.decodeText ofJson text = .ok a → a.Ordered)
    (h : Built texts a) : a.Ordered := by
  induction h with
  | spanning h =>
    obtain ⟨hle, rfl⟩ := spanning_eq_ok_iff.1 h
    exact hle
  | point p => exact ordered_point p
  | default => exact ordered_point .origin
  | cover _ _ ha _ => exact ha.cover_left _
  | read htext h => exact hread _ _ htext h

theorem Ordered.built (h : a.Ordered) : Built texts a :=
  .spanning (spanning_eq_ok_iff.2 ⟨h, rfl⟩)

/-- A location is read from its own text. -/
theorem built_of_text (h : texts a.toJson.compact) : Built texts a :=
  .read h (readsBack_location.decodeText_written a)

/-- **Locations run forward just when those do that are read from JSON texts.** No other operation gives one in
reverse, and all that are in order can be made without a text. But every location is read from a text of its
own, so with all texts at hand all locations can be made, those in reverse too. -/
theorem ordered_of_built_iff (texts : Text → Prop) :
    ((∀ a, Built texts a → a.Ordered) ↔
      ∀ text a, texts text → Json.decodeText ofJson text = .ok a → a.Ordered) ∧
    (∀ a, a.Ordered → Built texts a) ∧
    ∀ a, texts a.toJson.compact → Built texts a := by
  refine ⟨⟨fun h text a htext hread => ?_, fun h a => Built.ordered h⟩, fun a => Ordered.built, ?_⟩
  · exact h a (.read htext hread)
  · exact fun a => built_of_text

/-- Reading can give a location in reverse. -/
theorem built_in_reverse :
    ∃ a, Json.decodeText ofJson "[[1,0],[0,5]]".toList = .ok a ∧ Built (fun _ => True) a ∧ ¬ a.Ordered := by
  have hread : Json.decodeText ofJson "[[1,0],[0,5]]".toList = .ok ⟨⟨1, 0⟩, ⟨0, 5⟩⟩ := by decide +kernel
  exact ⟨_, hread, .read trivial hread, by decide⟩

end Location

end CanonicalText
