import Mathlib
import CanonicalText.Proofs.Exact.Arithmetic
import CanonicalText.Proofs.View.Steps

/-!
# Views and cursors in numbers

The operations on views and cursors once more, on natural numbers and with an arithmetic of one's choice. Each adds and
subtracts where the one on words does. They come to the same: an offset that is added lies in the view, so the sum is
no greater than its end; what is subtracted has been compared before, or is kept below by the view or the cursor.

* `Exact.View`, `Exact.Cursor` : windows and walks, given by numbers;
* `View.exact_bound`, `View.exact_slice`, `View.exact_sliceLength` : narrowing a view;
* `View.exact_get`, `View.exact_set` : reading and writing through it;
* `Cursor.exact_next`, `Cursor.exact_nextBack`, `Cursor.exact_skipToBy` : the steps of a walk.
-/

namespace CanonicalText

namespace Exact

structure View where
  storage : Nat
  start : Nat
  stop : Nat
deriving DecidableEq

def Index.resolve? (length : Nat) : Index → Option Nat
  | fromStart i => some i
  | fromEnd n => if n ≤ length then some (length - n) else none

namespace View

variable {α : Type} (ar : Arithmetic)

def length (v : View) : Except Failure Nat := ar.sub v.stop v.start

def position? (v : View) (i : Index) : Except Failure (Option Nat) := do
  let length ← v.length ar
  return (i.resolve? length).filter (· < length)

def canGet (v : View) (i : Index) : Except Failure Bool := do
  return (← v.position? ar i).isSome

def bound (v : View) (i : Index) : Except Failure Nat := do
  let length ← v.length ar
  match (i.resolve? length).filter (· ≤ length) with
  | some p => .ok p
  | none => .error (.boundOutOfRange i length)

def ofOffsets (storage start stop : Nat) : Except Failure View :=
  if start ≤ stop then .ok ⟨storage, start, stop⟩ else .error (.reversedView start stop)

def narrow (v : View) (first last : Nat) : Except Failure View := do
  let start ← ar.add v.start first
  let stop ← ar.add v.start last
  ofOffsets v.storage start stop

def firstOffset (v : View) : Bound Index → Except Failure Nat
  | .unbounded => .ok 0
  | .included i => v.bound ar i
  | .excluded i => do ar.add (← v.bound ar i) 1

def endOffset (v : View) : Bound Index → Except Failure Nat
  | .unbounded => v.length ar
  | .included i => do ar.add (← v.bound ar i) 1
  | .excluded i => v.bound ar i

def slice (v : View) (lower upper : Bound Index) : Except Failure View := do
  let first ← v.firstOffset ar lower
  let last ← v.endOffset ar upper
  let length ← v.length ar
  if first ≤ last ∧ last ≤ length then v.narrow ar first last
  else .error (.rangeOutOfRange first last length)

def range (v : View) (lower upper : Bound Nat) : Except Failure View :=
  v.slice ar (lower.map .fromStart) (upper.map .fromStart)

def sliceLength (v : View) (i : Index) (count : Nat) : Except Failure View := do
  let first ← v.bound ar i
  let length ← v.length ar
  match (ar.checkedAdd first count).filter (· ≤ length) with
  | some last => v.narrow ar first last
  | none => .error (.extentOutOfRange count first length)

def elements (s : Store α) (v : View) : List α := ((s.storage v.storage).extract v.start v.stop).toList

def get (s : Store α) (v : View) (i : Index) : Except Failure α := do
  let length ← v.length ar
  match ← v.position? ar i with
  | none => .error (.noElement i length)
  | some p =>
    let offset ← ar.add v.start p
    match (s.storage v.storage)[offset]? with
    | some x => .ok x
    | none => .error (.outsideStorage offset)

/-- An index that finds no element gives none; any other failure stays one. -/
def tryGet (s : Store α) (v : View) (i : Index) : Except Failure (Option α) :=
  match v.get ar s i with
  | .ok x => .ok (some x)
  | .error (.noElement _ _) => .ok none
  | .error e => .error e

def set (s : Store α) (v : View) (i : Index) (x : α) : Except Failure (Store α) := do
  let length ← v.length ar
  match ← v.position? ar i with
  | none => .error (.noElement i length)
  | some p =>
    if s.isBeingRead v.storage then .error (.storageBeingRead i)
    else
      let cells := s.storage v.storage
      let offset ← ar.add v.start p
      if offset < cells.size then
        .ok { s with storages := s.storages.setIfInBounds v.storage (cells.setIfInBounds offset x) }
      else .error (.outsideStorage offset)

end View

/-- A walk over a view, and the numbers of the offsets that are still ahead of it. -/
structure Cursor where
  view : View
  front : Nat
  back : Nat
deriving DecidableEq

namespace Cursor

variable {α : Type} (ar : Arithmetic)

def length (c : Cursor) : Except Failure Nat := ar.sub c.back c.front

def next (s : Store α) (c : Cursor) : Except Failure (Option α × Cursor) :=
  if c.front = c.back then .ok (none, c)
  else do
    let x ← c.view.tryGet ar s (.fromStart c.front)
    let front ← ar.add c.front 1
    return (x, { c with front })

def nextBack (s : Store α) (c : Cursor) : Except Failure (Option α × Cursor) :=
  if c.front = c.back then .ok (none, c)
  else do
    let back ← ar.sub c.back 1
    let x ← c.view.tryGet ar s (.fromStart back)
    return (x, { c with back })

def skipToBy (step : Cursor → Except Failure (Option α × Cursor)) :
    Nat → Cursor → Except Failure (Option α × Cursor)
  | 0, c => step c
  | n + 1, c => do
    match ← step c with
    | (none, c) => return (none, c)
    | (some _, c) => skipToBy step n c

def takeBy (step : Cursor → Except Failure (Option α × Cursor)) : Nat → Cursor → Except Failure (List α × Cursor)
  | 0, c => .ok ([], c)
  | n + 1, c => do
    match ← step c with
    | (none, c) => return ([], c)
    | (some x, c) =>
      let (xs, c) ← takeBy step n c
      return (x :: xs, c)

def restBy (step : Cursor → Except Failure (Option α × Cursor)) (c : Cursor) :
    Except Failure (List α × Cursor) := do
  takeBy step (← c.length ar) c

end Cursor

end Exact

/-! ## Views -/

def View.exact (v : View) : Exact.View := ⟨v.storage, v.start.toNat, v.stop.toNat⟩

theorem Index.exact_resolve? (length : UInt64) (i : Index) :
    i.exact.resolve? length.toNat = (i.resolve? length).map UInt64.toNat := by
  cases i with
  | fromStart i => rfl
  | fromEnd n =>
    show (if n.toNat ≤ length.toNat then some (length.toNat - n.toNat) else none) = _
    rw [resolve?, checkedSub]
    by_cases h : n ≤ length
    · rw [if_pos (UInt64.le_iff_toNat_le.1 h), if_pos h, Option.map_some, UInt64.toNat_sub_of_le _ _ h]
    · rw [if_neg (mt UInt64.le_iff_toNat_le.2 h), if_neg h, Option.map_none]

namespace View

open Exact (result result_bind)

variable {α : Type} {s : Store α} {v : View} (ar : Exact.Arithmetic)

section Reading

variable (hv : v.start ≤ v.stop)

include hv

theorem exact_length : v.exact.length ar = .ok v.length.toNat := ar.sub_toNat hv

theorem exact_position? (i : Index) :
    v.exact.position? ar i.exact = .ok ((v.position? i).map UInt64.toNat) := by
  rw [Exact.View.position?, exact_length ar hv]
  show Except.ok (Option.filter _ _) = _
  rw [Index.exact_resolve?, filter_lt_map_toNat]
  rfl

theorem exact_canGet (i : Index) : v.exact.canGet ar i.exact = .ok (v.canGet i) := by
  rw [Exact.View.canGet, exact_position? ar hv]
  show Except.ok (Option.isSome _) = _
  rw [Option.isSome_map]
  rfl

theorem exact_bound (i : Index) : v.exact.bound ar i.exact = result UInt64.toNat (v.bound i) := by
  rw [Exact.View.bound, exact_length ar hv]
  show (match (Option.filter _ _ : Option Nat) with | some p => _ | none => _) = _
  rw [Index.exact_resolve?, filter_le_map_toNat, bound]
  cases (i.resolve? v.length).filter (· ≤ v.length) <;> rfl

/-- A bound that is gone past is an offset of the view, so the sum is at most its length and one. -/
theorem exact_bound_succ (hl : v.length < lastWord) (i : Index) :
    (v.exact.bound ar i.exact >>= (ar.add · 1)) = result UInt64.toNat ((v.bound i).map (· + 1)) := by
  rw [exact_bound ar hv]
  rcases v.bound_cases i with ⟨p, hp, h⟩ | h
  · have hsum : p.toNat + (1 : UInt64).toNat = (p + 1).toNat := by
      rw [UInt64.le_iff_toNat_le] at hp
      rw [UInt64.lt_iff_toNat_lt, toNat_lastWord] at hl
      exact (toNat_add_one_of_lt (by omega)).symm
    rw [h]
    exact ar.add_toNat hsum
  · rw [h]
    rfl

theorem exact_firstOffset (hl : v.length < lastWord) (lower : Bound Index) :
    v.exact.firstOffset ar (lower.map Index.exact) = result UInt64.toNat (v.firstOffset lower) := by
  cases lower with
  | unbounded => rfl
  | included i => exact exact_bound ar hv i
  | excluded i => exact exact_bound_succ ar hv hl i

theorem exact_endOffset (hl : v.length < lastWord) (upper : Bound Index) :
    v.exact.endOffset ar (upper.map Index.exact) = result UInt64.toNat (v.endOffset upper) := by
  cases upper with
  | unbounded => exact exact_length ar hv
  | included i => exact exact_bound_succ ar hv hl i
  | excluded i => exact exact_bound ar hv i

theorem exact_narrow {first last : UInt64} (hle : first ≤ last) (hlast : last ≤ v.length) :
    v.exact.narrow ar first.toNat last.toNat = result exact (v.narrow first last) := by
  have hstart := ar.add_toNat (toNat_start_add hv (UInt64.le_trans hle hlast)).symm
  have hstop := ar.add_toNat (toNat_start_add hv hlast).symm
  have hforward : (v.start + first).toNat ≤ (v.start + last).toNat := by
    rw [toNat_start_add hv (UInt64.le_trans hle hlast), toNat_start_add hv hlast]
    exact Nat.add_le_add_left (UInt64.le_iff_toNat_le.1 hle) _
  rw [narrow_eq_ok hv hle hlast, Exact.View.narrow]
  show (ar.add v.start.toNat first.toNat >>= fun start => ar.add v.start.toNat last.toNat >>= _) = _
  rw [hstart, hstop]
  exact if_pos hforward

/-- **Slices** are made without a sum or a difference that is no word. -/
theorem exact_slice (hl : v.length < lastWord) (lower upper : Bound Index) :
    v.exact.slice ar (lower.map Index.exact) (upper.map Index.exact) = result exact (v.slice lower upper) := by
  rw [Exact.View.slice, exact_firstOffset ar hv hl]
  refine result_bind fun first _ => ?_
  rw [exact_endOffset ar hv hl]
  refine result_bind fun last _ => ?_
  rw [exact_length ar hv]
  show (if first.toNat ≤ last.toNat ∧ last.toNat ≤ v.length.toNat then _ else _) = _
  by_cases h : first ≤ last ∧ last ≤ v.length
  · rw [if_pos h, if_pos (by rwa [← UInt64.le_iff_toNat_le, ← UInt64.le_iff_toNat_le])]
    exact exact_narrow ar hv h.1 h.2
  · rw [if_neg h, if_neg (by rwa [← UInt64.le_iff_toNat_le, ← UInt64.le_iff_toNat_le])]
    rfl

theorem exact_range (hl : v.length < lastWord) (lower upper : Bound UInt64) :
    v.exact.range ar (lower.map UInt64.toNat) (upper.map UInt64.toNat) = result exact (v.range lower upper) := by
  have hmap (b : Bound UInt64) :
      (b.map UInt64.toNat).map Exact.Index.fromStart = (b.map .fromStart).map Index.exact := by
    cases b <;> rfl
  rw [Exact.View.range, hmap, hmap]
  exact exact_slice ar hv hl _ _

theorem exact_sliceLength (i : Index) (count : UInt64) :
    v.exact.sliceLength ar i.exact count.toNat = result exact (v.sliceLength i count) := by
  rw [Exact.View.sliceLength, exact_bound ar hv]
  refine result_bind fun first _ => ?_
  rw [exact_length ar hv]
  show (match (Option.filter _ _ : Option Nat) with | some last => _ | none => _) = _
  rw [ar.filter_checkedAdd]
  cases hsum : (checkedAdd first count).filter (· ≤ v.length) with
  | none => rfl
  | some last =>
    rw [Option.filter_eq_some_iff, decide_eq_true_eq, checkedAdd_eq_some_iff] at hsum
    exact exact_narrow ar hv (UInt64.le_iff_toNat_le.2 (by omega)) hsum.2

end Reading

variable (h : s.Covers v)

include h

/-- **Reading** adds an offset in the view to its start. -/
theorem exact_get (i : Index) : v.exact.get ar s i.exact = result id (s.get v i) := by
  have hv := h.start_le_stop
  rw [Exact.View.get, exact_length ar hv, exact_position? ar hv]
  rcases Store.get_cases h i with ⟨p, hp, hposition, hcell, hget⟩ | ⟨hposition, hget⟩
  · rw [hposition, hget]
    show (ar.add v.start.toNat p.toNat >>= _) = _
    rw [ar.add_toNat (toNat_start_add hv (UInt64.le_of_lt hp)).symm]
    show (match (s.storage v.storage)[(v.start + p).toNat]? with | some x => _ | none => _) = _
    rw [Array.getElem?_eq_getElem hcell]
    rfl
  · rw [hposition, hget]
    rfl

/-- **Writing** does so, too, after it has been refused if it is. -/
theorem exact_set (i : Index) (x : α) : v.exact.set ar s i.exact x = result id (s.set v i x) := by
  have hv := h.start_le_stop
  rw [Exact.View.set, exact_length ar hv, exact_position? ar hv]
  rcases Store.set_cases h i x with ⟨p, hp, hposition, hread, hset⟩ | ⟨hposition, hset⟩ | ⟨hposition, hread, hset⟩
  · rw [hposition, hset]
    show (if s.isBeingRead v.storage then _ else ar.add v.start.toNat p.toNat >>= _) = _
    rw [hread, if_neg Bool.false_ne_true, ar.add_toNat (toNat_start_add hv (UInt64.le_of_lt hp)).symm]
    exact if_pos (h.offset_lt_size hp)
  · rw [hposition, hset]
    rfl
  · obtain ⟨p, hp⟩ := Option.isSome_iff_exists.1 hposition
    rw [hp, hset]
    exact if_pos hread

theorem exact_tryGet (i : Index) : v.exact.tryGet ar s i.exact = .ok (s.tryGet v i) := by
  rw [Exact.View.tryGet, exact_get ar h, Store.tryGet]
  rcases Store.get_cases h i with ⟨p, -, -, hcell, hget⟩ | ⟨-, hget⟩
  · rw [hget]
    rfl
  · rw [hget]
    rfl

end View

/-! ## Cursors -/

def Cursor.exact (c : Cursor) : Exact.Cursor := ⟨c.view.exact, c.front.toNat, c.back.toNat⟩

namespace Cursor

variable {α : Type} {s : Store α} {c : Cursor} (ar : Exact.Arithmetic)

theorem exact_length (h : c.front ≤ c.back) : c.exact.length ar = .ok c.length.toNat := ar.sub_toNat h

/-- The front moves on as long as it has not met the back, so it stays a word. -/
theorem exact_next (h : c.Walks s) : c.exact.next ar s = .ok ((c.next s).1, (c.next s).2.exact) := by
  unfold next Exact.Cursor.next
  by_cases hne : c.front = c.back
  · rw [if_pos hne]
    exact if_pos (congrArg UInt64.toNat hne)
  · obtain ⟨hfront, -, -⟩ := toNat_ends_of_ne h.front_le_back hne
    rw [if_neg hne, if_neg (show c.exact.front ≠ c.exact.back from mt UInt64.toNat_inj.1 hne)]
    show (c.view.exact.tryGet ar s (Index.fromStart c.front).exact >>= fun x =>
      ar.add c.front.toNat (1 : UInt64).toNat >>= _) = _
    rw [View.exact_tryGet ar h.covers, ar.add_toNat hfront.symm]
    rfl

theorem exact_nextBack (h : c.Walks s) :
    c.exact.nextBack ar s = .ok ((c.nextBack s).1, (c.nextBack s).2.exact) := by
  unfold nextBack Exact.Cursor.nextBack
  by_cases hne : c.front = c.back
  · rw [if_pos hne]
    exact if_pos (congrArg UInt64.toNat hne)
  · obtain ⟨-, -, hlt⟩ := toNat_ends_of_ne h.front_le_back hne
    have hone : 1 ≤ c.back := UInt64.le_iff_toNat_le.2 (Nat.one_le_of_lt hlt)
    rw [if_neg hne, if_neg (show c.exact.front ≠ c.exact.back from mt UInt64.toNat_inj.1 hne)]
    show (ar.sub c.back.toNat (1 : UInt64).toNat >>= _) = _
    rw [ar.sub_toNat hone]
    show (c.view.exact.tryGet ar s (Index.fromStart (c.back - 1)).exact >>= _) = _
    rw [View.exact_tryGet ar h.covers]
    rfl

/-- Steps that are told in numbers, and stay inside of the view. -/
structure ExactStep (s : Store α) (step : Cursor → Option α × Cursor)
    (exactStep : Exact.Cursor → Except Exact.Failure (Option α × Exact.Cursor)) : Prop where
  exact_eq {c : Cursor} : c.Walks s → exactStep c.exact = .ok ((step c).1, (step c).2.exact)
  within {c : Cursor} : c.front ≤ c.back → (step c).2.Within c

theorem exactStep_next (s : Store α) : ExactStep s (next s) (Exact.Cursor.next ar s) :=
  ⟨exact_next ar, within_next⟩

theorem exactStep_nextBack (s : Store α) : ExactStep s (nextBack s) (Exact.Cursor.nextBack ar s) :=
  ⟨exact_nextBack ar, within_nextBack⟩

section Steps

variable {step : Cursor → Option α × Cursor}
  {exactStep : Exact.Cursor → Except Exact.Failure (Option α × Exact.Cursor)}
  (hstep : ExactStep s step exactStep)

include hstep

theorem exact_skipToBy (h : c.Walks s) (n : Nat) :
    Exact.Cursor.skipToBy exactStep n c.exact = .ok ((skipToBy step n c).1, (skipToBy step n c).2.exact) := by
  induction n generalizing c with
  | zero => exact hstep.exact_eq h
  | succ n ih =>
    have hwalks := h.mono (hstep.within h.front_le_back)
    obtain ⟨x, d, hc⟩ : ∃ x d, step c = (x, d) := ⟨_, _, rfl⟩
    rw [Exact.Cursor.skipToBy, skipToBy, hstep.exact_eq h, hc]
    rw [hc] at hwalks
    cases x with
    | none => rfl
    | some x => exact ih hwalks

theorem exact_takeBy (h : c.Walks s) (n : Nat) :
    Exact.Cursor.takeBy exactStep n c.exact = .ok ((takeBy step n c).1, (takeBy step n c).2.exact) := by
  induction n generalizing c with
  | zero => rfl
  | succ n ih =>
    have hwalks := h.mono (hstep.within h.front_le_back)
    obtain ⟨x, d, hc⟩ : ∃ x d, step c = (x, d) := ⟨_, _, rfl⟩
    rw [Exact.Cursor.takeBy, takeBy, hstep.exact_eq h, hc]
    rw [hc] at hwalks
    cases x with
    | none => rfl
    | some x =>
      show (Exact.Cursor.takeBy exactStep n d.exact >>= _) = _
      rw [ih hwalks]
      rfl

theorem exact_restBy (h : c.Walks s) :
    c.exact.restBy ar exactStep =
      .ok ((takeBy step c.length.toNat c).1, (takeBy step c.length.toNat c).2.exact) := by
  rw [Exact.Cursor.restBy, exact_length ar h.front_le_back]
  exact exact_takeBy hstep h _

end Steps

end Cursor

end CanonicalText
