import Mathlib
import CanonicalText.Proofs.View.Windows

/-!
# What a step asks for

Where a step that narrows a view starts and how many elements it keeps is a matter of the view's length
alone. It is said here in natural numbers (`Narrowing.extent?`), and the steps are right about it: none of
their sums wraps around, and what lies outside of the view is refused even if its storage has it.

* `View.narrowed_eq_ok_iff` : a step succeeds just when the view has what it asks for, and leads to that part;
* `View.extent?_eq_none_iff` : otherwise it fails, and the fault names the length of the view.
-/

namespace CanonicalText

/-! ## Extents -/

/-- Part of a sequence: how many elements come before it, and how many it has. -/
structure Extent where
  start : Nat
  count : Nat
deriving DecidableEq

def Extent.between? (length first last : Nat) : Option Extent :=
  if first ≤ last ∧ last ≤ length then some ⟨first, last - first⟩ else none

/-- The offset of an index in a sequence of the given length, as a natural number; it may lie past the
end. -/
def Index.place? (length : Nat) : Index → Option Nat
  | fromStart i => some i.toNat
  | fromEnd n => if n.toNat ≤ length then some (length - n.toNat) else none

/-- The offset at which an index may bound a part of a sequence. -/
def Index.bound? (length : Nat) (i : Index) : Option Nat := (i.place? length).filter (· ≤ length)

def Index.element? (length : Nat) (i : Index) : Option Nat := (i.place? length).filter (· < length)

/-- How many elements come before those that a lower bound lets in. -/
def Bound.first? (length : Nat) : Bound Index → Option Nat
  | unbounded => some 0
  | included i => i.bound? length
  | excluded i => (i.bound? length).map (· + 1)

/-- How many elements come before those that an upper bound keeps out. -/
def Bound.last? (length : Nat) : Bound Index → Option Nat
  | unbounded => some length
  | included i => (i.bound? length).map (· + 1)
  | excluded i => i.bound? length

def Extent.ofBounds? (length : Nat) (lower upper : Bound Index) : Option Extent :=
  (lower.first? length).bind fun first =>
    (upper.last? length).bind fun last => between? length first last

inductive Narrowing where
  | slice (lower upper : Bound Index)
  | range (lower upper : Bound UInt64)
  | sliceLength (i : Index) (count : UInt64)

namespace Narrowing

/-- The part that a step asks for in a sequence of the given length, if the sequence has it. -/
def extent? (length : Nat) : Narrowing → Option Extent
  | slice lower upper => Extent.ofBounds? length lower upper
  | range lower upper => Extent.ofBounds? length (lower.map .fromStart) (upper.map .fromStart)
  | sliceLength i count =>
    (i.bound? length).bind fun first => Extent.between? length first (first + count.toNat)

end Narrowing

theorem Index.lt_of_element? {length m : Nat} {i : Index} (h : i.element? length = some m) : m < length := by
  simpa using (Option.filter_eq_some_iff.1 h).2

theorem Index.element?_fromStart_iff {length m : Nat} {n : UInt64} :
    (fromStart n).element? length = some m ↔ m = n.toNat ∧ m < length := by
  simp only [element?, place?, Option.filter_eq_some_iff, Option.some.injEq, decide_eq_true_eq]
  omega

theorem Index.element?_fromEnd_iff {length m : Nat} {n : UInt64} :
    (fromEnd n).element? length = some m ↔ m + n.toNat = length ∧ m < length := by
  simp only [element?, place?, Option.filter_eq_some_iff, Option.ite_none_right_eq_some, Option.some.injEq,
    decide_eq_true_eq]
  omega

theorem Index.le_of_bound? {length m : Nat} {i : Index} (h : i.bound? length = some m) : m ≤ length := by
  simpa using (Option.filter_eq_some_iff.1 h).2

theorem Bound.le_of_first? {length m : Nat} {b : Bound Index} (h : b.first? length = some m) : m ≤ length + 1 := by
  cases b with
  | unbounded =>
    cases h
    exact Nat.zero_le _
  | included i => exact (Index.le_of_bound? h).trans (Nat.le_succ _)
  | excluded i =>
    obtain ⟨k, hk, rfl⟩ := Option.map_eq_some_iff.1 h
    exact Nat.succ_le_succ (Index.le_of_bound? hk)

theorem Bound.le_of_last? {length m : Nat} {b : Bound Index} (h : b.last? length = some m) : m ≤ length + 1 := by
  cases b with
  | unbounded =>
    cases h
    exact Nat.le_succ _
  | included i =>
    obtain ⟨k, hk, rfl⟩ := Option.map_eq_some_iff.1 h
    exact Nat.succ_le_succ (Index.le_of_bound? hk)
  | excluded i => exact (Index.le_of_bound? h).trans (Nat.le_succ _)

theorem Extent.between?_eq_some_iff {length first last : Nat} {e : Extent} :
    between? length first last = some e ↔
      e.start = first ∧ e.start + e.count = last ∧ last ≤ length := by
  obtain ⟨start, count⟩ := e
  simp only [between?, Option.ite_none_right_eq_some, Option.some.injEq, Extent.mk.injEq]
  omega

theorem Narrowing.le_of_extent? {length : Nat} {n : Narrowing} {e : Extent}
    (h : n.extent? length = some e) : e.start + e.count ≤ length := by
  cases n with
  | slice lower upper | range lower upper =>
    obtain ⟨first, -, h⟩ := Option.bind_eq_some_iff.1 h
    obtain ⟨last, -, h⟩ := Option.bind_eq_some_iff.1 h
    obtain ⟨-, hlast, hle⟩ := Extent.between?_eq_some_iff.1 h
    exact hlast.trans_le hle
  | sliceLength i count =>
    obtain ⟨first, -, h⟩ := Option.bind_eq_some_iff.1 h
    obtain ⟨-, hlast, hle⟩ := Extent.between?_eq_some_iff.1 h
    exact hlast.trans_le hle

theorem Narrowing.extent?_fromStart {length : Nat} {a count : UInt64} {e : Extent} :
    (sliceLength (.fromStart a) count).extent? length = some e ↔
      a.toNat + count.toNat ≤ length ∧ e = ⟨a.toNat, count.toNat⟩ := by
  obtain ⟨start, kept⟩ := e
  simp only [extent?, Option.bind_eq_some_iff, Extent.between?_eq_some_iff, Index.bound?, Index.place?,
    Option.filter_eq_some_iff, decide_eq_true_eq, Option.some.injEq, Extent.mk.injEq]
  constructor
  · rintro ⟨first, ⟨rfl, -⟩, hstart, hlast, hle⟩
    omega
  · rintro ⟨hle, rfl, rfl⟩
    exact ⟨_, ⟨rfl, by omega⟩, rfl, rfl, hle⟩

namespace View

variable {v w : View}

/-! ## Bounds in words and in natural numbers -/

theorem exists_toNat_eq {m : Nat} {b : UInt64} (h : m ≤ b.toNat) : ∃ p : UInt64, p.toNat = m :=
  ⟨UInt64.ofNat m, UInt64.toNat_ofNat_of_lt' (h.trans_lt b.toNat_lt_size)⟩

theorem resolve?_eq_some_iff {length p : UInt64} {i : Index} :
    i.resolve? length = some p ↔ i.place? length.toNat = some p.toNat := by
  cases i with
  | fromStart i => simp [Index.resolve?, Index.place?, UInt64.toNat_inj]
  | fromEnd n =>
    simp only [Index.resolve?, Index.place?, checkedSub_eq_some_iff, Option.ite_none_right_eq_some,
      Option.some.injEq]
    omega

theorem position?_eq_some_iff_element? {i : Index} {p : UInt64} :
    v.position? i = some p ↔ i.element? v.length.toNat = some p.toNat := by
  simp [position?_eq_some_iff, Index.element?, Option.filter_eq_some_iff, resolve?_eq_some_iff,
    UInt64.lt_iff_toNat_lt]

/-- The offset of an element is a word. -/
theorem exists_position?_eq_some {i : Index} {m : Nat} (h : i.element? v.length.toNat = some m) :
    ∃ p : UInt64, p.toNat = m ∧ v.position? i = some p := by
  obtain ⟨p, rfl⟩ := exists_toNat_eq (Index.lt_of_element? h).le
  exact ⟨p, rfl, position?_eq_some_iff_element?.2 h⟩

theorem position?_eq_none_iff_element? {i : Index} :
    v.position? i = none ↔ i.element? v.length.toNat = none := by
  constructor
  · intro h
    rw [Option.eq_none_iff_forall_ne_some]
    intro m hm
    obtain ⟨p, -, hp⟩ := exists_position?_eq_some hm
    rw [h] at hp
    cases hp
  · intro h
    rw [Option.eq_none_iff_forall_ne_some]
    intro p hp
    rw [position?_eq_some_iff_element?.1 hp] at h
    cases h

theorem bound_eq_ok_iff {i : Index} {p : UInt64} :
    v.bound i = .ok p ↔ i.bound? v.length.toNat = some p.toNat := by
  have hfilter : (i.resolve? v.length).filter (· ≤ v.length) = some p ↔
      i.bound? v.length.toNat = some p.toNat := by
    simp [Index.bound?, Option.filter_eq_some_iff, resolve?_eq_some_iff, UInt64.le_iff_toNat_le]
  rw [← hfilter, bound]
  cases (i.resolve? v.length).filter (· ≤ v.length) <;> simp

/-- An offset that bounds a slice is a word. -/
theorem exists_bound_eq_ok {i : Index} {m : Nat} (h : i.bound? v.length.toNat = some m) :
    ∃ p : UInt64, p.toNat = m ∧ v.bound i = .ok p ∧ p ≤ v.length := by
  have hle : m ≤ v.length.toNat := by simpa using (Option.filter_eq_some_iff.1 h).2
  obtain ⟨p, rfl⟩ := exists_toNat_eq hle
  exact ⟨p, rfl, bound_eq_ok_iff.2 h, UInt64.le_iff_toNat_le.2 hle⟩

/-! The offset of an excluded lower bound and that of an included upper bound are one more than that of their
index. In a view of as many elements as the last word says, that need not be a word. -/

theorem le_lastWord_of_ne_size {m : Nat} (hm : m ≤ v.length.toNat + 1) (h : m ≠ UInt64.size) :
    m ≤ lastWord.toNat := by
  have hlt : m < UInt64.size := lt_of_le_of_ne (hm.trans v.length.toNat_lt_size) h
  exact Nat.le_pred_of_lt hlt

/-- The offsets that two bounds come to are words. -/
structure InWords (v : View) (lower upper : Bound Index) : Prop where
  first : ∀ m, lower.first? v.length.toNat = some m → m ≤ lastWord.toNat
  last : ∀ m, upper.last? v.length.toNat = some m → m ≤ lastWord.toNat

/-- No view has an offset that is not a word, but one of as many elements as the last word says. -/
theorem inWords_of_length_lt (hl : v.length < lastWord) (lower upper : Bound Index) :
    v.InWords lower upper := by
  have hend : v.length.toNat + 1 ≤ lastWord.toNat := UInt64.lt_iff_toNat_lt.1 hl
  exact ⟨fun m hm => (Bound.le_of_first? hm).trans hend, fun m hm => (Bound.le_of_last? hm).trans hend⟩

theorem bound_eq_error {i : Index} (h : i.bound? v.length.toNat = none) :
    v.bound i = .error (.boundOutOfRange i v.length) := by
  rcases v.bound_cases i with ⟨p, -, hp⟩ | herror
  · rw [bound_eq_ok_iff, h] at hp
    cases hp
  · exact herror

section Offsets

variable {i : Index} {lower upper : Bound Index} {p : UInt64}

theorem map_succ_bound (h : (i.bound? v.length.toNat).map (· + 1) = some p.toNat) :
    (v.bound i).map (· + 1) = .ok p := by
  obtain ⟨m, hm, hp⟩ := Option.map_eq_some_iff.1 h
  obtain ⟨q, rfl, hq, -⟩ := exists_bound_eq_ok hm
  have hsum : (q + 1).toNat = p.toNat := (toNat_add_one_of_lt (hp ▸ p.toNat_lt_size)).trans hp
  rw [hq, ← UInt64.toNat_inj.1 hsum]
  rfl

theorem map_succ_bound_eq_ok_iff
    (hwords : ∀ m, (i.bound? v.length.toNat).map (· + 1) = some m → m ≤ lastWord.toNat) :
    (v.bound i).map (· + 1) = .ok p ↔ (i.bound? v.length.toNat).map (· + 1) = some p.toNat := by
  refine ⟨fun h => ?_, map_succ_bound⟩
  cases hm : (i.bound? v.length.toNat).map (· + 1) with
  | none =>
    rw [bound_eq_error (Option.map_eq_none_iff.1 hm)] at h
    cases h
  | some m =>
    obtain ⟨q, rfl⟩ := exists_toNat_eq (hwords m hm)
    rw [map_succ_bound hm] at h
    rw [Except.ok.inj h]

theorem firstOffset_eq_ok (h : lower.first? v.length.toNat = some p.toNat) : v.firstOffset lower = .ok p := by
  cases lower with
  | unbounded => exact congrArg Except.ok (UInt64.toNat_inj.1 (Option.some.inj h))
  | included i => exact bound_eq_ok_iff.2 h
  | excluded i => exact map_succ_bound h

theorem endOffset_eq_ok (h : upper.last? v.length.toNat = some p.toNat) : v.endOffset upper = .ok p := by
  cases upper with
  | unbounded => exact congrArg Except.ok (UInt64.toNat_inj.1 (Option.some.inj h))
  | included i => exact map_succ_bound h
  | excluded i => exact bound_eq_ok_iff.2 h

theorem InWords.firstOffset_eq_ok_iff (h : v.InWords lower upper) :
    v.firstOffset lower = .ok p ↔ lower.first? v.length.toNat = some p.toNat := by
  cases lower with
  | unbounded => simp [firstOffset, Bound.first?, ← UInt64.toNat_inj]
  | included i => exact bound_eq_ok_iff
  | excluded i => exact map_succ_bound_eq_ok_iff h.first

theorem InWords.endOffset_eq_ok_iff (h : v.InWords lower upper) :
    v.endOffset upper = .ok p ↔ upper.last? v.length.toNat = some p.toNat := by
  cases upper with
  | unbounded => simp [endOffset, Bound.last?, ← UInt64.toNat_inj]
  | included i => exact map_succ_bound_eq_ok_iff h.last
  | excluded i => exact bound_eq_ok_iff

/-! Where it is none, it wraps around to zero. -/

theorem map_succ_bound_of_wraps (h : (i.bound? v.length.toNat).map (· + 1) = some UInt64.size) :
    (v.bound i).map (· + 1) = .ok 0 := by
  obtain ⟨m, hm, hsize⟩ := Option.map_eq_some_iff.1 h
  obtain ⟨q, rfl, hq, -⟩ := exists_bound_eq_ok hm
  have hlast : q = lastWord := UInt64.toNat_inj.1 (Nat.succ.inj hsize)
  rw [hq, hlast]
  rfl

theorem bound?_ne_size (v : View) (i : Index) : i.bound? v.length.toNat ≠ some UInt64.size := by
  intro h
  exact (v.length.toNat_lt_size.trans_le (Index.le_of_bound? h)).false

theorem firstOffset_of_wraps (h : lower.first? v.length.toNat = some UInt64.size) :
    v.firstOffset lower = .ok 0 := by
  cases lower with
  | unbounded => cases h
  | included i => exact absurd h (v.bound?_ne_size i)
  | excluded i => exact map_succ_bound_of_wraps h

theorem endOffset_of_wraps (h : upper.last? v.length.toNat = some UInt64.size) : v.endOffset upper = .ok 0 := by
  cases upper with
  | unbounded => exact absurd (Option.some.inj h) v.length.toNat_lt_size.ne
  | included i => exact map_succ_bound_of_wraps h
  | excluded i => exact absurd h (v.bound?_ne_size i)

end Offsets

/-! ## One step -/

/-- The view that a step makes of a view. -/
def narrowed (v : View) : Narrowing → Except Fault View
  | .slice lower upper => v.slice lower upper
  | .range lower upper => v.range lower upper
  | .sliceLength i count => v.sliceLength i count

/-- A view is the given part of another one. -/
structure IsPart (w v : View) (e : Extent) : Prop where
  storage : w.storage = v.storage
  start : w.start.toNat = v.start.toNat + e.start
  stop : w.stop.toNat = v.start.toNat + (e.start + e.count)

theorem IsPart.eq {e : Extent} {u : View} (h : w.IsPart v e) (h' : u.IsPart v e) : w = u := by
  have hstorage := h.storage.trans h'.storage.symm
  have hstart := UInt64.toNat_inj.1 (h.start.trans h'.start.symm)
  have hstop := UInt64.toNat_inj.1 (h.stop.trans h'.stop.symm)
  cases w
  cases u
  simp only [View.mk.injEq] at *
  exact ⟨hstorage, hstart, hstop⟩

theorem IsPart.start_le_stop {e : Extent} (h : w.IsPart v e) : w.start ≤ w.stop := by
  rw [UInt64.le_iff_toNat_le, h.start, h.stop]
  omega

theorem IsPart.toNat_length {e : Extent} (h : w.IsPart v e) : w.length.toNat = e.count := by
  rw [View.toNat_length h.start_le_stop, h.start, h.stop]
  omega

theorem IsPart.self (hv : v.start ≤ v.stop) : v.IsPart v ⟨0, v.length.toNat⟩ := by
  refine ⟨rfl, rfl, ?_⟩
  have := UInt64.le_iff_toNat_le.1 hv
  rw [View.toNat_length hv]
  simp only
  omega

theorem exists_isPart (hv : v.start ≤ v.stop) {e : Extent} (hle : e.start + e.count ≤ v.length.toNat) :
    ∃ w, IsPart w v e := by
  have := UInt64.le_iff_toNat_le.1 hv
  rw [toNat_length hv] at hle
  obtain ⟨start, hstart⟩ := exists_toNat_eq (b := v.stop) (m := v.start.toNat + e.start) (by omega)
  obtain ⟨stop, hstop⟩ :=
    exists_toNat_eq (b := v.stop) (m := v.start.toNat + (e.start + e.count)) (by omega)
  exact ⟨⟨v.storage, start, stop⟩, rfl, hstart, hstop⟩

theorem IsPart.length_lt {e : Extent} (h : w.IsPart v e) (hl : v.length < lastWord)
    (hle : e.start + e.count ≤ v.length.toNat) : w.length < lastWord := by
  rw [UInt64.lt_iff_toNat_lt] at hl ⊢
  rw [h.toNat_length]
  omega

theorem IsPart.within {e : Extent} (h : w.IsPart v e) (hv : v.start ≤ v.stop)
    (hle : e.start + e.count ≤ v.length.toNat) : w.Within v := by
  have hlength := View.toNat_length hv
  have hstart := UInt64.le_iff_toNat_le.1 hv
  refine ⟨h.storage, ?_, h.start_le_stop, ?_⟩
  · rw [UInt64.le_iff_toNat_le, h.start]
    omega
  · rw [UInt64.le_iff_toNat_le, h.stop]
    omega

/-- The parts of a part are those parts of the whole that start as much later. -/
theorem IsPart.isPart_iff {e f : Extent} {u : View} (h : w.IsPart v e) :
    u.IsPart v ⟨e.start + f.start, f.count⟩ ↔ u.IsPart w f := by
  constructor
  · intro h'
    refine ⟨h'.storage.trans h.storage.symm, ?_, ?_⟩
    · rw [h'.start, h.start, Nat.add_assoc]
    · rw [h'.stop, h.start]
      simp only
      omega
  · intro h'
    refine ⟨h'.storage.trans h.storage, ?_, ?_⟩
    · rw [h'.start, h.start, Nat.add_assoc]
    · rw [h'.stop, h.start]
      simp only
      omega

theorem narrow_eq_ok_iff (hv : v.start ≤ v.stop) {first last : UInt64} (hle : first ≤ last)
    (hlast : last ≤ v.length) :
    v.narrow first last = .ok w ↔ w.IsPart v ⟨first.toNat, last.toNat - first.toNat⟩ := by
  have hle' := UInt64.le_iff_toNat_le.1 hle
  have hpart : IsPart ⟨v.storage, v.start + first, v.start + last⟩ v
      ⟨first.toNat, last.toNat - first.toNat⟩ := by
    refine ⟨rfl, toNat_start_add hv (UInt64.le_trans hle hlast), ?_⟩
    rw [toNat_start_add hv hlast]
    simp only
    omega
  rw [narrow_eq_ok hv hle hlast, Except.ok.injEq]
  constructor
  · rintro rfl
    exact hpart
  · exact hpart.eq

theorem slice_eq_ok_iff (hv : v.start ≤ v.stop) {lower upper : Bound Index} (hwords : v.InWords lower upper) :
    v.slice lower upper = .ok w ↔
      ∃ e, Extent.ofBounds? v.length.toNat lower upper = some e ∧ w.IsPart v e := by
  constructor
  · intro h
    rcases slice_cases hv lower upper with
      ⟨first, last, hfirst, hlast, hle, hlength, h'⟩ | ⟨i, h'⟩ | ⟨first, last, h'⟩
    · have hpart := (narrow_eq_ok_iff hv hle hlength).1 ((narrow_eq_ok hv hle hlength).trans (h' ▸ h))
      rw [hwords.firstOffset_eq_ok_iff] at hfirst
      rw [hwords.endOffset_eq_ok_iff] at hlast
      refine ⟨_, ?_, hpart⟩
      rw [UInt64.le_iff_toNat_le] at hle hlength
      rw [Extent.ofBounds?, hfirst, hlast, Option.bind_some, Option.bind_some,
        Extent.between?_eq_some_iff]
      exact ⟨rfl, by simp only; omega, hlength⟩
    · rw [h'] at h
      cases h
    · rw [h'] at h
      cases h
  · rintro ⟨e, he, hw⟩
    obtain ⟨a, ha, he⟩ := Option.bind_eq_some_iff.1 he
    obtain ⟨b, hb, he⟩ := Option.bind_eq_some_iff.1 he
    obtain ⟨rfl, rfl, hle⟩ := Extent.between?_eq_some_iff.1 he
    obtain ⟨last, hlast⟩ := exists_toNat_eq hle
    obtain ⟨first, hfirst⟩ := exists_toNat_eq (b := last) (m := e.start) (by omega)
    have hfl : first ≤ last := UInt64.le_iff_toNat_le.2 (by omega)
    have hlength : last ≤ v.length := UInt64.le_iff_toNat_le.2 (by omega)
    rw [slice_of_offsets (firstOffset_eq_ok (hfirst ▸ ha)) (endOffset_eq_ok (hlast ▸ hb)),
      if_pos ⟨hfl, hlength⟩, narrow_eq_ok_iff hv hfl hlength]
    rwa [hfirst, hlast, Nat.add_sub_cancel_left]

theorem sliceLength_eq_ok_iff (hv : v.start ≤ v.stop) {i : Index} {count : UInt64} :
    v.sliceLength i count = .ok w ↔
      ∃ e, (Narrowing.sliceLength i count).extent? v.length.toNat = some e ∧ w.IsPart v e := by
  constructor
  · intro h
    rcases sliceLength_cases hv i count with ⟨first, last, hfirst, hsum, hle, hlength, h'⟩ | h' | ⟨first, h'⟩
    · have hpart := (narrow_eq_ok_iff hv hle hlength).1 ((narrow_eq_ok hv hle hlength).trans (h' ▸ h))
      rw [bound_eq_ok_iff] at hfirst
      rw [checkedAdd_eq_some_iff] at hsum
      refine ⟨_, ?_, hpart⟩
      rw [UInt64.le_iff_toNat_le] at hle hlength
      rw [Narrowing.extent?, hfirst, Option.bind_some, Extent.between?_eq_some_iff]
      exact ⟨rfl, by simp only; omega, by omega⟩
    · rw [h'] at h
      cases h
    · rw [h'] at h
      cases h
  · rintro ⟨e, he, hw⟩
    obtain ⟨a, ha, he⟩ := Option.bind_eq_some_iff.1 he
    obtain ⟨rfl, hcount, hle⟩ := Extent.between?_eq_some_iff.1 he
    obtain ⟨last, hlast⟩ := exists_toNat_eq hle
    obtain ⟨first, hfirst⟩ := exists_toNat_eq (b := last) (m := e.start) (by omega)
    have hfl : first ≤ last := UInt64.le_iff_toNat_le.2 (by omega)
    have hlength : last ≤ v.length := UInt64.le_iff_toNat_le.2 (by omega)
    have hsum : checkedAdd first count = some last := checkedAdd_eq_some_iff.2 (by omega)
    rw [sliceLength_of_bound (bound_eq_ok_iff.2 (hfirst ▸ ha)), hsum,
      Option.filter_some_pos (by simpa using hlength), narrow_eq_ok_iff hv hfl hlength]
    rwa [hfirst, hlast, ← hcount, Nat.add_sub_cancel_left]

/-- The offsets that a step comes to are words. The sum for an extent is checked. -/
def InWordsAt (v : View) : Narrowing → Prop
  | .slice lower upper => v.InWords lower upper
  | .range lower upper => v.InWords (lower.map .fromStart) (upper.map .fromStart)
  | .sliceLength _ _ => True

theorem inWordsAt_of_length_lt (hl : v.length < lastWord) (n : Narrowing) : v.InWordsAt n := by
  cases n with
  | slice lower upper | range lower upper => exact inWords_of_length_lt hl _ _
  | sliceLength i count => trivial

/-- **One step** succeeds just when it asks for a part of the view, and leads to that part. -/
theorem narrowed_eq_ok_iff (hv : v.start ≤ v.stop) {n : Narrowing} (hwords : v.InWordsAt n) :
    v.narrowed n = .ok w ↔ ∃ e, n.extent? v.length.toNat = some e ∧ w.IsPart v e := by
  cases n with
  | slice lower upper => exact slice_eq_ok_iff hv hwords
  | range lower upper => exact slice_eq_ok_iff hv hwords
  | sliceLength i count => exact sliceLength_eq_ok_iff hv

/-- The failures of a step: the faults of bounds and extents that name the length of the view itself. -/
inductive Outside (length : UInt64) : Fault → Prop
  | bound (i) : Outside length (.boundOutOfRange i length)
  | range (first last) : Outside length (.rangeOutOfRange first last length)
  | extent (count first) : Outside length (.extentOutOfRange count first length)

theorem narrowed_cases (hv : v.start ≤ v.stop) (n : Narrowing) :
    (∃ w, v.narrowed n = .ok w) ∨ ∃ f, v.narrowed n = .error f ∧ Outside v.length f := by
  cases n with
  | slice lower upper =>
    rcases slice_cases hv lower upper with ⟨_, _, -, -, -, -, h⟩ | ⟨i, h⟩ | ⟨first, last, h⟩
    · exact .inl ⟨_, h⟩
    · exact .inr ⟨_, h, .bound i⟩
    · exact .inr ⟨_, h, .range first last⟩
  | range lower upper =>
    rcases slice_cases hv (lower.map .fromStart) (upper.map .fromStart) with
      ⟨_, _, -, -, -, -, h⟩ | ⟨i, h⟩ | ⟨first, last, h⟩
    · exact .inl ⟨_, h⟩
    · exact .inr ⟨_, h, .bound i⟩
    · exact .inr ⟨_, h, .range first last⟩
  | sliceLength i count =>
    rcases sliceLength_cases hv i count with ⟨_, _, -, -, -, -, h⟩ | h | ⟨first, h⟩
    · exact .inl ⟨_, h⟩
    · exact .inr ⟨_, h, .bound i⟩
    · exact .inr ⟨_, h, .extent count first⟩

/-- **A step fails** just when the view has not what it asks for. -/
theorem extent?_eq_none_iff (hv : v.start ≤ v.stop) {n : Narrowing} (hwords : v.InWordsAt n) :
    n.extent? v.length.toNat = none ↔ ∃ f, v.narrowed n = .error f ∧ Outside v.length f := by
  constructor
  · intro hnone
    rcases narrowed_cases hv n with ⟨w, hw⟩ | hf
    · obtain ⟨e, he, -⟩ := (narrowed_eq_ok_iff hv hwords).1 hw
      rw [hnone] at he
      cases he
    · exact hf
  · rintro ⟨f, hf, -⟩
    rw [Option.eq_none_iff_forall_ne_some]
    intro e he
    obtain ⟨w, hw⟩ := exists_isPart hv (Narrowing.le_of_extent? he)
    have := (narrowed_eq_ok_iff hv hwords).2 ⟨e, he, hw⟩
    rw [hf] at this
    cases this

end View

end CanonicalText
