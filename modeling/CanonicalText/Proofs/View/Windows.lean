import Mathlib
import CanonicalText.View.Store

/-!
# Windows on storages

A view is safe to look through if it lies inside its storage (`Store.Covers`). Narrowing a view checks
the bounds against the view alone, so the narrower one lies inside the wider (`View.slice_cases`,
`View.sliceLength_cases`), and inside the storage with it.

* `Store.get_cases`, `Store.set_cases` : an access to a covered view finds a cell or fails in a known way;
* `Store.length_elements` : a covered view shows as many elements as it is long;
* `Store.elements_of_within` : a view inside of another one shows a part of what that one shows;
* `Store.Covers.of_sizes` : a covered view stays covered while storages are added and written.
-/

namespace CanonicalText

namespace View

variable {v : View}

theorem toNat_length (hv : v.start ≤ v.stop) : v.length.toNat = v.stop.toNat - v.start.toNat :=
  UInt64.toNat_sub_of_le _ _ hv

/-- Offsets in a view do not wrap around. -/
theorem toNat_start_add (hv : v.start ≤ v.stop) {p : UInt64} (hp : p ≤ v.length) :
    (v.start + p).toNat = v.start.toNat + p.toNat := by
  have hlength := toNat_length hv
  have hstop := v.stop.toNat_lt_size
  rw [UInt64.le_iff_toNat_le] at hp hv
  exact toNat_add_of_lt (by omega)

theorem position?_eq_some_iff {i : Index} {p : UInt64} :
    v.position? i = some p ↔ i.resolve? v.length = some p ∧ p < v.length := by
  simp [position?, Option.filter_eq_some_iff]

/-! ## Narrowing -/

/-- One view lies inside another of the same storage. -/
structure Within (w v : View) : Prop where
  storage : w.storage = v.storage
  start : v.start ≤ w.start
  start_le_stop : w.start ≤ w.stop
  stop : w.stop ≤ v.stop

theorem Within.refl (h : v.start ≤ v.stop) : v.Within v :=
  ⟨rfl, UInt64.le_refl _, h, UInt64.le_refl _⟩

theorem Within.trans {u w : View} (h : u.Within w) (h' : w.Within v) : u.Within v :=
  ⟨h.storage.trans h'.storage, UInt64.le_trans h'.start h.start, h.start_le_stop, UInt64.le_trans h.stop h'.stop⟩

theorem bound_cases (v : View) (i : Index) :
    (∃ p, p ≤ v.length ∧ v.bound i = .ok p) ∨ v.bound i = .error (.boundOutOfRange i v.length) := by
  unfold bound
  split
  · next p hp =>
    rw [Option.filter_eq_some_iff] at hp
    exact .inl ⟨p, by simpa using hp.2, rfl⟩
  · exact .inr rfl

theorem narrow_eq_ok (hv : v.start ≤ v.stop) {first last : UInt64} (hle : first ≤ last)
    (hlast : last ≤ v.length) :
    v.narrow first last = .ok ⟨v.storage, v.start + first, v.start + last⟩ := by
  have hfirst := toNat_start_add hv (UInt64.le_trans hle hlast)
  have hend := toNat_start_add hv hlast
  rw [UInt64.le_iff_toNat_le] at hle
  rw [narrow, ofOffsets, if_pos (UInt64.le_iff_toNat_le.2 (by omega))]

theorem within_narrow (hv : v.start ≤ v.stop) {first last : UInt64} (hle : first ≤ last)
    (hlast : last ≤ v.length) : Within ⟨v.storage, v.start + first, v.start + last⟩ v := by
  have hfirst := toNat_start_add hv (UInt64.le_trans hle hlast)
  have hend := toNat_start_add hv hlast
  have hlength := toNat_length hv
  rw [UInt64.le_iff_toNat_le] at hv hle hlast
  refine ⟨rfl, ?_, ?_, ?_⟩ <;> exact UInt64.le_iff_toNat_le.2 (by simp only; omega)

theorem firstOffset_cases (v : View) (lower : Bound Index) :
    (∃ first, v.firstOffset lower = .ok first) ∨
      ∃ i, v.firstOffset lower = .error (.boundOutOfRange i v.length) := by
  cases lower with
  | unbounded => exact .inl ⟨0, rfl⟩
  | included i =>
    rcases v.bound_cases i with ⟨p, -, h⟩ | h
    · exact .inl ⟨p, h⟩
    · exact .inr ⟨i, h⟩
  | excluded i =>
    rcases v.bound_cases i with ⟨p, -, h⟩ | h
    · exact .inl ⟨p + 1, by rw [firstOffset, h]; rfl⟩
    · exact .inr ⟨i, by rw [firstOffset, h]; rfl⟩

theorem endOffset_cases (v : View) (upper : Bound Index) :
    (∃ last, v.endOffset upper = .ok last) ∨
      ∃ i, v.endOffset upper = .error (.boundOutOfRange i v.length) := by
  cases upper with
  | unbounded => exact .inl ⟨v.length, rfl⟩
  | included i =>
    rcases v.bound_cases i with ⟨p, -, h⟩ | h
    · exact .inl ⟨p + 1, by rw [endOffset, h]; rfl⟩
    · exact .inr ⟨i, by rw [endOffset, h]; rfl⟩
  | excluded i =>
    rcases v.bound_cases i with ⟨p, -, h⟩ | h
    · exact .inl ⟨p, h⟩
    · exact .inr ⟨i, h⟩

theorem slice_of_offsets {lower upper : Bound Index} {first last : UInt64}
    (hfirst : v.firstOffset lower = .ok first) (hlast : v.endOffset upper = .ok last) :
    v.slice lower upper = if first ≤ last ∧ last ≤ v.length then v.narrow first last
      else .error (.rangeOutOfRange first last v.length) := by
  rw [slice, hfirst, hlast]
  rfl

theorem sliceLength_of_bound {i : Index} {count first : UInt64} (hfirst : v.bound i = .ok first) :
    v.sliceLength i count = match (checkedAdd first count).filter (· ≤ v.length) with
      | some last => v.narrow first last
      | none => .error (.extentOutOfRange count first v.length) := by
  rw [sliceLength, hfirst]
  rfl

/-- **What a slice can come to**: the part between two offsets of the view, a bound that is none of its
offsets, or two offsets that are in reverse or past its end. -/
theorem slice_cases (hv : v.start ≤ v.stop) (lower upper : Bound Index) :
    (∃ first last, v.firstOffset lower = .ok first ∧ v.endOffset upper = .ok last ∧ first ≤ last ∧
      last ≤ v.length ∧ v.slice lower upper = .ok ⟨v.storage, v.start + first, v.start + last⟩) ∨
    (∃ i, v.slice lower upper = .error (.boundOutOfRange i v.length)) ∨
    (∃ first last, v.slice lower upper = .error (.rangeOutOfRange first last v.length)) := by
  rcases v.firstOffset_cases lower with ⟨first, hfirst⟩ | ⟨i, hi⟩
  · rcases v.endOffset_cases upper with ⟨last, hlast⟩ | ⟨i, hi⟩
    · rw [slice_of_offsets hfirst hlast]
      split
      · next h => exact .inl ⟨first, last, hfirst, hlast, h.1, h.2, narrow_eq_ok hv h.1 h.2⟩
      · exact .inr (.inr ⟨first, last, rfl⟩)
    · refine .inr (.inl ⟨i, ?_⟩)
      rw [slice, hfirst, hi]
      rfl
  · refine .inr (.inl ⟨i, ?_⟩)
    rw [slice, hi]
    rfl

theorem within_of_slice (hv : v.start ≤ v.stop) {w : View} {lower upper : Bound Index}
    (h : v.slice lower upper = .ok w) : w.Within v := by
  rcases slice_cases hv lower upper with ⟨first, last, -, -, hle, hlast, hslice⟩ | ⟨i, hslice⟩ |
    ⟨first, last, hslice⟩
  · rw [hslice] at h
    cases h
    exact within_narrow hv hle hlast
  · rw [hslice] at h
    cases h
  · rw [hslice] at h
    cases h

theorem sliceLength_cases (hv : v.start ≤ v.stop) (i : Index) (count : UInt64) :
    (∃ first last, v.bound i = .ok first ∧ checkedAdd first count = some last ∧ first ≤ last ∧
      last ≤ v.length ∧ v.sliceLength i count = .ok ⟨v.storage, v.start + first, v.start + last⟩) ∨
    v.sliceLength i count = .error (.boundOutOfRange i v.length) ∨
    (∃ first, v.sliceLength i count = .error (.extentOutOfRange count first v.length)) := by
  rcases v.bound_cases i with ⟨first, -, hfirst⟩ | hi
  · rw [sliceLength_of_bound hfirst]
    split
    · next last hlast =>
      rw [Option.filter_eq_some_iff, decide_eq_true_eq] at hlast
      have hle : first ≤ last := by
        have := checkedAdd_eq_some_iff.1 hlast.1
        exact UInt64.le_iff_toNat_le.2 (by omega)
      exact .inl ⟨first, last, hfirst, hlast.1, hle, hlast.2, narrow_eq_ok hv hle hlast.2⟩
    · exact .inr (.inr ⟨first, rfl⟩)
  · refine .inr (.inl ?_)
    rw [sliceLength, hi]
    rfl

end View

namespace Store

variable {α : Type} {s : Store α} {v w : View}

/-- A view lies inside a storage of the store. -/
structure Covers (s : Store α) (v : View) : Prop where
  start_le_stop : v.start ≤ v.stop
  stored : v.storage < s.storages.size
  stop_le_size : v.stop.toNat ≤ (s.storage v.storage).size

theorem Covers.mono (h : s.Covers v) (hw : w.Within v) : s.Covers w where
  start_le_stop := hw.start_le_stop
  stored := hw.storage ▸ h.stored
  stop_le_size := by
    have := UInt64.le_iff_toNat_le.1 hw.stop
    rw [hw.storage]
    exact this.trans h.stop_le_size

theorem Covers.offset_lt_size (h : s.Covers v) {p : UInt64} (hp : p < v.length) :
    (v.start + p).toNat < (s.storage v.storage).size := by
  have hle := h.stop_le_size
  have hlength := View.toNat_length h.start_le_stop
  rw [View.toNat_start_add h.start_le_stop (UInt64.le_of_lt hp)]
  rw [UInt64.lt_iff_toNat_lt] at hp
  omega

theorem length_elements (h : s.Covers v) : (s.elements v).length = v.length.toNat := by
  have := h.stop_le_size
  simp only [elements, Array.length_toList, Array.size_extract, View.toNat_length h.start_le_stop]
  omega

theorem extract_extract (xs : List α) {a b i j : Nat} (hj : a + j ≤ b) :
    (xs.extract a b).extract i j = xs.extract (a + i) (a + j) := by
  simp only [List.extract_eq_take_drop, List.drop_take, List.take_take, List.drop_drop]
  congr 1
  omega

/-- A view inside of another one shows a part of what that one shows. -/
theorem elements_of_within (s : Store α) (hw : w.Within v) :
    s.elements w =
      (s.elements v).extract (w.start.toNat - v.start.toNat) (w.stop.toNat - v.start.toNat) := by
  have hstart := UInt64.le_iff_toNat_le.1 hw.start
  have hmiddle := UInt64.le_iff_toNat_le.1 hw.start_le_stop
  have hstop := UInt64.le_iff_toNat_le.1 hw.stop
  have hcells : ∀ u : View, s.elements u =
      (s.storage u.storage).toList.extract u.start.toNat u.stop.toNat := fun u => Array.toList_extract
  rw [hcells, hcells, hw.storage, extract_extract _ (by omega)]
  congr 1 <;> omega

theorem get_of_position? {i : Index} {p : UInt64} {x : α} (hp : v.position? i = some p)
    (hx : (s.storage v.storage)[(v.start + p).toNat]? = some x) : s.get v i = .ok x := by
  simp only [get, hp, hx]

/-- **What reading a covered view can come to**: the element at a place of the view, or an index that
finds none. -/
theorem get_cases (h : s.Covers v) (i : Index) :
    (∃ p, p < v.length ∧ v.position? i = some p ∧
      ∃ hcell : (v.start + p).toNat < (s.storage v.storage).size,
        s.get v i = .ok (s.storage v.storage)[(v.start + p).toNat]) ∨
    (v.position? i = none ∧ s.get v i = .error (.index ⟨i, v.length⟩)) := by
  cases hi : v.position? i with
  | none => exact .inr ⟨rfl, by simp only [get, hi]⟩
  | some p =>
    have hp := (View.position?_eq_some_iff.1 hi).2
    have hcell := h.offset_lt_size hp
    exact .inl ⟨p, hp, rfl, hcell, get_of_position? hi (Array.getElem?_eq_getElem hcell)⟩

def write (s : Store α) (number offset : Nat) (x : α) : Store α :=
  { s with storages := s.storages.setIfInBounds number ((s.storage number).setIfInBounds offset x) }

/-- **What writing to a covered view can come to**: one cell is written, or the index finds none, or the
storage is being read. -/
theorem set_cases (h : s.Covers v) (i : Index) (x : α) :
    (∃ p, p < v.length ∧ v.position? i = some p ∧ s.isBeingRead v.storage = false ∧
      s.set v i x = .ok (s.write v.storage (v.start + p).toNat x)) ∨
    (v.position? i = none ∧ s.set v i x = .error (.index ⟨i, v.length⟩)) ∨
    ((v.position? i).isSome ∧ s.isBeingRead v.storage = true ∧
      s.set v i x = .error (.fault (.storageBeingRead i))) := by
  cases hi : v.position? i with
  | none => exact .inr (.inl ⟨rfl, by simp only [set, hi]⟩)
  | some p =>
    have hp := (View.position?_eq_some_iff.1 hi).2
    cases hr : s.isBeingRead v.storage with
    | true => exact .inr (.inr ⟨rfl, rfl, by simp only [set, hi, hr, if_true]⟩)
    | false =>
      refine .inl ⟨p, hp, rfl, rfl, ?_⟩
      have hcell := h.offset_lt_size hp
      simp only [set, hi, hr, if_pos hcell, Bool.false_eq_true, if_false]
      rfl

/-! ## The sizes of storages -/

def sizes (s : Store α) : List Nat := s.storages.toList.map Array.size

theorem covers_iff_sizes :
    s.Covers v ↔ v.start ≤ v.stop ∧ ∃ n, s.sizes[v.storage]? = some n ∧ v.stop.toNat ≤ n := by
  have hsize : s.sizes[v.storage]? = s.storages[v.storage]?.map Array.size := by simp [sizes]
  constructor
  · intro h
    have hcells : s.storages[v.storage]? = some (s.storage v.storage) := by
      rw [Array.getElem?_eq_getElem h.stored, storage, Array.getElem_eq_getD]
    refine ⟨h.start_le_stop, _, ?_, h.stop_le_size⟩
    rw [hsize, hcells]
    rfl
  · rintro ⟨hle, n, hn, hstop⟩
    rw [hsize, Option.map_eq_some_iff] at hn
    obtain ⟨cells, hcells, rfl⟩ := hn
    have hstorage : s.storage v.storage = cells := by simp [storage, hcells]
    exact ⟨hle, (Array.getElem?_eq_some_iff.1 hcells).1, hstorage ▸ hstop⟩

theorem Covers.of_sizes {t : Store α} (h : s.Covers v) (hsizes : s.sizes <+: t.sizes) :
    t.Covers v := by
  obtain ⟨hle, n, hn, hstop⟩ := covers_iff_sizes.1 h
  obtain ⟨hlt, rfl⟩ := List.getElem?_eq_some_iff.1 hn
  exact covers_iff_sizes.2 ⟨hle, _, List.prefix_iff_getElem?.1 hsizes _ hlt, hstop⟩

theorem sizes_write (s : Store α) (number offset : Nat) (x : α) :
    (s.write number offset x).sizes = s.sizes := by
  apply List.ext_getElem?
  intro n
  simp only [sizes, write, Array.toList_setIfInBounds, List.getElem?_map, List.getElem?_set]
  split
  · next h =>
    subst h
    split
    · next hlt =>
      rw [Array.length_toList] at hlt
      simp [storage, hlt]
    · next hge => simp [List.getElem?_eq_none (Nat.not_lt.1 hge)]
  · rfl

theorem sizes_allocate (s : Store α) (items : Array α) :
    (s.allocate items).2.sizes = s.sizes ++ [items.size] := by
  simp [sizes, allocate]

theorem covers_allocate (s : Store α) (items : Array α) :
    (s.allocate items).2.Covers (s.allocate items).1 := by
  rw [covers_iff_sizes, sizes_allocate]
  refine ⟨UInt64.le_iff_toNat_le.2 (Nat.zero_le _), items.size, ?_, ?_⟩
  · simp [sizes, allocate]
  · show (UInt64.ofNat items.size).toNat ≤ items.size
    rw [UInt64.toNat_ofNat']
    exact Nat.mod_le _ _

/-- A new storage can have as many elements as any word says. -/
theorem fst_allocate_replicate (s : Store α) (n : UInt64) (x : α) :
    (s.allocate (Array.replicate n.toNat x)).1 = ⟨s.storages.size, 0, n⟩ := by
  rw [allocate, Array.size_replicate, UInt64.ofNat_toNat]

end Store

end CanonicalText
