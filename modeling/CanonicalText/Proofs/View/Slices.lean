import Mathlib
import CanonicalText.Proofs.View.Extents

/-!
# What a slice comes to

Each bound of a slice is open, included or excluded, and counts from the start of the view or back from its
end. What a slice comes to is said here by rules on natural numbers, one for the part between two bounds and one
for each way to miss it.

* `View.Slices`, `View.slice_eq_iff` : the rules, and that a slice follows them;
* `View.slice_of_first_wraps`, `View.slice_of_last_wraps` : what comes of an offset that is no word;
* `View.sliceLength_eq_ok_iff_slice` : an extent is the slice up to the sum of its offset and its length;
* `View.bound_forward` : an index from the end bounds what its offset from the start bounds;
* `View.slice_follows_bounds` : all ways to ask for a part of a view.
-/

namespace CanonicalText

/-! ## Bounds that miss -/

def Bound.index? {ι : Type} : Bound ι → Option ι
  | unbounded => none
  | included i => some i
  | excluded i => some i

/-- A bound whose index may not bound a part of a sequence of the given length. -/
def Bound.Misses (length : Nat) (bound : Bound Index) (i : Index) : Prop :=
  bound.index? = some i ∧ i.bound? length = none

/-- An index counted from the start, where the sequence is long enough. -/
def Index.forward (length : UInt64) : Index → Index
  | fromStart i => fromStart i
  | fromEnd n => if n ≤ length then fromStart (length - n) else fromEnd n

variable {length m : Nat} {b : Bound Index} {i : Index}

theorem Bound.exists_misses_of_first? (h : b.first? length = none) : ∃ i, b.Misses length i := by
  cases b with
  | unbounded => cases h
  | included i => exact ⟨i, rfl, h⟩
  | excluded i => exact ⟨i, rfl, Option.map_eq_none_iff.1 h⟩

theorem Bound.exists_misses_of_last? (h : b.last? length = none) : ∃ i, b.Misses length i := by
  cases b with
  | unbounded => cases h
  | included i => exact ⟨i, rfl, Option.map_eq_none_iff.1 h⟩
  | excluded i => exact ⟨i, rfl, h⟩

namespace View

variable {v w : View} {lower upper : Bound Index}

/-! ## The rules of slices -/

/-- **What a slice comes to.** With bounds that both resolve it is the part of the view between them, if they
are in order and not past the end. Otherwise it fails, for the first bound that misses or for the two offsets. -/
inductive Slices (v : View) (lower upper : Bound Index) : Except Fault View → Prop
  | part {first last : Nat} {w : View} (hfirst : lower.first? v.length.toNat = some first)
      (hlast : upper.last? v.length.toNat = some last) (hle : first ≤ last)
      (hend : last ≤ v.length.toNat) (storage : w.storage = v.storage)
      (start : w.start.toNat = v.start.toNat + first) (stop : w.stop.toNat = v.start.toNat + last) :
      Slices v lower upper (.ok w)
  | lowerMisses {i : Index} (h : lower.Misses v.length.toNat i) :
      Slices v lower upper (.error (.boundOutOfRange i v.length))
  | upperMisses {first : Nat} {i : Index} (hfirst : lower.first? v.length.toNat = some first)
      (h : upper.Misses v.length.toNat i) : Slices v lower upper (.error (.boundOutOfRange i v.length))
  | outside {first last : UInt64} (hfirst : lower.first? v.length.toNat = some first.toNat)
      (hlast : upper.last? v.length.toNat = some last.toNat) (h : ¬(first ≤ last ∧ last ≤ v.length)) :
      Slices v lower upper (.error (.rangeOutOfRange first last v.length))

theorem firstOffset_of_misses (h : lower.Misses v.length.toNat i) :
    v.firstOffset lower = .error (.boundOutOfRange i v.length) := by
  obtain ⟨hindex, hnone⟩ := h
  cases lower with
  | unbounded => cases hindex
  | included j =>
    cases hindex
    exact bound_eq_error hnone
  | excluded j =>
    cases hindex
    rw [firstOffset, bound_eq_error hnone]
    rfl

theorem endOffset_of_misses (h : upper.Misses v.length.toNat i) :
    v.endOffset upper = .error (.boundOutOfRange i v.length) := by
  obtain ⟨hindex, hnone⟩ := h
  cases upper with
  | unbounded => cases hindex
  | included j =>
    cases hindex
    rw [endOffset, bound_eq_error hnone]
    rfl
  | excluded j =>
    cases hindex
    exact bound_eq_error hnone

theorem slice_of_lower_misses (h : lower.Misses v.length.toNat i) :
    v.slice lower upper = .error (.boundOutOfRange i v.length) := by
  rw [slice, firstOffset_of_misses h]
  rfl

theorem slice_of_upper_misses {p : UInt64} (hp : v.firstOffset lower = .ok p)
    (h : upper.Misses v.length.toNat i) : v.slice lower upper = .error (.boundOutOfRange i v.length) := by
  rw [slice, hp, endOffset_of_misses h]
  rfl

theorem exists_firstOffset (h : lower.first? v.length.toNat = some m) : ∃ p, v.firstOffset lower = .ok p := by
  cases lower with
  | unbounded => exact ⟨0, rfl⟩
  | included i =>
    obtain ⟨p, -, hp, -⟩ := exists_bound_eq_ok h
    exact ⟨p, hp⟩
  | excluded i =>
    obtain ⟨k, hk, -⟩ := Option.map_eq_some_iff.1 h
    obtain ⟨p, -, hp, -⟩ := exists_bound_eq_ok hk
    exact ⟨p + 1, by rw [firstOffset, hp]; rfl⟩

/-- What follows the rules is what the slice comes to. -/
theorem Slices.slice_eq (hv : v.start ≤ v.stop) {r : Except Fault View} (h : v.Slices lower upper r) :
    v.slice lower upper = r := by
  cases h with
  | @part first last w hfirst hlast hle hend storage start stop =>
    obtain ⟨q, rfl⟩ := exists_toNat_eq hend
    obtain ⟨p, rfl⟩ := exists_toNat_eq hle
    have hle' : p ≤ q := UInt64.le_iff_toNat_le.2 hle
    have hend' : q ≤ v.length := UInt64.le_iff_toNat_le.2 hend
    rw [slice_of_offsets (firstOffset_eq_ok hfirst) (endOffset_eq_ok hlast), if_pos ⟨hle', hend'⟩,
      narrow_eq_ok_iff hv hle' hend']
    refine ⟨storage, start, stop.trans ?_⟩
    show v.start.toNat + q.toNat = v.start.toNat + (p.toNat + (q.toNat - p.toNat))
    omega
  | lowerMisses h => exact slice_of_lower_misses h
  | upperMisses hfirst h =>
    obtain ⟨p, hp⟩ := exists_firstOffset hfirst
    exact slice_of_upper_misses hp h
  | outside hfirst hlast h => rw [slice_of_offsets (firstOffset_eq_ok hfirst) (endOffset_eq_ok hlast), if_neg h]

theorem exists_slices (hv : v.start ≤ v.stop) (hwords : v.InWords lower upper) :
    ∃ r, v.Slices lower upper r := by
  cases hfirst : lower.first? v.length.toNat with
  | none =>
    obtain ⟨i, hi⟩ := Bound.exists_misses_of_first? hfirst
    exact ⟨_, .lowerMisses hi⟩
  | some first =>
    cases hlast : upper.last? v.length.toNat with
    | none =>
      obtain ⟨i, hi⟩ := Bound.exists_misses_of_last? hlast
      exact ⟨_, .upperMisses hfirst hi⟩
    | some last =>
      by_cases h : first ≤ last ∧ last ≤ v.length.toNat
      · have hsum : first + (last - first) = last := Nat.add_sub_cancel' h.1
        obtain ⟨w, hw⟩ := exists_isPart hv (e := ⟨first, last - first⟩) (hsum.trans_le h.2)
        refine ⟨_, .part hfirst hlast h.1 h.2 hw.storage hw.start (hw.stop.trans ?_)⟩
        rw [hsum]
      · obtain ⟨p, rfl⟩ := exists_toNat_eq (hwords.first _ hfirst)
        obtain ⟨q, rfl⟩ := exists_toNat_eq (hwords.last _ hlast)
        refine ⟨_, .outside hfirst hlast ?_⟩
        rwa [UInt64.le_iff_toNat_le, UInt64.le_iff_toNat_le]

/-- **A slice comes to what the rules say**, and to nothing else. -/
theorem slice_eq_iff (hv : v.start ≤ v.stop) (hwords : v.InWords lower upper) {r : Except Fault View} :
    v.slice lower upper = r ↔ v.Slices lower upper r := by
  constructor
  · rintro rfl
    obtain ⟨r, hr⟩ := exists_slices hv hwords
    rwa [hr.slice_eq hv]
  · exact fun h => h.slice_eq hv

/-! Bounds of which one comes to the offset after the last word are taken for others. -/

theorem bound?_fromStart_eq_some_iff {p : UInt64} :
    (Index.fromStart p).bound? length = some m ↔ p.toNat = m ∧ m ≤ length := by
  rw [Index.bound?, Index.place?, Option.filter_eq_some_iff, Option.some.injEq, decide_eq_true_eq]

theorem slice_of_first_wraps (h : lower.first? v.length.toNat = some UInt64.size) :
    v.slice lower upper = v.slice .unbounded upper := by
  rw [slice, slice, firstOffset_of_wraps h]
  rfl

theorem slice_of_last_wraps (h : upper.last? v.length.toNat = some UInt64.size) :
    v.slice lower upper = v.slice lower (.excluded (.fromStart 0)) := by
  have hzero : v.endOffset (.excluded (.fromStart 0)) = .ok 0 :=
    endOffset_eq_ok (bound?_fromStart_eq_some_iff.2 ⟨rfl, Nat.zero_le _⟩)
  rw [slice, slice, endOffset_of_wraps h, hzero]

theorem inWords_or_wraps (v : View) (lower upper : Bound Index) :
    v.InWords lower upper ∨ lower.first? v.length.toNat = some UInt64.size ∨
      upper.last? v.length.toNat = some UInt64.size := by
  by_cases hfirst : lower.first? v.length.toNat = some UInt64.size
  · exact .inr (.inl hfirst)
  by_cases hlast : upper.last? v.length.toNat = some UInt64.size
  · exact .inr (.inr hlast)
  refine .inl ⟨fun m hm => ?_, fun m hm => ?_⟩
  · exact le_lastWord_of_ne_size (Bound.le_of_first? hm) fun h => hfirst (h ▸ hm)
  · exact le_lastWord_of_ne_size (Bound.le_of_last? hm) fun h => hlast (h ▸ hm)

theorem elements_of_slice (hv : v.start ≤ v.stop) (hwords : v.InWords lower upper)
    (h : v.slice lower upper = .ok w) {first last : Nat}
    (hfirst : lower.first? v.length.toNat = some first) (hlast : upper.last? v.length.toNat = some last)
    {α : Type} (s : Store α) : s.elements w = (s.elements v).extract first last := by
  have hwithin := within_of_slice hv h
  cases (slice_eq_iff hv hwords).1 h with
  | @part first' last' _ hfirst' hlast' hle hend storage start stop =>
    obtain rfl : first = first' := Option.some.inj (hfirst.symm.trans hfirst')
    obtain rfl : last = last' := Option.some.inj (hlast.symm.trans hlast')
    rw [s.elements_of_within hwithin, start, stop]
    congr 1 <;> omega

/-! ## Extents as slices -/

/-- **An extent is a slice** from its offset up to the sum of its offset and its length. Where this sum is no
word there is no such slice, and no such extent. -/
theorem sliceLength_eq_ok_iff_slice (hv : v.start ≤ v.stop) {count p : UInt64}
    (hp : i.bound? v.length.toNat = some p.toNat) :
    v.sliceLength i count = .ok w ↔ ∃ q : UInt64, q.toNat = p.toNat + count.toNat ∧
      v.slice (.included (.fromStart p)) (.excluded (.fromStart q)) = .ok w := by
  have hoffset : ∀ {a : UInt64} {m : Nat}, (Index.fromStart a).bound? v.length.toNat = some m →
      a.toNat = m ∧ m ≤ v.length.toNat := bound?_fromStart_eq_some_iff.1
  have hword : ∀ a : UInt64, a.toNat ≤ lastWord.toNat := fun a => Nat.le_pred_of_lt a.toNat_lt_size
  have hwords : ∀ q, v.InWords (.included (.fromStart p)) (.excluded (.fromStart q)) := fun q =>
    ⟨fun m hm => (hoffset hm).1 ▸ hword p, fun m hm => (hoffset hm).1 ▸ hword q⟩
  rw [sliceLength_eq_ok_iff hv]
  constructor
  · rintro ⟨e, he, hw⟩
    rw [Narrowing.extent?, hp, Option.bind_some, Extent.between?_eq_some_iff] at he
    obtain ⟨hstart, hstop, hend⟩ := he
    obtain ⟨q, hq⟩ := exists_toNat_eq hend
    refine ⟨q, hq, (slice_eq_iff hv (hwords q)).2 ?_⟩
    refine .part (bound?_fromStart_eq_some_iff.2 ⟨rfl, Index.le_of_bound? hp⟩)
      (bound?_fromStart_eq_some_iff.2 ⟨rfl, hq.trans_le hend⟩) (by omega) (by omega) hw.storage ?_ ?_
    · rw [hw.start, hstart]
    · rw [hw.stop, hstop, hq]
  · rintro ⟨q, hq, hslice⟩
    cases (slice_eq_iff hv (hwords q)).1 hslice with
    | part hfirst hlast hle hend storage start stop =>
      obtain ⟨rfl, -⟩ := hoffset hfirst
      obtain ⟨rfl, -⟩ := hoffset hlast
      refine ⟨⟨p.toNat, count.toNat⟩, ?_, storage, start, stop.trans ?_⟩
      · rw [Narrowing.extent?, hp, Option.bind_some, Extent.between?_eq_some_iff]
        exact ⟨rfl, rfl, hq ▸ hend⟩
      · rw [hq]

theorem sliceLength_eq_error (hv : v.start ≤ v.stop) {count p : UInt64}
    (hp : i.bound? v.length.toNat = some p.toNat) (h : ∀ w, v.sliceLength i count ≠ .ok w) :
    v.sliceLength i count = .error (.extentOutOfRange count p v.length) := by
  have hbound := bound_eq_ok_iff.2 hp
  rw [sliceLength_of_bound hbound] at h ⊢
  split at h
  · next last hlast =>
    rw [Option.filter_eq_some_iff, decide_eq_true_eq, checkedAdd_eq_some_iff] at hlast
    exact absurd (narrow_eq_ok hv (UInt64.le_iff_toNat_le.2 (by omega)) hlast.2) (h _)
  · rfl

/-! ## Indices counted from the other end -/

/-- Counted from the start an index bounds what it bounds counted from the end. -/
theorem bound_forward (v : View) (i : Index) : v.bound (i.forward v.length) = v.bound i := by
  cases i with
  | fromStart i => rfl
  | fromEnd n =>
    by_cases hn : n ≤ v.length
    · have hle := UInt64.le_iff_toNat_le.1 hn
      have hoffset : (Index.fromEnd n).bound? v.length.toNat = some (v.length - n).toNat := by
        rw [Index.bound?, Index.place?, if_pos hle, UInt64.toNat_sub_of_le _ _ hn]
        exact Option.filter_some_pos (decide_eq_true (Nat.sub_le _ _))
      rw [Index.forward, if_pos hn, bound_eq_ok_iff.2 hoffset]
      exact bound_eq_ok_iff.2 (bound?_fromStart_eq_some_iff.2 ⟨rfl, Index.le_of_bound? hoffset⟩)
    · rw [Index.forward, if_neg hn]

theorem firstOffset_forward (v : View) (lower : Bound Index) :
    v.firstOffset (lower.map (·.forward v.length)) = v.firstOffset lower := by
  cases lower with
  | unbounded => rfl
  | included i => exact v.bound_forward i
  | excluded i => exact congrArg (·.map (· + 1)) (v.bound_forward i)

theorem endOffset_forward (v : View) (upper : Bound Index) :
    v.endOffset (upper.map (·.forward v.length)) = v.endOffset upper := by
  cases upper with
  | unbounded => rfl
  | included i => exact congrArg (·.map (· + 1)) (v.bound_forward i)
  | excluded i => exact v.bound_forward i

/-- **All ways to ask for a part of a view** come to what the rules say, as long as the offsets that the bounds
come to are words. The part shows the elements between its bounds in whatever store it is looked at. An extent is a
slice, and counting from the start what was counted from the end changes nothing. -/
theorem slice_follows_bounds (hv : v.start ≤ v.stop) :
    (∀ (lower upper : Bound Index) (r : Except Fault View), v.InWords lower upper →
      (v.slice lower upper = r ↔ v.Slices lower upper r)) ∧
    (∀ lower upper : Bound Index, v.length < lastWord → v.InWords lower upper) ∧
    (∀ lower upper : Bound Index, v.InWords lower upper ∨
      lower.first? v.length.toNat = some UInt64.size ∧ v.slice lower upper = v.slice .unbounded upper ∨
      upper.last? v.length.toNat = some UInt64.size ∧
        v.slice lower upper = v.slice lower (.excluded (.fromStart 0))) ∧
    (∀ (lower upper : Bound Index) (w : View) (first last : Nat), v.InWords lower upper →
      v.slice lower upper = .ok w → lower.first? v.length.toNat = some first →
        upper.last? v.length.toNat = some last →
          ∀ {α : Type} (s : Store α), s.elements w = (s.elements v).extract first last) ∧
    (∀ lower upper : Bound UInt64,
      v.range lower upper = v.slice (lower.map .fromStart) (upper.map .fromStart)) ∧
    (∀ (i : Index) (count : UInt64), i.bound? v.length.toNat = none →
      v.sliceLength i count = .error (.boundOutOfRange i v.length)) ∧
    (∀ (i : Index) (count p : UInt64), i.bound? v.length.toNat = some p.toNat →
      (∀ w, v.sliceLength i count = .ok w ↔ ∃ q : UInt64, q.toNat = p.toNat + count.toNat ∧
        v.slice (.included (.fromStart p)) (.excluded (.fromStart q)) = .ok w) ∧
      ((∀ w, v.sliceLength i count ≠ .ok w) →
        v.sliceLength i count = .error (.extentOutOfRange count p v.length))) ∧
    (∀ lower upper : Bound Index,
      v.slice (lower.map (·.forward v.length)) upper = v.slice lower upper ∧
      v.slice lower (upper.map (·.forward v.length)) = v.slice lower upper) ∧
    ∀ (i : Index) (count : UInt64), v.sliceLength (i.forward v.length) count = v.sliceLength i count := by
  refine ⟨fun lower upper r hwords => slice_eq_iff hv hwords,
    fun lower upper hl => inWords_of_length_lt hl lower upper, fun lower upper => ?_,
    fun lower upper w first last hwords h hfirst hlast α s => elements_of_slice hv hwords h hfirst hlast s,
    fun lower upper => rfl, fun i count h => ?_,
    fun i count p hp => ⟨fun w => sliceLength_eq_ok_iff_slice hv hp, sliceLength_eq_error hv hp⟩,
    fun lower upper => ⟨?_, ?_⟩, fun i count => ?_⟩
  · rcases v.inWords_or_wraps lower upper with h | h | h
    · exact .inl h
    · exact .inr (.inl ⟨h, slice_of_first_wraps h⟩)
    · exact .inr (.inr ⟨h, slice_of_last_wraps h⟩)
  · rw [sliceLength, bound_eq_error h]
    rfl
  · rw [slice, slice, firstOffset_forward]
  · rw [slice, slice, endOffset_forward]
  · rw [sliceLength, sliceLength, bound_forward]

/-- In a view of five elements: bounds that leave out the first and the last one, the end as an included bound, two
bounds of which both miss, and two elements counted from the end. -/
theorem slice_follows_bounds_of_five_elements :
    let v : View := ⟨0, 2, 7⟩
    v.start ≤ v.stop ∧ v.InWords (.excluded (.fromStart 0)) (.included (.fromEnd 2)) ∧
      v.Slices (.excluded (.fromStart 0)) (.included (.fromEnd 2)) (.ok ⟨0, 3, 6⟩) ∧
      (∀ s : Store Char, s.elements ⟨0, 3, 6⟩ = (s.elements v).extract 1 4) ∧
      v.Slices .unbounded (.included (.fromEnd 0)) (.error (.rangeOutOfRange 0 6 5)) ∧
      v.Slices (.included (.fromEnd 6)) (.excluded (.fromStart 9)) (.error (.boundOutOfRange (.fromEnd 6) 5)) ∧
      (∃ q : UInt64, q.toNat = 2 + 2 ∧
        v.slice (.included (.fromStart 2)) (.excluded (.fromStart q)) = .ok ⟨0, 4, 6⟩) ∧
      v.sliceLength (.fromEnd 3) lastWord = .error (.extentOutOfRange lastWord 2 v.length) ∧
      v.slice (.excluded (.fromStart 4)) .unbounded = v.slice (.excluded (.fromEnd 1)) .unbounded := by
  intro v
  obtain ⟨hslice, hwords, -, helements, -, -, hextent, hforward, -⟩ := slice_follows_bounds (v := v) (by decide)
  have hshort : v.length < lastWord := by decide
  have hrules : ∀ (lower upper : Bound Index) (r : Except Fault View), v.slice lower upper = r →
      v.Slices lower upper r := fun lower upper r => (hslice lower upper r (hwords _ _ hshort)).1
  have hmiddle : v.slice (.excluded (.fromStart 0)) (.included (.fromEnd 2)) = .ok ⟨0, 3, 6⟩ := by decide
  have hback := (hforward (.excluded (.fromEnd 1)) .unbounded).1
  rw [Bound.map, show (Index.fromEnd 1).forward v.length = .fromStart 4 by decide] at hback
  have htoolong : ∀ w, v.sliceLength (.fromEnd 3) lastWord ≠ .ok w := by
    intro w hw
    rw [show v.sliceLength (.fromEnd 3) lastWord = .error (.extentOutOfRange lastWord 2 5) by decide] at hw
    cases hw
  exact ⟨by decide, hwords _ _ hshort, hrules _ _ _ hmiddle,
    fun s => helements _ _ _ 1 4 (hwords _ _ hshort) hmiddle (by decide) (by decide) s,
    hrules _ _ _ (by decide), hrules _ _ _ (by decide), ((hextent (.fromEnd 3) 2 2 (by decide)).1 _).1 (by decide),
    (hextent (.fromEnd 3) lastWord 2 (by decide)).2 htoolong, hback⟩

/-- As many elements as the last word says, which are there if they take up no space. The end as an included bound
lies past all of them, so the rules refuse it. Its offset wraps around, and the slice comes to no elements. -/
theorem slice_past_last_word_succeeds :
    let v : View := ⟨0, 0, lastWord⟩
    let upper : Bound Index := .included (.fromStart lastWord)
    (Store.empty.allocate (Array.replicate lastWord.toNat ())).1 = v ∧
      upper.last? v.length.toNat = some (v.length.toNat + 1) ∧
      v.slice .unbounded upper = .ok ⟨0, 0, 0⟩ ∧ ¬ v.Slices .unbounded upper (v.slice .unbounded upper) := by
  intro v upper
  have hlast : upper.last? v.length.toNat = some (v.length.toNat + 1) := by decide
  have hslice : v.slice .unbounded upper = .ok ⟨0, 0, 0⟩ := by decide
  refine ⟨Store.fst_allocate_replicate _ lastWord (), hlast, hslice, ?_⟩
  rw [hslice]
  rintro (⟨-, hlast', -, hend, -⟩ | _)
  rw [hlast, Option.some.injEq] at hlast'
  omega

end View

end CanonicalText
