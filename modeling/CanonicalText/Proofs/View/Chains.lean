import Mathlib
import CanonicalText.Proofs.View.Extents

/-!
# Chains of slices

A chain of steps narrows a view, then what is left of it, and so on. Its starts add up, so it comes to one
slice of the view that it begins with.

* `View.InWordsAlong` : chains none of whose offsets wraps around;
* `View.narrowedAll_eq_ok_iff` : which chains succeed, and the part of the view that they lead to;
* `View.sliceLength_sliceLength` : two extents in a row;
* `View.chain_eq_sliceLength` : all of this for the chains of a view.
-/

namespace CanonicalText

/-! ## What extents come to -/

/-- The parts that steps ask for, each in what the one before it has kept. -/
def Narrowing.extents? (length : Nat) : List Narrowing → Option (List Extent)
  | [] => some []
  | n :: ns => (n.extent? length).bind fun e => (extents? e.count ns).map (e :: ·)

/-- What extents come to if each of them is one of the part before it: their starts add up, and the last one
says how many elements are kept. -/
def Extent.total (length : Nat) (es : List Extent) : Extent :=
  ⟨(es.map (·.start)).sum, (es.getLast?.map (·.count)).getD length⟩

theorem Extent.total_cons (length : Nat) (e : Extent) (es : List Extent) :
    total length (e :: es) = ⟨e.start + (total e.count es).start, (total e.count es).count⟩ := by
  cases es with
  | nil => rfl
  | cons f es =>
    have hlast : (e :: f :: es).getLast? = (f :: es).getLast? := List.getLast?_cons_cons
    simp [total, hlast, List.getLast?_cons]

theorem Narrowing.le_of_extents? {length : Nat} {ns : List Narrowing} {es : List Extent}
    (h : extents? length ns = some es) :
    (Extent.total length es).start + (Extent.total length es).count ≤ length := by
  induction ns generalizing length es with
  | nil =>
    cases h
    exact (Nat.zero_add length).le
  | cons n ns ih =>
    obtain ⟨e, he, h⟩ := Option.bind_eq_some_iff.1 h
    obtain ⟨es, hes, rfl⟩ := Option.map_eq_some_iff.1 h
    have hfirst := le_of_extent? he
    have hrest := ih hes
    rw [Extent.total_cons]
    simp only
    omega

/-! ## Chains -/

namespace View

variable {v w : View}

/-- The view that steps make of a view, one after another. -/
def narrowedAll (v : View) : List Narrowing → Except Fault View
  | [] => .ok v
  | n :: ns => v.narrowed n >>= fun w => w.narrowedAll ns

theorem narrowedAll_cons_eq_ok_iff {n : Narrowing} {ns : List Narrowing} :
    v.narrowedAll (n :: ns) = .ok w ↔ ∃ u, v.narrowed n = .ok u ∧ u.narrowedAll ns = .ok w := by
  rw [narrowedAll]
  cases h : v.narrowed n with
  | error f => simp [bind, Except.bind]
  | ok u => simp [bind, Except.bind]

theorem narrowedAll_append_eq_ok_iff {ns ms : List Narrowing} :
    v.narrowedAll (ns ++ ms) = .ok w ↔ ∃ u, v.narrowedAll ns = .ok u ∧ u.narrowedAll ms = .ok w := by
  induction ns generalizing v with
  | nil => simp [narrowedAll]
  | cons n ns ih =>
    simp only [List.cons_append, narrowedAll_cons_eq_ok_iff, ih]
    constructor
    · rintro ⟨u, hu, t, ht, hw⟩
      exact ⟨t, ⟨u, hu, ht⟩, hw⟩
    · rintro ⟨t, ⟨u, hu, ht⟩, hw⟩
      exact ⟨u, hu, t, ht, hw⟩

/-- The offsets that the steps of a chain come to are words, each in what is left for the step. -/
def InWordsAlong (v : View) : List Narrowing → Prop
  | [] => True
  | n :: ns => v.InWordsAt n ∧ ∀ w, v.narrowed n = .ok w → w.InWordsAlong ns

theorem inWordsAlong_of_length_lt (hv : v.start ≤ v.stop) (hl : v.length < lastWord) (ns : List Narrowing) :
    v.InWordsAlong ns := by
  induction ns generalizing v with
  | nil => trivial
  | cons n ns ih =>
    have hwords := v.inWordsAt_of_length_lt hl n
    refine ⟨hwords, fun w hw => ?_⟩
    obtain ⟨e, he, hw⟩ := (narrowed_eq_ok_iff hv hwords).1 hw
    exact ih hw.start_le_stop (hw.length_lt hl (Narrowing.le_of_extent? he))

/-- **A chain of steps** succeeds just when every step asks for a part of what the one before it has kept,
and leads to the part of the view that these come to. -/
theorem narrowedAll_eq_ok_iff (hv : v.start ≤ v.stop) {ns : List Narrowing} (hwords : v.InWordsAlong ns) :
    v.narrowedAll ns = .ok w ↔
      ∃ es, Narrowing.extents? v.length.toNat ns = some es ∧ w.IsPart v (.total v.length.toNat es) := by
  induction ns generalizing v with
  | nil =>
    have hself := IsPart.self hv
    simp only [narrowedAll, Narrowing.extents?, Except.ok.injEq, Option.some.injEq, exists_eq_left']
    constructor
    · rintro rfl
      exact hself
    · exact fun h => hself.eq h
  | cons n ns ih =>
    obtain ⟨hn, hns⟩ := hwords
    have hstep : ∀ u, v.narrowed n = .ok u ↔ ∃ e, n.extent? v.length.toNat = some e ∧ u.IsPart v e :=
      fun u => narrowed_eq_ok_iff hv hn
    simp only [narrowedAll_cons_eq_ok_iff, Narrowing.extents?, Option.bind_eq_some_iff, Option.map_eq_some_iff]
    constructor
    · rintro ⟨u, hnu, hw⟩
      obtain ⟨e, he, hu⟩ := (hstep u).1 hnu
      obtain ⟨es, hes, hw⟩ := (ih hu.start_le_stop (hns u hnu)).1 hw
      rw [hu.toNat_length] at hes hw
      refine ⟨e :: es, ⟨e, he, es, hes, rfl⟩, ?_⟩
      rw [Extent.total_cons, hu.isPart_iff]
      exact hw
    · rintro ⟨_, ⟨e, he, es, hes, rfl⟩, hw⟩
      obtain ⟨u, hu⟩ := exists_isPart hv (Narrowing.le_of_extent? he)
      have hnu := (hstep u).2 ⟨e, he, hu⟩
      rw [Extent.total_cons, hu.isPart_iff] at hw
      refine ⟨u, hnu, (ih hu.start_le_stop (hns u hnu)).2 ⟨es, ?_, ?_⟩⟩
      · rwa [hu.toNat_length]
      · rwa [hu.toNat_length]

theorem InWordsAlong.of_append {ns ms : List Narrowing} {u : View} (hwords : v.InWordsAlong (ns ++ ms))
    (hu : v.narrowedAll ns = .ok u) : u.InWordsAlong ms := by
  induction ns generalizing v with
  | nil =>
    cases hu
    exact hwords
  | cons n ns ih =>
    obtain ⟨t, ht, hu⟩ := narrowedAll_cons_eq_ok_iff.1 hu
    exact ih (hwords.2 t ht) hu

/-! What a step comes to lies inside of the view, also where an offset has wrapped around. -/

theorem within_of_narrowed (hv : v.start ≤ v.stop) {n : Narrowing} (h : v.narrowed n = .ok w) : w.Within v := by
  cases n with
  | slice lower upper | range lower upper => exact within_of_slice hv h
  | sliceLength i count =>
    obtain ⟨e, he, hw⟩ := (sliceLength_eq_ok_iff hv).1 h
    exact hw.within hv (Narrowing.le_of_extent? he)

theorem within_of_narrowedAll (hv : v.start ≤ v.stop) {ns : List Narrowing} (h : v.narrowedAll ns = .ok w) :
    w.Within v := by
  induction ns generalizing v with
  | nil =>
    cases h
    exact .refl hv
  | cons n ns ih =>
    obtain ⟨u, hu, hw⟩ := narrowedAll_cons_eq_ok_iff.1 h
    have hwithin := within_of_narrowed hv hu
    exact (ih hwithin.start_le_stop hw).trans hwithin

theorem sliceLength_fromStart_eq_ok_iff (hv : v.start ≤ v.stop) {a count : UInt64} :
    v.sliceLength (.fromStart a) count = .ok w ↔
      a.toNat + count.toNat ≤ v.length.toNat ∧ w.IsPart v ⟨a.toNat, count.toNat⟩ := by
  rw [sliceLength_eq_ok_iff hv]
  simp only [Narrowing.extent?_fromStart]
  constructor
  · rintro ⟨e, ⟨hle, rfl⟩, hw⟩
    exact ⟨hle, hw⟩
  · rintro ⟨hle, hw⟩
    exact ⟨_, ⟨hle, rfl⟩, hw⟩

/-- Two extents succeed just when each fits into what it is taken from, and are then one extent that starts
at the sum of their offsets. -/
theorem sliceLength_sliceLength (hv : v.start ≤ v.stop) (a la b lb : UInt64) :
    (∃ u, v.sliceLength (.fromStart a) la = .ok u ∧ u.sliceLength (.fromStart b) lb = .ok w) ↔
      a.toNat + la.toNat ≤ v.length.toNat ∧ b.toNat + lb.toNat ≤ la.toNat ∧
        v.sliceLength (.fromStart (a + b)) lb = .ok w := by
  have hsum : a.toNat + la.toNat ≤ v.length.toNat → b.toNat + lb.toNat ≤ la.toNat →
      (a + b).toNat = a.toNat + b.toNat := by
    intro ha hb
    have := v.length.toNat_lt_size
    exact toNat_add_of_lt (by omega)
  rw [sliceLength_fromStart_eq_ok_iff hv]
  constructor
  · rintro ⟨u, hu, hw⟩
    obtain ⟨ha, hu⟩ := (sliceLength_fromStart_eq_ok_iff hv).1 hu
    obtain ⟨hb, hw⟩ := (sliceLength_fromStart_eq_ok_iff hu.start_le_stop).1 hw
    rw [hu.toNat_length] at hb
    rw [hsum ha hb]
    exact ⟨ha, hb, by simp only at hb; omega, hu.isPart_iff.2 hw⟩
  · rintro ⟨ha, hb, -, hw⟩
    obtain ⟨u, hu⟩ := exists_isPart hv (e := ⟨a.toNat, la.toNat⟩) ha
    refine ⟨u, (sliceLength_fromStart_eq_ok_iff hv).2 ⟨ha, hu⟩,
      (sliceLength_fromStart_eq_ok_iff hu.start_le_stop).2 ⟨?_, ?_⟩⟩
    · rw [hu.toNat_length]
      exact hb
    · rw [hsum ha hb] at hw
      exact hu.isPart_iff.1 hw

/-- **A chain of slices is one slice** of the view that it begins with: it starts at the sum of the starts that the
steps have in what is left for them, and is as long as the last step. It lies inside of every view on the way. A
step fails just when its parent has not what it asks for, unless an offset that it comes to is no word. -/
theorem chain_eq_sliceLength (hv : v.start ≤ v.stop) :
    (∀ (ns : List Narrowing) (w : View), v.InWordsAlong ns → v.narrowedAll ns = .ok w →
      ∃ es, Narrowing.extents? v.length.toNat ns = some es ∧
        ∃ a l : UInt64, a.toNat = (es.map (·.start)).sum ∧
          l.toNat = (es.getLast?.map (·.count)).getD v.length.toNat ∧
          v.sliceLength (.fromStart a) l = .ok w) ∧
    (∀ (before after : List Narrowing) (u w : View), v.narrowedAll before = .ok u →
      v.narrowedAll (before ++ after) = .ok w → w.Within u) ∧
    (∀ a la b lb : UInt64,
      ((∃ u w, v.sliceLength (.fromStart a) la = .ok u ∧ u.sliceLength (.fromStart b) lb = .ok w) ↔
        a.toNat + la.toNat ≤ v.length.toNat ∧ b.toNat + lb.toNat ≤ la.toNat) ∧
      ∀ u w, v.sliceLength (.fromStart a) la = .ok u → u.sliceLength (.fromStart b) lb = .ok w →
        v.sliceLength (.fromStart (a + b)) lb = .ok w) ∧
    (∀ (ns : List Narrowing) (u : View) (n : Narrowing), v.InWordsAlong (ns ++ [n]) → v.narrowedAll ns = .ok u →
      (n.extent? u.length.toNat = none ↔ ∃ f, u.narrowed n = .error f ∧ Outside u.length f)) ∧
    (v.length < lastWord → ∀ ns : List Narrowing, v.InWordsAlong ns) := by
  refine ⟨fun ns w hwords hw => ?_, fun before after u w hu hw => ?_,
    fun a la b lb => ⟨⟨?_, ?_⟩, fun u w hu hw => ?_⟩, fun ns u n hwords hu => ?_,
    fun hl => inWordsAlong_of_length_lt hv hl⟩
  · obtain ⟨es, hes, hpart⟩ := (narrowedAll_eq_ok_iff hv hwords).1 hw
    have hle := Narrowing.le_of_extents? hes
    obtain ⟨a, ha⟩ := exists_toNat_eq ((Nat.le_add_right _ _).trans hle)
    obtain ⟨l, hcount⟩ := exists_toNat_eq ((Nat.le_add_left _ _).trans hle)
    refine ⟨es, hes, a, l, ha, hcount, (sliceLength_fromStart_eq_ok_iff hv).2 ⟨?_, ?_⟩⟩
    · rwa [ha, hcount]
    · rwa [ha, hcount]
  · obtain ⟨u', hu', hafter⟩ := narrowedAll_append_eq_ok_iff.1 hw
    obtain rfl : u = u' := Except.ok.inj (hu.symm.trans hu')
    exact within_of_narrowedAll (within_of_narrowedAll hv hu).start_le_stop hafter
  · rintro ⟨u, w, hu, hw⟩
    obtain ⟨ha, hb, -⟩ := (sliceLength_sliceLength hv a la b lb).1 ⟨u, hu, hw⟩
    exact ⟨ha, hb⟩
  · rintro ⟨ha, hb⟩
    obtain ⟨u, hu⟩ := exists_isPart hv (e := ⟨a.toNat, la.toNat⟩) ha
    obtain ⟨w, hw⟩ := exists_isPart hu.start_le_stop (e := ⟨b.toNat, lb.toNat⟩) (hu.toNat_length ▸ hb)
    exact ⟨u, w, (sliceLength_fromStart_eq_ok_iff hv).2 ⟨ha, hu⟩,
      (sliceLength_fromStart_eq_ok_iff hu.start_le_stop).2 ⟨hu.toNat_length ▸ hb, hw⟩⟩
  · exact ((sliceLength_sliceLength hv a la b lb).1 ⟨u, hu, hw⟩).2.2
  · exact extent?_eq_none_iff (within_of_narrowedAll hv hu).start_le_stop (hwords.of_append hu).1

/-- Three steps in a window of seven elements, counted from both ends, come to the two elements from the third
on. A step for three elements fails in what is left, although the storage has them. -/
theorem chain_eq_sliceLength_of_mixed_bounds :
    let v : View := ⟨0, 2, 9⟩
    let ns : List Narrowing := [.slice (.excluded (.fromStart 0)) (.included (.fromEnd 2)),
      .range (.included 1) .unbounded, .sliceLength (.fromEnd 3) 2]
    let three : Narrowing := .sliceLength (.fromStart 0) 3
    v.start ≤ v.stop ∧ v.InWordsAlong (ns ++ [three]) ∧ v.narrowedAll ns = .ok ⟨0, 5, 7⟩ ∧
      (∃ es, Narrowing.extents? v.length.toNat ns = some es ∧
        ∃ a l : UInt64, a.toNat = (es.map (·.start)).sum ∧
          l.toNat = (es.getLast?.map (·.count)).getD v.length.toNat ∧
          v.sliceLength (.fromStart a) l = .ok ⟨0, 5, 7⟩) ∧
      (∀ u, v.narrowedAll (ns.take 1) = .ok u → View.Within ⟨0, 5, 7⟩ u) ∧
      ∃ f, View.narrowed ⟨0, 5, 7⟩ three = .error f ∧ Outside 2 f := by
  intro v ns three
  have hns : v.narrowedAll ns = .ok ⟨0, 5, 7⟩ := by decide
  obtain ⟨hchain, hinside, -, hfails, hshort⟩ := chain_eq_sliceLength (v := v) (by decide)
  have hwords := hshort (by decide)
  exact ⟨by decide, hwords _, hns, hchain ns ⟨0, 5, 7⟩ (hwords ns) hns,
    fun u hu => hinside (ns.take 1) (ns.drop 1) u _ hu hns, (hfails ns _ three (hwords _) hns).1 (by decide)⟩

/-- As many elements as the last word says, which are there if they take up no space. A step that leaves out all
of them and one more asks for what no view has, but its offset wraps around, and it comes to the whole view. -/
theorem step_past_last_word_succeeds :
    let v : View := ⟨0, 0, lastWord⟩
    let n : Narrowing := .slice (.excluded (.fromStart lastWord)) .unbounded
    (Store.empty.allocate (Array.replicate lastWord.toNat ())).1 = v ∧ n.extent? v.length.toNat = none ∧
      v.narrowed n = .ok v ∧ ¬ ∃ f, v.narrowed n = .error f := by
  intro v n
  have hn : v.narrowed n = .ok v := by decide
  refine ⟨Store.fst_allocate_replicate _ lastWord (), by decide, hn, ?_⟩
  rintro ⟨f, hf⟩
  rw [hn] at hf
  cases hf

end View

end CanonicalText
