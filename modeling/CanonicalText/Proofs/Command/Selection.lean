import Mathlib
import CanonicalText.Command.Run
import CanonicalText.Proofs.Reader.Shapes
import CanonicalText.Proofs.View.Extents

/-!
# One line of a text

Selecting a line narrows the positions and the characters of a text to the part between two line starts. This
part has the pairs whose positions are on that line, so the lines put together are the whole text.

* `Buffer.part`, `Buffer.range_eq_part` : narrower buffers, and what they show;
* `LineIndex.cut`, `LineIndex.Indexes.cut_le_iff` : where lines start and end;
* `pairsOn`, `flatMap_pairsOn` : the pairs of one line, and all of them;
* `selectLine_eq_ok`, `selectLine_eq_error` : the buffers of a line, and lines that a text does not have.
-/

namespace CanonicalText

/-! ## Parts of lists -/

section Parts

variable {β : Type} (xs : List β)

theorem extract_append_extract {a b c : Nat} (hab : a ≤ b) (hbc : b ≤ c) :
    xs.extract a b ++ xs.extract b c = xs.extract a c := by
  have hdrop : xs.drop b = (xs.drop a).drop (b - a) := by
    rw [List.drop_drop]
    congr 1
    omega
  have hlength : c - a = (b - a) + (c - b) := by omega
  simp only [List.extract_eq_take_drop]
  rw [hdrop, hlength, List.take_add]

theorem map_extract {γ : Type} (f : β → γ) (a b : Nat) :
    (xs.map f).extract a b = (xs.extract a b).map f := by
  simp only [List.extract_eq_take_drop, List.map_take, List.map_drop]

theorem flatMap_extract {cut : Nat → Nat} (hcut : Monotone cut) (n : Nat) :
    (List.range n).flatMap (fun k => xs.extract (cut k) (cut (k + 1))) = xs.extract (cut 0) (cut n) := by
  induction n with
  | zero => simp
  | succ n ih =>
    rw [List.range_succ, List.flatMap_append, ih, List.flatMap_singleton]
    exact extract_append_extract xs (hcut (Nat.zero_le n)) (hcut (Nat.le_succ n))

/-- Entries that are picked by their places stand between these. -/
theorem filter_eq_extract {P : β → Bool} {a b : Nat} (hab : a ≤ b)
    (h : ∀ (i : Nat) (hi : i < xs.length), P xs[i] = true ↔ a ≤ i ∧ i < b) :
    xs.filter P = xs.extract a b := by
  induction xs generalizing a b with
  | nil => simp
  | cons x xs ih =>
    have hfirst : P x = true ↔ a ≤ 0 ∧ 0 < b := h 0 (Nat.zero_lt_succ _)
    have hrest : ∀ (i : Nat) (hi : i < xs.length), P xs[i] = true ↔ a ≤ i + 1 ∧ i + 1 < b :=
      fun i hi => h (i + 1) (Nat.succ_lt_succ hi)
    cases b with
    | zero =>
      have hnone : xs.filter P = xs.extract 0 0 := ih le_rfl fun i hi => by rw [hrest i hi]; omega
      rw [List.filter_cons_of_neg (by rw [hfirst]; omega), hnone]
      simp [List.extract_eq_take_drop]
    | succ b =>
      cases a with
      | zero =>
        rw [List.filter_cons_of_pos (by rw [hfirst]; omega),
          ih (Nat.zero_le b) fun i hi => by rw [hrest i hi]; omega]
        simp [List.extract_eq_take_drop]
      | succ a =>
        rw [List.filter_cons_of_neg (by rw [hfirst]; omega),
          ih (Nat.le_of_succ_le_succ hab) fun i hi => by rw [hrest i hi]; omega]
        simp [List.extract_eq_take_drop]

end Parts

/-! ## Narrower buffers -/

namespace Buffer

variable {α : Type} {b : Buffer α}

theorem covers_ofList (items : List α) : (ofList items).store.Covers (ofList items).view :=
  Store.empty.covers_allocate items.toArray

def part (b : Buffer α) (first last : UInt64) : Buffer α :=
  ⟨b.store, ⟨b.view.storage, b.view.start + first, b.view.start + last⟩⟩

section Part

variable (hb : b.store.Covers b.view) {first last : UInt64} (hle : first ≤ last) (hlast : last ≤ b.length)

include hb hle hlast

theorem narrow_eq_part : b.view.narrow first last = .ok (b.part first last).view :=
  View.narrow_eq_ok hb.start_le_stop hle hlast

theorem range_eq_part : b.range (.included first) (.excluded last) = .ok (b.part first last) := by
  have hbound : ∀ p ≤ b.length, b.view.bound (.fromStart p) = .ok p := by
    intro p hp
    have hp : p.toNat ≤ b.view.length.toNat := UInt64.le_iff_toNat_le.1 hp
    exact View.bound_eq_ok_iff.2 (by simp [Index.bound?, Index.place?, hp])
  have hlower : b.view.firstOffset (.included (.fromStart first)) = .ok first :=
    hbound first (UInt64.le_trans hle hlast)
  have hupper : b.view.endOffset (.excluded (.fromStart last)) = .ok last := hbound last hlast
  have hrange : b.view.range (.included first) (.excluded last) = b.view.narrow first last := by
    rw [View.range, Bound.map, Bound.map, View.slice_of_offsets hlower hupper, if_pos ⟨hle, hlast⟩]
  rw [range, hrange, narrow_eq_part hb hle hlast]
  rfl

theorem elements_part : (b.part first last).elements = b.elements.extract first.toNat last.toNat := by
  have hfirst := UInt64.le_trans hle hlast
  refine (b.store.elements_of_within (View.within_narrow hb.start_le_stop hle hlast)).trans ?_
  rw [View.toNat_start_add hb.start_le_stop hfirst, View.toNat_start_add hb.start_le_stop hlast,
    Nat.add_sub_cancel_left, Nat.add_sub_cancel_left]
  rfl

end Part

end Buffer

/-! ## Where lines start and end -/

namespace LineIndex

/-- The offset at which a line starts. Lines that are missing start at the end of the text. -/
def cut (index : LineIndex) (k : Nat) : UInt64 := index.starts[k]?.getD index.length

theorem cut_of_lt {index : LineIndex} {k : Nat} (hk : k < index.starts.size) :
    index.cut k = index.starts[k] := by
  rw [cut, Array.getElem?_eq_getElem hk, Option.getD_some]

theorem cut_of_le {index : LineIndex} {k : Nat} (hk : index.starts.size ≤ k) :
    index.cut k = index.length := by
  rw [cut, Array.getElem?_eq_none hk, Option.getD_none]

namespace Indexes

variable {index : LineIndex} {text : Text} (h : index.Indexes text)

include h

theorem cut_le_length (k : Nat) : (index.cut k).toNat ≤ text.length := by
  rcases Nat.lt_or_ge k index.starts.size with hk | hk
  · rw [cut_of_lt hk, h.start_le_iff k hk _ le_rfl, List.take_length]
    have := h.size
    omega
  · rw [cut_of_le hk, h.length]

/-- **A line has started** before a character just if so many line breaks come before it. -/
theorem cut_le_iff (k : Nat) {o : Nat} (ho : o < text.length) :
    (index.cut k).toNat ≤ o ↔ k ≤ lineBreaks (text.take o) := by
  rcases Nat.lt_or_ge k index.starts.size with hk | hk
  · rw [cut_of_lt hk, h.start_le_iff k hk o ho.le]
  · have := h.lineBreaks_take_lt_size o
    rw [cut_of_le hk, h.length]
    omega

theorem cut_zero : (index.cut 0).toNat = 0 := by
  have hsize : 0 < index.starts.size := by
    rw [h.size]
    omega
  have := (h.start_le_iff 0 hsize 0 (Nat.zero_le _)).2 (Nat.zero_le _)
  rw [cut_of_lt hsize]
  omega

theorem monotone_cut : Monotone fun k => (index.cut k).toNat := by
  intro j k hjk
  rcases Nat.lt_or_ge (index.cut k).toNat text.length with hlt | hge
  · exact (h.cut_le_iff j hlt).2 (hjk.trans ((h.cut_le_iff k hlt).1 le_rfl))
  · exact (h.cut_le_length j).trans hge

end Indexes

end LineIndex

/-! ## The buffers of a line -/

section Select

variable {positions : Buffer Position} {chars : Buffer Char} {line : UInt64}

theorem selectLine_eq_error
    (h : (LineIndex.ofChars chars.elements).starts.size ≤ line.toNat) :
    selectLine positions chars line =
      .error (.error (.lineOutOfRange line (LineIndex.ofChars chars.elements).lineCount)) := by
  have hstart : (LineIndex.ofChars chars.elements).lineStart? line = none := Array.getElem?_eq_none h
  simp only [selectLine, hstart]

variable (hchars : chars.store.Covers chars.view) (hlength : chars.length.toNat + 1 < UInt64.size)

include hchars

theorem indexes_elements : (LineIndex.ofChars chars.elements).Indexes chars.elements := by
  refine LineIndex.indexes_ofChars chars.elements ?_
  have helements : chars.elements.length = chars.length.toNat := Store.length_elements hchars
  rw [helements]
  exact chars.length.toNat_lt_size

theorem length_index : (LineIndex.ofChars chars.elements).length = chars.length := by
  rw [← UInt64.toNat_inj, (indexes_elements hchars).length]
  exact Store.length_elements hchars

include hlength

theorem stop_eq_cut (h : line.toNat < (LineIndex.ofChars chars.elements).starts.size) :
    ((checkedAdd line 1).bind (LineIndex.ofChars chars.elements).lineStart?).getD chars.length =
      (LineIndex.ofChars chars.elements).cut (line.toNat + 1) := by
  have hindex := indexes_elements hchars
  have hbreaks := lineBreaks_le_length chars.elements
  have hsize := hindex.size
  have helements : chars.elements.length = chars.length.toNat := Store.length_elements hchars
  have hsucc : (line + 1).toNat = line.toNat + 1 := toNat_add_one_of_lt (by omega)
  have hadd : checkedAdd line 1 = some (line + 1) := checkedAdd_eq_some_iff.2 hsucc.symm
  rw [hadd, Option.bind_some, LineIndex.lineStart?, hsucc, LineIndex.cut, length_index hchars]

section Cut

omit hlength

theorem cut_le_cut_succ (k : Nat) :
    (LineIndex.ofChars chars.elements).cut k ≤ (LineIndex.ofChars chars.elements).cut (k + 1) :=
  UInt64.le_iff_toNat_le.2 ((indexes_elements hchars).monotone_cut (Nat.le_succ k))

theorem cut_le_length (k : Nat) : (LineIndex.ofChars chars.elements).cut k ≤ chars.length := by
  have helements : chars.elements.length = chars.length.toNat := Store.length_elements hchars
  exact UInt64.le_iff_toNat_le.2 (((indexes_elements hchars).cut_le_length k).trans_eq helements)

end Cut

/-- **Selecting a line** of the text leads to its part of both buffers. -/
theorem selectLine_eq_ok (hpositions : positions.store.Covers positions.view)
    (heq : chars.length = positions.length)
    (h : line.toNat < (LineIndex.ofChars chars.elements).starts.size) :
    let index := LineIndex.ofChars chars.elements
    let start := index.cut line.toNat
    let stop := index.cut (line.toNat + 1)
    selectLine positions chars line = .ok (positions.part start stop, chars.part start stop) := by
  intro index start stop
  have hle : start ≤ stop := cut_le_cut_succ hchars line.toNat
  have hlast : stop ≤ chars.length := cut_le_length hchars (line.toNat + 1)
  have hstart : index.lineStart? line = some start := by
    show index.lineStart? line = some (index.cut line.toNat)
    rw [LineIndex.cut_of_lt h]
    exact Array.getElem?_eq_getElem h
  simp only [selectLine]
  rw [hstart]
  simp only [stop_eq_cut hchars hlength h]
  rw [Buffer.range_eq_part hpositions hle (heq ▸ hlast)]
  simp only
  rw [Buffer.range_eq_part hchars hle hlast]

end Select

/-! ## The pairs of a line -/

/-- The pairs of a text whose positions are on one line. -/
def pairsOn (text : Text) (k : Nat) : List (Position × Char) :=
  (pairs text).filter fun r => r.1.line.toNat == k

theorem length_canonicalize_lt {text : Text} (h : text.length < 2 ^ 63) :
    (canonicalize text).length + 1 < UInt64.size := by
  have hle := length_canonicalize_le text
  simp only [UInt64.size]
  omega

section Lines

variable {text : Text} (h : (canonicalize text).length + 1 < UInt64.size)

include h

theorem indexes_canonicalize : (LineIndex.ofChars (canonicalize text)).Indexes (canonicalize text) :=
  LineIndex.indexes_ofChars (canonicalize text) (by omega)

theorem pairsOn_eq_extract (k : Nat) :
    let index := LineIndex.ofChars (canonicalize text)
    pairsOn text k = (pairs text).extract (index.cut k).toNat (index.cut (k + 1)).toNat := by
  intro index
  have hindex := indexes_canonicalize h
  refine filter_eq_extract _ (hindex.monotone_cut (Nat.le_succ k)) fun i hi => ?_
  have hlt : i < (canonicalize text).length := by rwa [length_canonicalize]
  rw [getElem_pairs h hi hlt, beq_iff_eq, Position.toNat_line_after (by rw [List.length_take]; omega),
    hindex.cut_le_iff k hlt, ← Nat.not_le, hindex.cut_le_iff (k + 1) hlt]
  omega

/-- **The lines of a text** are all of it. -/
theorem flatMap_pairsOn :
    (List.range (lineBreaks (canonicalize text) + 1)).flatMap (pairsOn text) = pairs text := by
  have hindex := indexes_canonicalize h
  have hlines := flatMap_extract (pairs text) hindex.monotone_cut (lineBreaks (canonicalize text) + 1)
  have hend : (LineIndex.ofChars (canonicalize text)).cut (lineBreaks (canonicalize text) + 1) =
      (LineIndex.ofChars (canonicalize text)).length := LineIndex.cut_of_le hindex.size.le
  rw [hend, hindex.length, hindex.cut_zero, length_canonicalize] at hlines
  simp only [funext (pairsOn_eq_extract h), hlines]
  simp [List.extract_eq_take_drop]

theorem elements_readSplit : (readSplit text).1.elements = (pairs text).map (·.1) ∧
    (readSplit text).2.elements = canonicalize text := by
  have hlength := length_canonicalize text
  exact ⟨Buffer.elements_ofList _ (by rw [List.length_map]; omega),
    Buffer.elements_ofList (canonicalize text) (by omega)⟩

theorem length_readSplit : (readSplit text).2.length.toNat = (canonicalize text).length ∧
    (readSplit text).2.length = (readSplit text).1.length := by
  have hlength := length_canonicalize text
  have hchars : (readSplit text).2.length.toNat = (canonicalize text).length :=
    Buffer.length_ofList (canonicalize text) (by omega)
  have hpositions : (readSplit text).1.length.toNat = ((pairs text).map (·.1)).length :=
    Buffer.length_ofList _ (by rw [List.length_map]; omega)
  refine ⟨hchars, UInt64.toNat_inj.1 (hchars.trans (hlength.trans ?_))⟩
  rw [hpositions, List.length_map]

/-- **A line of a text that has been read** is the part of both buffers from its start to that of the next line. -/
theorem selectLine_readSplit_eq {line : UInt64} (hline : line.toNat ≤ lineBreaks (canonicalize text)) :
    let start := (LineIndex.ofChars (canonicalize text)).cut line.toNat
    let stop := (LineIndex.ofChars (canonicalize text)).cut (line.toNat + 1)
    selectLine (readSplit text).1 (readSplit text).2 line =
      .ok ((readSplit text).1.part start stop, (readSplit text).2.part start stop) := by
  obtain ⟨-, hchars⟩ := elements_readSplit h
  obtain ⟨hlength, heq⟩ := length_readSplit h
  have hsize : line.toNat < (LineIndex.ofChars (readSplit text).2.elements).starts.size := by
    rw [hchars, (indexes_canonicalize h).size]
    omega
  rw [← hchars]
  exact selectLine_eq_ok (Buffer.covers_ofList _) (by rw [hlength]; exact h) (Buffer.covers_ofList _) heq hsize

/-- The part that a line takes up has the pairs whose positions are on it. -/
theorem elements_part_readSplit (k : Nat) :
    let start := (LineIndex.ofChars (canonicalize text)).cut k
    let stop := (LineIndex.ofChars (canonicalize text)).cut (k + 1)
    ((readSplit text).1.part start stop).elements = (pairsOn text k).map (·.1) ∧
      ((readSplit text).2.part start stop).elements = (pairsOn text k).map (·.2) := by
  intro start stop
  obtain ⟨hpositions, hchars⟩ := elements_readSplit h
  obtain ⟨-, heq⟩ := length_readSplit h
  have hcovers : (readSplit text).2.store.Covers (readSplit text).2.view := Buffer.covers_ofList _
  have hcovers' : (readSplit text).1.store.Covers (readSplit text).1.view := Buffer.covers_ofList _
  have hle : start ≤ stop := by
    have hcut := cut_le_cut_succ hcovers k
    rwa [hchars] at hcut
  have hlast : stop ≤ (readSplit text).2.length := by
    have hcut := cut_le_length hcovers (k + 1)
    rwa [hchars] at hcut
  rw [Buffer.elements_part hcovers' hle (heq ▸ hlast), Buffer.elements_part hcovers hle hlast, hpositions,
    hchars, pairsOn_eq_extract h]
  exact ⟨map_extract _ _ _ _, map_extract _ _ _ _⟩

theorem selectLine_readSplit {line : UInt64} (hline : line.toNat ≤ lineBreaks (canonicalize text)) :
    ∃ ps cs, selectLine (readSplit text).1 (readSplit text).2 line = .ok (ps, cs) ∧
      cs.length = ps.length ∧
      ps.elements = (pairsOn text line.toNat).map (·.1) ∧
      cs.elements = (pairsOn text line.toNat).map (·.2) :=
  ⟨_, _, selectLine_readSplit_eq h hline, rfl, elements_part_readSplit h line.toNat⟩

theorem selectLine_readSplit_of_lt {line : UInt64} (hline : lineBreaks (canonicalize text) < line.toNat) :
    selectLine (readSplit text).1 (readSplit text).2 line =
      .error (.error (.lineOutOfRange line (UInt64.ofNat (lineBreaks (canonicalize text) + 1)))) := by
  obtain ⟨-, hchars⟩ := elements_readSplit h
  have hsize := (indexes_canonicalize h).size
  rw [selectLine_eq_error (by rw [hchars]; omega), hchars, LineIndex.lineCount, hsize]

end Lines

end CanonicalText
