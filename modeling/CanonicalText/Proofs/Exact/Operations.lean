import Mathlib
import CanonicalText.Proofs.Exact.LineIndex
import CanonicalText.Proofs.Exact.View
import CanonicalText.Proofs.View.Paths

/-!
# Words for numbers

Storages and texts that are less than half as long as words can count leave room for every sum that is made of their
offsets. So all operations on them come to the same whatever the arithmetic is: words wrap around nowhere, and numbers
without an end give nothing else. What is asked for may be any word.

* `Store.Short` : storages that leave that room;
* `Exact.selectLine`, `exact_selectLine` : the buffers of a line;
* `View.Agrees`, `Cursor.Agrees`, `LineIndex.Agrees` : all operations on one of these, in words and in numbers;
* `operations_never_wrap` : they agree wherever calls lead to.
-/

namespace CanonicalText

/-! ## Storages -/

namespace Store

variable {α : Type} {s : Store α} {v : View}

/-- No storage is as long as `2 ^ 63`. -/
def Short (s : Store α) : Prop := ∀ n ∈ s.sizes, n < 2 ^ 63

theorem Short.length_lt (hs : s.Short) (h : s.Covers v) : v.length.toNat < 2 ^ 63 := by
  obtain ⟨hle, n, hn, hstop⟩ := covers_iff_sizes.1 h
  have hsize := hs n (List.mem_of_getElem? hn)
  rw [View.toNat_length hle]
  omega

theorem Short.length_lt_lastWord (hs : s.Short) (h : s.Covers v) : v.length < lastWord :=
  UInt64.lt_iff_toNat_lt.2 ((hs.length_lt h).trans (by decide))

end Store

/-! ## The buffers of a line -/

namespace Exact

structure Buffer (α : Type) where
  store : Store α
  view : View

variable {α : Type} (ar : Arithmetic)

def Buffer.elements (b : Buffer α) : List α := b.view.elements b.store

def Buffer.range (b : Buffer α) (lower upper : Bound Nat) : Except Failure (Buffer α) := do
  return { b with view := ← b.view.range ar lower upper }

def selectLine (positions : Buffer CanonicalText.Position) (chars : Buffer Char) (line : Nat) :
    Except Failure (Buffer CanonicalText.Position × Buffer Char) := do
  let index ← LineIndex.ofChars ar chars.elements
  match index.lineStart? line with
  | none => .error (.lineOutOfRange line index.lineCount)
  | some start =>
    let length ← chars.view.length ar
    let stop := ((ar.checkedAdd line 1).bind index.lineStart?).getD length
    let positions ← positions.range ar (.included start) (.excluded stop)
    let chars ← chars.range ar (.included start) (.excluded stop)
    return (positions, chars)

variable {ar}

theorem selectLine_of_start {positions : Buffer CanonicalText.Position} {chars : Buffer Char} {index : LineIndex}
    {line start length stop : Nat} (hindex : LineIndex.ofChars ar chars.elements = .ok index)
    (hstart : index.lineStart? line = some start) (hlength : chars.view.length ar = .ok length)
    (hstop : ((ar.checkedAdd line 1).bind index.lineStart?).getD length = stop) :
    selectLine ar positions chars line = (do
      let positions ← positions.range ar (.included start) (.excluded stop)
      let chars ← chars.range ar (.included start) (.excluded stop)
      return (positions, chars)) := by
  subst hstop
  rw [selectLine, hindex]
  show (match index.lineStart? line with | none => _ | some start => _) = _
  rw [hstart, hlength]
  rfl

theorem selectLine_of_none {positions : Buffer CanonicalText.Position} {chars : Buffer Char} {index : LineIndex}
    {line : Nat} (hindex : LineIndex.ofChars ar chars.elements = .ok index) (hstart : index.lineStart? line = none) :
    selectLine ar positions chars line = .error (.lineOutOfRange line index.lineCount) := by
  rw [selectLine, hindex]
  show (match index.lineStart? line with | none => _ | some start => _) = _
  rw [hstart]

end Exact

open Exact (result)

def Buffer.exact {α : Type} (b : Buffer α) : Exact.Buffer α := ⟨b.store, b.view.exact⟩

theorem Buffer.exact_range {α : Type} {b : Buffer α} (ar : Exact.Arithmetic) (hb : b.store.Covers b.view)
    (hl : b.length < lastWord) (lower upper : Bound UInt64) :
    b.exact.range ar (lower.map UInt64.toNat) (upper.map UInt64.toNat) = result exact (b.range lower upper) := by
  rw [Exact.Buffer.range, range]
  show (b.view.exact.range ar _ _ >>= _) = _
  rw [View.exact_range ar hb.start_le_stop hl]
  cases b.view.range lower upper <;> rfl

theorem LineIndex.Indexes.exact_lineCount {index : LineIndex} {text : Text} (h : index.Indexes text)
    (hlen : text.length + 1 < UInt64.size) : index.exact.lineCount = index.lineCount.toNat := by
  rw [h.lineCount_toNat hlen, ← h.size]
  exact Array.size_map

section Select

variable {positions : Buffer Position} {chars : Buffer Char} {line : UInt64}

theorem result_selectLine {start stop : UInt64}
    (hstart : (LineIndex.ofChars chars.elements).lineStart? line = some start)
    (hstop : ((checkedAdd line 1).bind (LineIndex.ofChars chars.elements).lineStart?).getD chars.length = stop) :
    result (Prod.map Buffer.exact Buffer.exact) (selectLine positions chars line) = (do
      let positions ← result Buffer.exact (positions.range (.included start) (.excluded stop))
      let chars ← result Buffer.exact (chars.range (.included start) (.excluded stop))
      return (positions, chars)) := by
  subst hstop
  simp only [selectLine, hstart]
  cases positions.range _ _ with
  | error f => rfl
  | ok positions => cases chars.range _ _ <;> rfl

variable (ar : Exact.Arithmetic) (hchars : chars.store.Covers chars.view)
  (hlength : chars.length.toNat + 1 < UInt64.size)

include hchars hlength

theorem exact_stop (h : line.toNat < (LineIndex.ofChars chars.elements).starts.size) :
    let index := LineIndex.ofChars chars.elements
    ((ar.checkedAdd line.toNat 1).bind index.exact.lineStart?).getD chars.length.toNat =
      (((checkedAdd line 1).bind index.lineStart?).getD chars.length).toNat := by
  intro index
  have hindex := indexes_elements hchars
  have hbreaks := lineBreaks_le_length chars.elements
  have hsize := hindex.size
  have helements : chars.elements.length = chars.length.toNat := Store.length_elements hchars
  have hsucc : (line + 1).toNat = line.toNat + 1 := toNat_add_one_of_lt (by omega)
  have hsum : checkedAdd line 1 = some (line + 1) := checkedAdd_eq_some_iff.2 hsucc.symm
  rw [ar.checkedAdd_eq (by omega), hsum, Option.bind_some, Option.bind_some, ← hsucc, LineIndex.exact_lineStart?]
  exact Option.getD_map ..

/-- **Selecting a line** comes to the same in numbers. -/
theorem exact_selectLine (hpositions : positions.store.Covers positions.view)
    (hlast : positions.length < lastWord) :
    Exact.selectLine ar positions.exact chars.exact line.toNat =
      result (Prod.map Buffer.exact Buffer.exact) (selectLine positions chars line) := by
  have hindex := indexes_elements hchars
  have helements : chars.elements.length = chars.length.toNat := Store.length_elements hchars
  have hlen : chars.elements.length + 1 < UInt64.size := helements ▸ hlength
  have hofChars : Exact.LineIndex.ofChars ar chars.exact.elements = .ok (LineIndex.ofChars chars.elements).exact :=
    LineIndex.exact_ofChars ar (show chars.elements.length < UInt64.size by omega)
  have hstart := LineIndex.exact_lineStart? (LineIndex.ofChars chars.elements) line.toNat
  by_cases h : line.toNat < (LineIndex.ofChars chars.elements).starts.size
  · have hl : chars.length < lastWord := by
      rw [UInt64.lt_iff_toNat_lt, toNat_lastWord]
      omega
    rw [Array.getElem?_eq_getElem h] at hstart
    rw [Exact.selectLine_of_start hofChars hstart (View.exact_length ar hchars.start_le_stop)
      (exact_stop ar hchars hlength h), result_selectLine (Array.getElem?_eq_getElem h) rfl]
    generalize ((checkedAdd line 1).bind (LineIndex.ofChars chars.elements).lineStart?).getD chars.length = stop
    generalize (LineIndex.ofChars chars.elements).starts[line.toNat] = start
    have hfirst := Buffer.exact_range ar hpositions hlast (.included start) (.excluded stop)
    have hsecond := Buffer.exact_range ar hchars hl (.included start) (.excluded stop)
    simp only [Bound.map] at hfirst hsecond
    rw [hfirst, hsecond]
  · rw [Array.getElem?_eq_none (Nat.not_lt.1 h)] at hstart
    rw [Exact.selectLine_of_none hofChars hstart, hindex.exact_lineCount hlen, selectLine_eq_error (Nat.not_lt.1 h)]
    rfl

end Select

/-! ## All operations -/

section Agrees

variable {α : Type} (ar : Exact.Arithmetic)

/-- What is asked of a view comes to the same in numbers: to the same value, or to the same failure. -/
structure View.Agrees (s : Store α) (v : View) : Prop where
  canGet (i : Index) : v.exact.canGet ar i.exact = .ok (v.canGet i)
  get (i : Index) : v.exact.get ar s i.exact = result id (s.get v i)
  set (i : Index) (x : α) : v.exact.set ar s i.exact x = result id (s.set v i x)
  slice (lower upper : Bound Index) :
    v.exact.slice ar (lower.map Index.exact) (upper.map Index.exact) = result View.exact (v.slice lower upper)
  range (lower upper : Bound UInt64) :
    v.exact.range ar (lower.map UInt64.toNat) (upper.map UInt64.toNat) = result View.exact (v.range lower upper)
  sliceLength (i : Index) (count : UInt64) :
    v.exact.sliceLength ar i.exact count.toNat = result View.exact (v.sliceLength i count)

/-- The steps of a walk come to the same in numbers, one by one and many at once. -/
structure Cursor.Agrees (s : Store α) (c : Cursor) : Prop where
  length : c.exact.length ar = .ok c.length.toNat
  next : c.exact.next ar s = .ok ((c.next s).1, (c.next s).2.exact)
  nextBack : c.exact.nextBack ar s = .ok ((c.nextBack s).1, (c.nextBack s).2.exact)
  skipTo (n : Nat) :
    Exact.Cursor.skipToBy (Exact.Cursor.next ar s) n c.exact = .ok ((c.skipTo s n).1, (c.skipTo s n).2.exact)
  skipToBack (n : Nat) :
    Exact.Cursor.skipToBy (Exact.Cursor.nextBack ar s) n c.exact =
      .ok ((c.skipToBack s n).1, (c.skipToBack s n).2.exact)
  rest : c.exact.restBy ar (Exact.Cursor.next ar s) = .ok ((c.rest s).1, (c.rest s).2.exact)
  restBack : c.exact.restBy ar (Exact.Cursor.nextBack ar s) = .ok ((c.restBack s).1, (c.restBack s).2.exact)

/-- The index of a text is the same in numbers, and so is what it answers. -/
structure LineIndex.Agrees (text : Text) : Prop where
  ofChars : Exact.LineIndex.ofChars ar text = .ok (ofChars text).exact
  lineCount : (LineIndex.ofChars text).exact.lineCount = (LineIndex.ofChars text).lineCount.toNat
  lineStart? (line : UInt64) :
    (LineIndex.ofChars text).exact.lineStart? line.toNat = ((LineIndex.ofChars text).lineStart? line).map UInt64.toNat
  position? (o : UInt64) :
    (LineIndex.ofChars text).exact.position? ar o.toNat =
      .ok (((LineIndex.ofChars text).position? o).map Position.exact)
  offset? (p : Position) :
    (LineIndex.ofChars text).exact.offset? ar p.exact = .ok (((LineIndex.ofChars text).offset? p).map UInt64.toNat)

variable {s : Store α} {v : View} {c : Cursor}

theorem View.agrees (h : s.Covers v) (hl : v.length < lastWord) : v.Agrees ar s where
  canGet := exact_canGet ar h.start_le_stop
  get := exact_get ar h
  set := exact_set ar h
  slice := exact_slice ar h.start_le_stop hl
  range := exact_range ar h.start_le_stop hl
  sliceLength := exact_sliceLength ar h.start_le_stop

theorem Cursor.Walks.agrees (h : c.Walks s) : c.Agrees ar s where
  length := exact_length ar h.front_le_back
  next := exact_next ar h
  nextBack := exact_nextBack ar h
  skipTo := exact_skipToBy (exactStep_next ar s) h
  skipToBack := exact_skipToBy (exactStep_nextBack ar s) h
  rest := exact_restBy ar (exactStep_next ar s) h
  restBack := exact_restBy ar (exactStep_nextBack ar s) h

theorem LineIndex.agrees {text : Text} (h : text.length + 1 < UInt64.size) : LineIndex.Agrees ar text := by
  have hindex := indexes_ofChars text (by omega)
  exact ⟨exact_ofChars ar (by omega), hindex.exact_lineCount h, fun line => exact_lineStart? _ line.toNat,
    hindex.exact_position? ar h, hindex.exact_offset? ar h⟩

end Agrees

/-- **No arithmetic on offsets wraps around**, as long as storages and texts are shorter than `2 ^ 63`: views,
cursors and line indices answer as they do in numbers, whatever becomes of sums and differences that are no words.
These can be exact (`Arithmetic.unbounded`) or refused (`Arithmetic.checked`). -/
theorem operations_never_wrap {α : Type} [BEq α] [Element α] (ar : Exact.Arithmetic) :
    (∀ path : List (Move α),
      let s := (Point.start.after path).session
      s.store.Short → (∀ v ∈ s.views, v.Agrees ar s.store) ∧ ∀ c ∈ s.cursors, c.Agrees ar s.store) ∧
    (∀ text : Text, text.length < 2 ^ 63 → LineIndex.Agrees ar text) ∧
    ∀ (positions : Buffer Position) (chars : Buffer Char),
      positions.store.Short → positions.store.Covers positions.view →
      chars.store.Short → chars.store.Covers chars.view →
        ∀ line : UInt64, Exact.selectLine ar positions.exact chars.exact line.toNat =
          result (Prod.map Buffer.exact Buffer.exact) (selectLine positions chars line) := by
  refine ⟨fun path => ?_, fun text h => ?_, ?_⟩
  · intro s hshort
    have hbounded : s.Bounded := Point.bounded_after Session.bounded_empty path
    refine ⟨fun v hv => ?_, fun c hc => (hbounded.walks c hc).agrees ar⟩
    have hcovers := hbounded.covers v hv
    exact View.agrees ar hcovers (hshort.length_lt_lastWord hcovers)
  · have hsize : (2 : Nat) ^ 63 < UInt64.size := by decide
    exact LineIndex.agrees ar (by omega)
  · intro positions chars hpositions hcovers hchars hcovers' line
    have hsize : (2 : Nat) ^ 63 < UInt64.size := by decide
    have hlength : chars.length.toNat < 2 ^ 63 := hchars.length_lt hcovers'
    exact exact_selectLine ar hcovers' (by omega) hcovers (hpositions.length_lt_lastWord hcovers)

/-- A slice with a cursor on it, an index of two lines, and the second of these selected. -/
theorem operations_never_wrap_of_slice :
    let path : List (Move Char) :=
      [.perform (.create ['a', 'b', 'c']), .perform (.slice 0 (.included (.fromStart 1)) .unbounded),
        .perform (.walk 1)]
    let s := (Point.start.after path).session
    let v : View := ⟨0, 1, 3⟩
    let text := ['a', '\n', 'b']
    s.store.Short ∧ v ∈ s.views ∧ v.Agrees .unbounded s.store ∧
      Cursor.mk v 0 2 ∈ s.cursors ∧ (Cursor.mk v 0 2).Agrees .checked s.store ∧
      text.length < 2 ^ 63 ∧ LineIndex.Agrees .checked text ∧
      (readSplit text).1.store.Short ∧ (readSplit text).1.store.Covers (readSplit text).1.view ∧
      (readSplit text).2.store.Short ∧ (readSplit text).2.store.Covers (readSplit text).2.view ∧
      Exact.selectLine .checked (readSplit text).1.exact (readSplit text).2.exact (1 : UInt64).toNat =
        result (Prod.map Buffer.exact Buffer.exact) (selectLine (readSplit text).1 (readSplit text).2 1) := by
  intro path s v text
  have hshort {α : Type} {t : Store α} (h : t.sizes = [3]) : t.Short := by
    intro n hn
    rw [h, List.mem_singleton] at hn
    exact hn.trans_lt (by decide)
  have hs : s.store.Short := hshort (by decide +kernel)
  have hv : v ∈ s.views := by decide +kernel
  have hc : Cursor.mk v 0 2 ∈ s.cursors := by decide +kernel
  have hpositions : (readSplit text).1.store.Short := hshort (by decide +kernel)
  have hchars : (readSplit text).2.store.Short := hshort (by decide +kernel)
  obtain ⟨hunbounded, -, -⟩ := operations_never_wrap (α := Char) .unbounded
  obtain ⟨hchecked, hindex, hselect⟩ := operations_never_wrap (α := Char) .checked
  refine ⟨hs, hv, (hunbounded path hs).1 v hv, hc, (hchecked path hs).2 _ hc, by decide, hindex text (by decide),
    hpositions, Buffer.covers_ofList _, hchars, Buffer.covers_ofList _, ?_⟩
  exact hselect _ _ hpositions (Buffer.covers_ofList _) hchars (Buffer.covers_ofList _) 1

end CanonicalText
