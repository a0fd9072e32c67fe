import Mathlib
import CanonicalText.Reader.Shapes
import CanonicalText.Proofs.LineIndex
import CanonicalText.Proofs.Reader.Ends
import CanonicalText.Proofs.View.Windows

/-!
# The shapes of a text agree

A text is read as a stream, as characters, as pairs, and as positions beside characters; a line index of
the characters finds positions in its own way. All of these say the same.

* `Buffer.elements_ofList`, `Buffer.get_ofList` : a new buffer holds what it was made from;
* `read_eq_collect`, `readPositioned_eq_collect`, `readSplit_eq_collectBoth` : the loops that fill the buffers;
* `getElem_pairs`, `position?_read` : the place of a pair, and the line index of what is read;
* `shapes_agree` : the shapes and the line index of a text.
-/

namespace CanonicalText

/-! ## New buffers -/

namespace Buffer

variable {α : Type} (items : List α)

theorem storage_ofList : (ofList items).store.storage 0 = items.toArray := rfl

theorem length_ofList (h : items.length < UInt64.size) : (ofList items).length.toNat = items.length := by
  have hlength : (ofList items).length = UInt64.ofNat items.length - 0 := rfl
  rw [hlength, UInt64.sub_zero, UInt64.toNat_ofNat_of_lt' h]

theorem elements_ofList (h : items.length < UInt64.size) : (ofList items).elements = items := by
  have helements : (ofList items).elements =
      (items.toArray.extract 0 (UInt64.ofNat items.length).toNat).toList := rfl
  rw [helements, UInt64.toNat_ofNat_of_lt' h]
  simp

theorem get_ofList (h : items.length < UInt64.size) {i : UInt64} (hi : i.toNat < items.length) :
    (ofList items).store.get (ofList items).view (.fromStart i) = .ok items[i.toNat] := by
  have hlt : i < (ofList items).view.length := by
    rw [UInt64.lt_iff_toNat_lt]
    exact hi.trans_eq (length_ofList items h).symm
  have hposition : (ofList items).view.position? (.fromStart i) = some i := by
    simp [View.position?, Index.resolve?, hlt]
  have hcell : ((ofList items).store.storage 0)[(0 + i).toNat]? = some items[i.toNat] := by
    simp [storage_ofList, hi]
  exact Store.get_of_position? hposition hcell

end Buffer

/-! ## The loops that fill buffers -/

namespace Stream

variable {σ β : Type} [Source σ]

/-- Pushes what is wanted of each item, up to the next end or for so many items. -/
def collect (wanted : Position × Char → β) : Nat → Stream σ → Array β → Array β × Stream σ
  | 0, s, out => (out, s)
  | n + 1, s, out =>
    match s.next with
    | (none, s) => (out, s)
    | (some item, s) => collect wanted n s (out.push (wanted item))

def collectBoth : Nat → Stream σ → Array Position × Array Char → (Array Position × Array Char) × Stream σ
  | 0, s, out => (out, s)
  | n + 1, s, out =>
    match s.next with
    | (none, s) => (out, s)
    | (some (p, c), s) => collectBoth n s (out.1.push p, out.2.push c)

theorem collect_eq_take (wanted : Position × Char → β) (n : Nat) (s : Stream σ) (out : Array β) :
    s.collect wanted n out = (out ++ ((s.take n).1.map wanted).toArray, (s.take n).2) := by
  induction n generalizing s out with
  | zero => simp [collect, take]
  | succ n ih =>
    rw [collect, take]
    rcases s.next with ⟨_ | item, s⟩
    · simp
    · simp [ih]

theorem collectBoth_eq_take (n : Nat) (s : Stream σ) (out : Array Position × Array Char) :
    s.collectBoth n out =
      ((out.1 ++ ((s.take n).1.map (·.1)).toArray, out.2 ++ ((s.take n).1.map (·.2)).toArray), (s.take n).2) := by
  induction n generalizing s out with
  | zero => simp [collectBoth, take]
  | succ n ih =>
    rw [collectBoth, take]
    rcases s.next with ⟨_ | item, s⟩
    · simp
    · simp [ih]

/-- The items of a text are no more than its characters, so a loop for one more meets the end. -/
theorem take_ofText (text : Text) : ((ofSource (Chunks.ofList [text])).take (text.length + 1)).1 = pairs text :=
  congrArg (·.1) (Option.some.inj (rest?_ofText text))

end Stream

/-! Each shape of a text is what a loop over its stream has pushed at the end. -/

theorem read_eq_collect (text : Text) :
    read text = .ofList (((Stream.ofSource (Chunks.ofList [text])).collect (·.2) (text.length + 1) #[]).1).toList := by
  rw [Stream.collect_eq_take, Stream.take_ofText, read, canonicalize]
  simp

theorem readPositioned_eq_collect (text : Text) :
    readPositioned text =
      .ofList (((Stream.ofSource (Chunks.ofList [text])).collect id (text.length + 1) #[]).1).toList := by
  rw [Stream.collect_eq_take, Stream.take_ofText, readPositioned]
  simp

theorem readSplit_eq_collectBoth (text : Text) :
    let filled := ((Stream.ofSource (Chunks.ofList [text])).collectBoth (text.length + 1) (#[], #[])).1
    readSplit text = (.ofList filled.1.toList, .ofList filled.2.toList) := by
  intro filled
  have hfilled : filled = (((pairs text).map (·.1)).toArray, ((pairs text).map (·.2)).toArray) := by
    simp only [filled, Stream.collectBoth_eq_take, Stream.take_ofText, Array.empty_append]
  rw [hfilled, readSplit]

/-! ## Characters and their places -/

section Counters

variable {text : Text} (h : (canonicalize text).length + 1 < UInt64.size)

include h

theorem endPosition_eq_after : endPosition text = .after (canonicalize text) := by
  rw [endPosition_eq_past, Position.past_origin (by omega)]

theorem toNat_line_endPosition : (endPosition text).line.toNat = lineBreaks (canonicalize text) := by
  rw [endPosition_eq_after h, Position.toNat_line_after (by omega)]

theorem getElem_pairs {i : Nat} (hi : i < (pairs text).length) (hlt : i < (canonicalize text).length) :
    (pairs text)[i] = (.after ((canonicalize text).take i), (canonicalize text)[i]) := by
  simp only [pairs_eq_placed, getElem_placed _ _ _ _ hlt]
  rw [Position.past_origin]
  rw [List.length_take]
  omega

theorem length_read : (read text).length.toNat = (canonicalize text).length :=
  Buffer.length_ofList (canonicalize text) (by omega)

theorem elements_read : (read text).elements = canonicalize text :=
  Buffer.elements_ofList (canonicalize text) (by omega)

theorem indexes_read : (LineIndex.ofChars (read text).elements).Indexes (canonicalize text) := by
  rw [elements_read h]
  exact LineIndex.indexes_ofChars (canonicalize text) (by omega)

theorem position?_length_read :
    (LineIndex.ofChars (read text).elements).position? (read text).length = some (endPosition text) := by
  rw [(indexes_read h).position?_eq_some_iff, length_read h, List.take_length]
  exact ⟨le_rfl, endPosition_eq_after h⟩

theorem position?_read {i : UInt64} (hi : i.toNat < (pairs text).length) :
    (LineIndex.ofChars (read text).elements).position? i = some (pairs text)[i.toNat].1 := by
  have hlt : i.toNat < (canonicalize text).length := by rwa [length_canonicalize]
  rw [(indexes_read h).position?_eq_some_iff, getElem_pairs h hi hlt]
  exact ⟨hlt.le, rfl⟩

theorem get_read {i : UInt64} (hi : i.toNat < (pairs text).length) :
    (read text).store.get (read text).view (.fromStart i) = .ok (pairs text)[i.toNat].2 := by
  have hlt : i.toNat < (canonicalize text).length := by rwa [length_canonicalize]
  rw [getElem_pairs h hi hlt]
  exact Buffer.get_ofList (canonicalize text) (by omega) hlt

theorem saturatingSucc_line_endPosition :
    saturatingSucc (endPosition text).line = (LineIndex.ofChars (read text).elements).lineCount := by
  have hle := lineBreaks_le_length (canonicalize text)
  rw [← UInt64.toNat_inj, toNat_saturatingSucc, (indexes_read h).lineCount_toNat h,
    toNat_line_endPosition h]
  omega

end Counters

/-! ## The shapes -/

/-- **The shapes of a text agree** with each other and with the line index of the characters. The pairs are the
characters read with the positions that the index has for them, and which it turns back into their offsets. -/
theorem shapes_agree (text : Text) (h : text.length < 2 ^ 63) :
    let chars := read text
    let index := LineIndex.ofChars chars.elements
    (∃ s, (Stream.ofSource (Chunks.ofList [text])).rest? = some (pairs text, s) ∧
      index.position? chars.length = some s.position ∧
      saturatingSucc s.position.line = index.lineCount ∧
      s.position.line.toNat + 1 = index.lineCount.toNat) ∧
    chars.length.toNat = (pairs text).length ∧
    (∀ (i : UInt64) (hi : i.toNat < (pairs text).length),
      chars.store.get chars.view (.fromStart i) = .ok (pairs text)[i.toNat].2 ∧
      index.position? i = some (pairs text)[i.toNat].1 ∧
      index.offset? (pairs text)[i.toNat].1 = some i) ∧
    (readPositioned text).elements = pairs text ∧
    (readSplit text).1.elements = (pairs text).map (·.1) ∧
    (readSplit text).2.elements = (pairs text).map (·.2) ∧
    (readSplit text).1.length = (readSplit text).2.length := by
  intro chars index
  have hpairs := length_pairs_le text
  have hcanonical := length_canonicalize text
  have hshort : (canonicalize text).length + 1 < UInt64.size := by
    simp only [UInt64.size]
    omega
  have hsize : (pairs text).length < UInt64.size := by omega
  refine ⟨⟨_, rest?_ofText text, position?_length_read hshort, saturatingSucc_line_endPosition hshort, ?_⟩,
    ?_, fun i hi => ?_, ?_, ?_, ?_, ?_⟩
  · show (endPosition text).line.toNat + 1 = index.lineCount.toNat
    rw [(indexes_read hshort).lineCount_toNat hshort, toNat_line_endPosition hshort]
  · rw [length_read hshort, hcanonical]
  · have hposition := position?_read hshort hi
    exact ⟨get_read hshort hi, hposition,
      ((indexes_read hshort).offset?_eq_some_iff hshort).2 hposition⟩
  · exact Buffer.elements_ofList _ hsize
  · exact Buffer.elements_ofList _ (by rwa [List.length_map])
  · exact Buffer.elements_ofList _ (by rwa [List.length_map])
  · have hfirst := Buffer.length_ofList ((pairs text).map (·.1)) (by rwa [List.length_map])
    have hsecond := Buffer.length_ofList ((pairs text).map (·.2)) (by rwa [List.length_map])
    rw [List.length_map] at hfirst hsecond
    exact UInt64.toNat_inj.1 (hfirst.trans hsecond.symm)

/-- A text in which two breaks of three characters come before its last line: the stream gives four items,
the last of them on the third line, and the line index finds it there. -/
theorem shapes_agree_of_mixed_breaks :
    let text : Text := ['a', '\r', '\n', '\r', 'b']
    let index := LineIndex.ofChars (read text).elements
    text.length < 2 ^ 63 ∧
      pairs text = [(⟨0, 0⟩, 'a'), (⟨0, 1⟩, '\n'), (⟨1, 0⟩, '\n'), (⟨2, 0⟩, 'b')] ∧
      (readPositioned text).elements = pairs text ∧ index.lineCount.toNat = 3 ∧
      index.position? 3 = some ⟨2, 0⟩ ∧ index.offset? ⟨2, 0⟩ = some 3 := by
  intro text index
  obtain ⟨⟨s, hrest, -, -, hcount⟩, -, hitem, hpositioned, -⟩ := shapes_agree text (by decide)
  have hs : s.position.line.toNat = 2 := by
    rw [rest?_ofText, Option.some.injEq, Prod.mk.injEq] at hrest
    rw [← hrest.2]
    rfl
  have hlast := hitem 3 (by decide)
  refine ⟨by decide, by decide, hpositioned, ?_, hlast.2⟩
  rw [← hcount, hs]

end CanonicalText
