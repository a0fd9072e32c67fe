import Mathlib
import CanonicalText.Proofs.Command.Selection

/-!
# The lines of a text

A line that is selected is a part of the text that begins at column zero and goes up to the next line break, which is
its last character; only the last line has none. Each line begins where the one before it stops, so that they make up
the text.

* `LineIndex.Indexes.getElem_eq_break_iff`, `LineIndex.Indexes.cut_lt_cut_succ` : where a line has its break;
* `getElem_pairsOn`, `getLast?_pairsOn` : the pairs of a line, one by one, and its end;
* `selectLine_cuts_at_breaks` : which lines can be selected, and what they are.
-/

namespace CanonicalText

theorem lineBreaks_take_succ_le (text : Text) (o : Nat) :
    lineBreaks (text.take (o + 1)) ≤ lineBreaks (text.take o) + 1 := by
  rw [List.take_add_one, lineBreaks_append]
  have hone : lineBreaks text[o]?.toList ≤ text[o]?.toList.length := lineBreaks_le_length _
  have hlength : text[o]?.toList.length ≤ 1 := Option.length_toList_le
  omega

/-! ## Places on a line -/

namespace LineIndex.Indexes

variable {index : LineIndex} {text : Text} (h : index.Indexes text) {k : Nat}

include h

section Place

variable {o : Nat} (hstart : (index.cut k).toNat ≤ o) (hstop : o < (index.cut (k + 1)).toNat)

include hstart hstop

theorem lineBreaks_take_eq : lineBreaks (text.take o) = k := by
  have hlt : o < text.length := hstop.trans_le (h.cut_le_length (k + 1))
  have hthis := (h.cut_le_iff k hlt).1 hstart
  have hnext := mt (h.cut_le_iff (k + 1) hlt).2 (Nat.not_le.2 hstop)
  omega

theorem cut_add_lastColumn : (index.cut k).toNat + lastColumn (text.take o) = o := by
  have hlt : o < text.length := hstop.trans_le (h.cut_le_length (k + 1))
  have hline := h.lineBreaks_take_eq hstart hstop
  have hk : k < index.starts.size := hline ▸ h.lineBreaks_take_lt_size o
  rw [cut_of_lt hk]
  exact h.start_add_lastColumn hlt.le hk hline.symm

theorem getElem_eq_break_iff (hlt : o < text.length) :
    text[o] = '\n' ↔ o + 1 = (index.cut (k + 1)).toNat ∧ k + 1 < index.starts.size := by
  have hline := h.lineBreaks_take_eq hstart hstop
  have htake : text.take (o + 1) = text.take o ++ [text[o]] := List.take_succ_eq_append_getElem hlt
  constructor
  · intro hbreak
    have hnext : lineBreaks (text.take (o + 1)) = k + 1 := by
      rw [htake, hbreak, lineBreaks_concat_break, hline]
    have hk : k + 1 < index.starts.size := hnext ▸ h.lineBreaks_take_lt_size (o + 1)
    have hle := (h.start_le_iff (k + 1) hk (o + 1) hlt).2 hnext.ge
    rw [← cut_of_lt hk] at hle
    exact ⟨by omega, hk⟩
  · rintro ⟨hlast, hk⟩
    by_contra hbreak
    have hle : (index.starts[k + 1]).toNat ≤ o + 1 := by rw [← cut_of_lt hk, hlast]
    have hnext := (h.start_le_iff (k + 1) hk (o + 1) hlt).1 hle
    rw [htake, lineBreaks_concat_of_ne _ hbreak, hline] at hnext
    omega

end Place

theorem cut_lt_cut_succ (hk : k + 1 < index.starts.size) :
    (index.cut k).toNat < (index.cut (k + 1)).toNat := by
  by_contra hge
  have hlast := h.cut_le_length k
  rw [cut_of_lt hk, cut_of_lt (by omega)] at hge
  rw [cut_of_lt (by omega)] at hlast
  have hnext := (h.start_le_iff (k + 1) hk _ hlast).1 (Nat.not_lt.1 hge)
  -- two lines that start at one place would need two breaks in the one character before it
  obtain ⟨o, ho⟩ : ∃ o, index.starts[k].toNat = o + 1 := by
    apply Nat.exists_eq_add_one.2
    by_contra hzero
    rw [Nat.eq_zero_of_not_pos hzero] at hnext
    exact Nat.not_succ_le_zero _ hnext
  have hbefore := mt (h.start_le_iff k (by omega) o (by omega)).2 (by omega)
  have hone := lineBreaks_take_succ_le text o
  rw [ho] at hnext
  omega

end LineIndex.Indexes

/-! ## The pairs of a line -/

section Lines

variable {text : Text} (h : (canonicalize text).length + 1 < UInt64.size) {k : Nat}

include h

theorem length_pairsOn :
    (pairsOn text k).length =
      ((LineIndex.ofChars (canonicalize text)).cut (k + 1)).toNat -
        ((LineIndex.ofChars (canonicalize text)).cut k).toNat := by
  have hstop := (indexes_canonicalize h).cut_le_length (k + 1)
  rw [length_canonicalize] at hstop
  rw [pairsOn_eq_extract h, List.extract_eq_take_drop, List.length_take, List.length_drop]
  omega

theorem getElem_pairsOn_eq {i o : Nat} (hi : i < (pairsOn text k).length)
    (ho : ((LineIndex.ofChars (canonicalize text)).cut k).toNat + i = o) (hlt : o < (canonicalize text).length) :
    (pairsOn text k)[i] = (.after ((canonicalize text).take o), (canonicalize text)[o]) := by
  subst ho
  have hlt' := hlt
  rw [length_canonicalize] at hlt'
  rw [← getElem_pairs h hlt' hlt]
  simp only [pairsOn_eq_extract h, List.extract_eq_take_drop, List.getElem_take, List.getElem_drop]

/-- **The pairs of a line** begin at column zero, and the break is the last of them. -/
theorem getElem_pairsOn {i : Nat} (hi : i < (pairsOn text k).length) :
    (pairsOn text k)[i].1.line.toNat = k ∧ (pairsOn text k)[i].1.column.toNat = i ∧
      ((pairsOn text k)[i].2 = '\n' ↔
        i + 1 = (pairsOn text k).length ∧ k < lineBreaks (canonicalize text)) := by
  have hindex := indexes_canonicalize h
  have hlength := length_pairsOn h (k := k)
  have hsize := hindex.size
  obtain ⟨o, ho⟩ : ∃ o, ((LineIndex.ofChars (canonicalize text)).cut k).toNat + i = o := ⟨_, rfl⟩
  have hstart : ((LineIndex.ofChars (canonicalize text)).cut k).toNat ≤ o := by omega
  have hstop : o < ((LineIndex.ofChars (canonicalize text)).cut (k + 1)).toNat := by omega
  have hlt : o < (canonicalize text).length := hstop.trans_le (hindex.cut_le_length (k + 1))
  have hbefore : ((canonicalize text).take o).length < UInt64.size := by
    rw [List.length_take]
    omega
  have hcolumn := hindex.cut_add_lastColumn hstart hstop
  rw [getElem_pairsOn_eq h hi ho hlt, Position.toNat_line_after hbefore, Position.toNat_column_after hbefore,
    hindex.lineBreaks_take_eq hstart hstop, hindex.getElem_eq_break_iff hstart hstop hlt]
  exact ⟨rfl, by omega, by omega⟩

theorem getLast?_pairsOn :
    ((pairsOn text k).map (·.2)).getLast? = some '\n' ↔ k < lineBreaks (canonicalize text) := by
  have hlength := length_pairsOn h (k := k)
  have hsize := (indexes_canonicalize h).size
  rw [List.getLast?_map, List.getLast?_eq_getElem?]
  constructor
  · intro hlast
    obtain ⟨r, hr, hbreak⟩ := Option.map_eq_some_iff.1 hlast
    obtain ⟨hi, rfl⟩ := List.getElem?_eq_some_iff.1 hr
    exact ((getElem_pairsOn h hi).2.2.1 hbreak).2
  · intro hk
    have hcut := (indexes_canonicalize h).cut_lt_cut_succ (k := k) (by omega)
    have hi : (pairsOn text k).length - 1 < (pairsOn text k).length := by omega
    rw [List.getElem?_eq_getElem hi, Option.map_some, (getElem_pairsOn h hi).2.2.2 ⟨by omega, hk⟩]

end Lines

theorem Buffer.view_part_ofList {α : Type} (items : List α) (first last : UInt64) :
    ((ofList items).part first last).view = ⟨(ofList items).view.storage, first, last⟩ := by
  show View.mk (ofList items).view.storage (0 + first) (0 + last) = _
  rw [UInt64.zero_add, UInt64.zero_add]

/-- **Lines are cut at the line breaks.** Selecting a line narrows both buffers to the same offsets, from the start
of the line up to that of the next one, so that lines cover the text without gaps; lines that are missing are
refused. -/
theorem selectLine_cuts_at_breaks (text : Text) (h : text.length < 2 ^ 63) :
    let whole := readSplit text
    let n := lineBreaks whole.2.elements + 1
    (∀ line : UInt64, n ≤ line.toNat →
      selectLine whole.1 whole.2 line = .error (.error (.lineOutOfRange line (UInt64.ofNat n)))) ∧
    n < 2 ^ 64 ∧
    ∃ cut : Nat → UInt64, cut 0 = 0 ∧ cut n = whole.2.length ∧ (∀ k, cut k ≤ cut (k + 1)) ∧
      ∀ line : UInt64, line.toNat < n →
        ∃ ps cs, selectLine whole.1 whole.2 line = .ok (ps, cs) ∧
          ps.store = whole.1.store ∧ cs.store = whole.2.store ∧
          ps.view = ⟨whole.1.view.storage, cut line.toNat, cut (line.toNat + 1)⟩ ∧
          cs.view = ⟨whole.2.view.storage, cut line.toNat, cut (line.toNat + 1)⟩ ∧
          (∀ (i : Nat) (hi : i < ps.elements.length),
            ps.elements[i].line = line ∧ ps.elements[i].column.toNat = i) ∧
          (∀ (i : Nat) (hi : i < cs.elements.length),
            cs.elements[i] = '\n' → i + 1 = cs.elements.length) ∧
          (cs.elements.getLast? = some '\n' ↔ line.toNat + 1 < n) := by
  intro whole n
  have hshort := length_canonicalize_lt h
  have hindex := indexes_canonicalize hshort
  obtain ⟨-, hchars⟩ := elements_readSplit hshort
  obtain ⟨hlength, -⟩ := length_readSplit hshort
  have hbreaks := lineBreaks_le_length (canonicalize text)
  have hn : n = lineBreaks (canonicalize text) + 1 := congrArg (lineBreaks · + 1) hchars
  refine ⟨fun line hline => ?_, ?_, (LineIndex.ofChars (canonicalize text)).cut, ?_, ?_, fun k => ?_,
    fun line hline => ?_⟩
  · rw [hn]
    exact selectLine_readSplit_of_lt hshort (by omega)
  · simp only [UInt64.size] at hshort
    omega
  · exact UInt64.toNat_inj.1 hindex.cut_zero
  · rw [← UInt64.toNat_inj, hlength, hn, LineIndex.cut_of_le hindex.size.le, hindex.length]
  · exact UInt64.le_iff_toNat_le.2 (hindex.monotone_cut (Nat.le_succ k))
  · obtain ⟨hps, hcs⟩ := elements_part_readSplit hshort line.toNat
    refine ⟨_, _, selectLine_readSplit_eq hshort (by omega), rfl, rfl, ?_, ?_, ?_, ?_, ?_⟩
    · exact Buffer.view_part_ofList _ _ _
    · exact Buffer.view_part_ofList _ _ _
    · rw [hps]
      intro i hi
      rw [List.length_map] at hi
      obtain ⟨hplace, hcolumn, -⟩ := getElem_pairsOn hshort hi
      rw [List.getElem_map]
      exact ⟨UInt64.toNat_inj.1 hplace, hcolumn⟩
    · rw [hcs]
      intro i hi hbreak
      rw [List.length_map] at hi ⊢
      rw [List.getElem_map] at hbreak
      exact ((getElem_pairsOn hshort hi).2.2.1 hbreak).1
    · rw [hcs, getLast?_pairsOn hshort, hn]
      omega

/-- Three lines, the second of them with nothing but its break. It takes up one offset of both buffers; the line after
it has no break, and there is no fourth one. -/
theorem selectLine_cuts_at_breaks_of_bare_break :
    let text : Text := ['a', '\r', '\n', '\r', 'b']
    let whole := readSplit text
    text.length < 2 ^ 63 ∧ lineBreaks whole.2.elements + 1 = 3 ∧
      (∃ ps cs, selectLine whole.1 whole.2 1 = .ok (ps, cs) ∧ ps.view = ⟨0, 2, 3⟩ ∧ cs.view = ⟨0, 2, 3⟩ ∧
        ps.elements = [⟨1, 0⟩] ∧ cs.elements.getLast? = some '\n') ∧
      (∃ ps cs, selectLine whole.1 whole.2 2 = .ok (ps, cs) ∧ cs.elements.getLast? ≠ some '\n') ∧
      selectLine whole.1 whole.2 3 = .error (.error (.lineOutOfRange 3 3)) ∧
      selectLine whole.1 whole.2 lastWord = .error (.error (.lineOutOfRange lastWord 3)) := by
  intro text whole
  obtain ⟨hmissing, -, cut, -, -, -, hline⟩ := selectLine_cuts_at_breaks text (by decide)
  obtain ⟨ps, cs, hselect, -, -, -, -, -, -, hend⟩ := hline 1 (by decide)
  obtain ⟨qs, ds, hselect', -, -, -, -, -, -, hend'⟩ := hline 2 (by decide)
  have hviews : (selectLine whole.1 whole.2 1).toOption.map
      (fun r => (r.1.view, r.2.view, r.1.elements)) = some (⟨0, 2, 3⟩, ⟨0, 2, 3⟩, [⟨1, 0⟩]) := by decide +kernel
  rw [hselect] at hviews
  obtain ⟨hps, hrest⟩ := Prod.mk.inj (Option.some.inj hviews)
  obtain ⟨hcs, helements⟩ := Prod.mk.inj hrest
  exact ⟨by decide, by decide, ⟨ps, cs, hselect, hps, hcs, helements, hend.2 (by decide)⟩,
    ⟨qs, ds, hselect', mt hend'.1 (by decide)⟩, hmissing 3 (by decide), hmissing lastWord (by decide)⟩

end CanonicalText
