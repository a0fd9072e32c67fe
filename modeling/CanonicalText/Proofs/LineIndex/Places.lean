import Mathlib
import CanonicalText.Proofs.LineIndex
import CanonicalText.Proofs.Location

/-!
# Offsets and places

The offsets of a text and the places on its lines are two names of the same thing: each offset up to the end has one
place, each place on a line has one offset, and both run in the same order. Which places there are is said here by
the lines alone, cut from the text at its line breaks.

* `hasPlace_iff` : the places after the beginnings of a text are those on its lines;
* `LineIndex.Indexes.position?_lt_iff` : places and offsets run in the same order;
* `LineIndex.offsets_correspond_to_places` : how an index translates between them.
-/

namespace CanonicalText

variable {c : Char} {line column : Nat}

/-! ## The places of a text -/

theorem lineBreaks_cons_break (text : Text) : lineBreaks ('\n' :: text) = lineBreaks text + 1 :=
  List.count_cons_self

theorem lineBreaks_cons_of_ne (hc : c ≠ '\n') (text : Text) : lineBreaks (c :: text) = lineBreaks text :=
  List.count_cons_of_ne hc

theorem lastColumn_cons_break (text : Text) : lastColumn ('\n' :: text) = lastColumn text := by
  induction text using List.reverseRecOn with
  | nil => rfl
  | append_singleton text d ih =>
    rw [← List.cons_append]
    by_cases hd : d = '\n'
    · subst hd
      rw [lastColumn_concat_break, lastColumn_concat_break]
    · rw [lastColumn_concat_of_ne _ hd, lastColumn_concat_of_ne _ hd, ih]

theorem lastColumn_cons_of_ne (hc : c ≠ '\n') (text : Text) :
    lastColumn (c :: text) = lastColumn text + if lineBreaks text = 0 then 1 else 0 := by
  induction text using List.reverseRecOn with
  | nil => exact lastColumn_concat_of_ne [] hc
  | append_singleton text d ih =>
    rw [← List.cons_append]
    by_cases hd : d = '\n'
    · subst hd
      rw [lastColumn_concat_break, lastColumn_concat_break, lineBreaks_concat_break]
      rfl
    · rw [lastColumn_concat_of_ne _ hd, lastColumn_concat_of_ne _ hd, lineBreaks_concat_of_ne _ hd, ih,
        Nat.add_right_comm]

/-- A line and a column that are the place after a beginning of the text. -/
def HasPlace (text : Text) (line column : Nat) : Prop :=
  ∃ o ≤ text.length, lineBreaks (text.take o) = line ∧ lastColumn (text.take o) = column

theorem hasPlace_nil : HasPlace [] line column ↔ line = 0 ∧ column = 0 := by
  simp [HasPlace, lineBreaks, lastColumn, eq_comm]

/-- The beginnings of a text are the empty one and, with its first character, those of the rest. -/
theorem hasPlace_cons {text : Text} : HasPlace (c :: text) line column ↔
    (line = 0 ∧ column = 0) ∨ ∃ o ≤ text.length,
      lineBreaks (c :: text.take o) = line ∧ lastColumn (c :: text.take o) = column := by
  constructor
  · rintro ⟨o, ho, hline, hcolumn⟩
    cases o with
    | zero => exact .inl ⟨hline.symm, hcolumn.symm⟩
    | succ o => exact .inr ⟨o, Nat.le_of_succ_le_succ ho, hline, hcolumn⟩
  · rintro (⟨rfl, rfl⟩ | ⟨o, ho, hline, hcolumn⟩)
    · exact ⟨0, Nat.zero_le _, rfl, rfl⟩
    · exact ⟨o + 1, Nat.succ_le_succ ho, hline, hcolumn⟩

theorem hasPlace_cons_break {text : Text} : HasPlace ('\n' :: text) line column ↔
    (line = 0 ∧ column = 0) ∨ ∃ before, line = before + 1 ∧ HasPlace text before column := by
  simp only [hasPlace_cons, lineBreaks_cons_break, lastColumn_cons_break]
  refine or_congr_right ⟨?_, ?_⟩
  · rintro ⟨o, ho, rfl, hcolumn⟩
    exact ⟨_, rfl, o, ho, rfl, hcolumn⟩
  · rintro ⟨before, rfl, o, ho, rfl, hcolumn⟩
    exact ⟨o, ho, rfl, hcolumn⟩

theorem hasPlace_cons_zero (hc : c ≠ '\n') {text : Text} : HasPlace (c :: text) 0 column ↔
    column = 0 ∨ ∃ before, column = before + 1 ∧ HasPlace text 0 before := by
  simp only [hasPlace_cons, lineBreaks_cons_of_ne hc, lastColumn_cons_of_ne hc, true_and]
  refine or_congr_right ⟨?_, ?_⟩
  · rintro ⟨o, ho, hline, rfl⟩
    exact ⟨_, by rw [if_pos hline], o, ho, hline, rfl⟩
  · rintro ⟨before, rfl, o, ho, hline, rfl⟩
    exact ⟨o, ho, hline, by rw [if_pos hline]⟩

theorem hasPlace_cons_succ (hc : c ≠ '\n') {text : Text} :
    HasPlace (c :: text) (line + 1) column ↔ HasPlace text (line + 1) column := by
  simp only [hasPlace_cons, lineBreaks_cons_of_ne hc, lastColumn_cons_of_ne hc, Nat.add_eq_zero_iff,
    one_ne_zero, and_false, false_and, false_or]
  refine exists_congr fun o => and_congr_right fun _ => and_congr_right fun hline => ?_
  rw [if_neg (by omega), Nat.add_zero]

/-- **The places of a text are those on its lines**: the last place of a line is that of its line break, or the end
of the text. -/
theorem hasPlace_iff (text : Text) : HasPlace text line column ↔
    ∃ chars, (text.splitOn '\n')[line]? = some chars ∧ column ≤ chars.length := by
  induction text generalizing line column with
  | nil =>
    rw [hasPlace_nil, List.splitOn_nil]
    cases line <;> simp
  | cons c text ih =>
    rw [List.splitOn_cons_eq_if_modifyHead]
    by_cases hc : c = '\n'
    · subst hc
      simp only [hasPlace_cons_break, ih, beq_self_eq_true, if_true]
      cases line <;> simp
    · obtain ⟨first, others, hlines⟩ := List.exists_cons_of_ne_nil (List.splitOn_ne_nil '\n' text)
      rw [if_neg (by simpa using hc), hlines, List.modifyHead_cons]
      cases line with
      | zero =>
        simp only [hasPlace_cons_zero hc, ih, hlines, List.getElem?_cons_zero]
        cases column <;> simp
      | succ line =>
        rw [hasPlace_cons_succ hc, ih, hlines, List.getElem?_cons_succ, List.getElem?_cons_succ]

theorem length_splitOn_break (text : Text) : (text.splitOn '\n').length = lineBreaks text + 1 := by
  induction text with
  | nil => rfl
  | cons c text ih =>
    rw [List.splitOn_cons_eq_if_modifyHead]
    by_cases hc : c = '\n'
    · subst hc
      rw [if_pos (beq_self_eq_true _), List.length_cons, ih, lineBreaks_cons_break]
    · rw [if_neg (by simpa using hc), List.length_modifyHead, ih, lineBreaks_cons_of_ne hc]

/-! ## What an index finds -/

namespace LineIndex

namespace Indexes

variable {index : LineIndex} {text : Text} {o o' : UInt64} {p p' : Position}

theorem isSome_position?_iff (h : index.Indexes text) : (index.position? o).isSome ↔ o.toNat ≤ text.length := by
  rw [Option.isSome_iff_exists]
  simp only [h.position?_eq_some_iff, exists_and_left, exists_eq, and_true]

theorem position?_eq_some (h : index.Indexes text) (hlen : text.length < UInt64.size)
    (hp : index.position? o = some p) : p.line.toNat = lineBreaks (text.take o.toNat) ∧
      ∃ start, index.lineStart? p.line = some start ∧ start.toNat + p.column.toNat = o.toNat := by
  obtain ⟨ho, hp⟩ := h.position?_eq_some_iff.1 hp
  rw [Position.eq_after_iff (by rw [List.length_take]; omega)] at hp
  obtain ⟨hline, hcolumn⟩ := hp
  have hk : p.line.toNat < index.starts.size := by
    rw [hline]
    exact h.lineBreaks_take_lt_size o.toNat
  refine ⟨hline, index.starts[p.line.toNat], Array.getElem?_eq_getElem hk, ?_⟩
  rw [hcolumn]
  exact h.start_add_lastColumn ho hk hline

/-- A later offset has a later place: on a later line, or on the same one and further on. -/
theorem position?_lt (h : index.Indexes text) (hlen : text.length < UInt64.size)
    (hp : index.position? o = some p) (hp' : index.position? o' = some p') (hlt : o < o') : p < p' := by
  obtain ⟨hline, start, hstart, hsum⟩ := h.position?_eq_some hlen hp
  obtain ⟨hline', start', hstart', hsum'⟩ := h.position?_eq_some hlen hp'
  rw [UInt64.lt_iff_toNat_lt] at hlt
  have hle := lineBreaks_take_mono text hlt.le
  rw [Position.lt_iff_toNat]
  by_cases heq : p.line = p'.line
  · rw [heq, hstart', Option.some.injEq] at hstart
    subst hstart
    exact .inr ⟨congrArg _ heq, by omega⟩
  · have := mt UInt64.toNat_inj.1 heq
    exact .inl (by omega)

theorem position?_lt_iff (h : index.Indexes text) (hlen : text.length < UInt64.size)
    (hp : index.position? o = some p) (hp' : index.position? o' = some p') : p < p' ↔ o < o' := by
  refine ⟨fun hlt => ?_, h.position?_lt hlen hp hp'⟩
  rcases Nat.lt_trichotomy o.toNat o'.toNat with hlt' | heq | hgt
  · exact UInt64.lt_iff_toNat_lt.2 hlt'
  · rw [UInt64.toNat_inj.1 heq, hp', Option.some.injEq] at hp
    exact absurd hp hlt.ne'
  · exact absurd (h.position?_lt hlen hp' hp (UInt64.lt_iff_toNat_lt.2 hgt)) hlt.not_gt

/-- **A place has an offset just if it is one of the text.** -/
theorem isSome_offset?_iff_hasPlace (h : index.Indexes text) (hlen : text.length + 1 < UInt64.size) :
    (index.offset? p).isSome ↔ HasPlace text p.line.toNat p.column.toNat := by
  have hafter : ∀ o, o ≤ text.length → (p = .after (text.take o) ↔
      lineBreaks (text.take o) = p.line.toNat ∧ lastColumn (text.take o) = p.column.toNat) := by
    intro o ho
    rw [Position.eq_after_iff (by rw [List.length_take]; omega), eq_comm, eq_comm (b := p.column.toNat)]
  rw [Option.isSome_iff_exists]
  simp only [h.offset?_eq_some_iff hlen, h.position?_eq_some_iff]
  constructor
  · rintro ⟨o, ho, hp⟩
    exact ⟨o.toNat, ho, (hafter _ ho).1 hp⟩
  · rintro ⟨o, ho, hp⟩
    have hword : (UInt64.ofNat o).toNat = o := UInt64.toNat_ofNat_of_lt' (by omega)
    refine ⟨.ofNat o, ?_, ?_⟩
    · rwa [hword]
    · rw [hword]
      exact (hafter o ho).2 hp

end Indexes

/-- **Offsets and places correspond.** The two translations undo each other and keep the order. The line of a place
is the number of line breaks before its offset, and the column is how far the offset is from the start of that line.
-/
theorem offsets_correspond_to_places (text : Text) (h : text.length < 2 ^ 63) :
    let index := ofChars text
    let lines := text.splitOn '\n'
    index.lineCount.toNat = lines.length ∧
    (∀ o, (index.position? o).isSome ↔ o.toNat ≤ text.length) ∧
    (∀ p, (index.offset? p).isSome ↔
      p.line < index.lineCount ∧ p.column.toNat ≤ (lines.getD p.line.toNat []).length) ∧
    (∀ o p, index.position? o = some p ↔ index.offset? p = some o) ∧
    (∀ o o' p p', index.position? o = some p → index.position? o' = some p' → (o < o' ↔ p < p')) ∧
    ∀ o p, index.position? o = some p → p.line.toNat = (text.take o.toNat).count '\n' ∧
      ∃ start, index.lineStart? p.line = some start ∧ start ≤ o ∧ p.column = o - start := by
  intro index lines
  have hlen : text.length + 1 < UInt64.size := by
    simp only [UInt64.size]
    omega
  have hindex : index.Indexes text := indexes_ofChars text (by omega)
  have hcount : index.lineCount.toNat = lines.length := by
    rw [hindex.lineCount_toNat hlen, length_splitOn_break]
  refine ⟨hcount, fun o => hindex.isSome_position?_iff, fun p => ?_, fun o p => ?_, ?_, fun o p hp => ?_⟩
  · rw [hindex.isSome_offset?_iff_hasPlace hlen, hasPlace_iff, UInt64.lt_iff_toNat_lt, hcount]
    constructor
    · rintro ⟨chars, hchars, hcolumn⟩
      rw [List.getD_eq_getElem?_getD, hchars]
      exact ⟨(List.getElem?_eq_some_iff.1 hchars).1, hcolumn⟩
    · rintro ⟨hline, hcolumn⟩
      rw [List.getD_eq_getElem _ _ hline] at hcolumn
      exact ⟨_, List.getElem?_eq_getElem hline, hcolumn⟩
  · exact (hindex.offset?_eq_some_iff hlen).symm
  · intro o o' p p' hp hp'
    exact (hindex.position?_lt_iff (by omega) hp hp').symm
  · obtain ⟨hline, start, hstart, hsum⟩ := hindex.position?_eq_some (by omega) hp
    have hle : start ≤ o := UInt64.le_iff_toNat_le.2 (by omega)
    refine ⟨hline, start, hstart, hle, ?_⟩
    rw [← UInt64.toNat_inj, UInt64.toNat_sub_of_le _ _ hle]
    omega

/-- Three lines, the first of which holds a carriage return and the second nothing. The place of the first line
break is on the first line, the next column is not; the last line goes one column past its only character. -/
theorem offsets_correspond_to_places_of_return :
    let text : Text := ['a', 'b', '\r', '\n', '\n', 'c']
    let index := ofChars text
    text.length < 2 ^ 63 ∧ index.lineCount.toNat = 3 ∧
      (index.offset? ⟨0, 3⟩).isSome ∧ ¬ (index.offset? ⟨0, 4⟩).isSome ∧ ¬ (index.offset? ⟨0, lastWord⟩).isSome ∧
      (index.offset? ⟨2, 1⟩).isSome ∧ ¬ (index.offset? ⟨3, 0⟩).isSome ∧
      (index.position? 6).isSome ∧ ¬ (index.position? 7).isSome ∧
      index.position? 4 = some ⟨1, 0⟩ ∧ index.offset? ⟨1, 0⟩ = some 4 ∧
      ((4 : UInt64) < 5 ↔ (⟨1, 0⟩ : Position) < ⟨2, 0⟩) ∧
      (∃ start, index.lineStart? 2 = some start ∧ start ≤ 6 ∧ (1 : UInt64) = 6 - start) := by
  intro text index
  obtain ⟨hcount, hoffsets, hplaces, hinverse, horder, hline⟩ := offsets_correspond_to_places text (by decide)
  have hfour : index.position? 4 = some ⟨1, 0⟩ := by decide +kernel
  have hfive : index.position? 5 = some ⟨2, 0⟩ := by decide +kernel
  have hsix : index.position? 6 = some ⟨2, 1⟩ := by decide +kernel
  exact ⟨by decide, hcount.trans (by decide), (hplaces ⟨0, 3⟩).2 (by decide),
    mt (hplaces ⟨0, 4⟩).1 (by decide), mt (hplaces ⟨0, lastWord⟩).1 (by decide),
    (hplaces ⟨2, 1⟩).2 (by decide), mt (hplaces ⟨3, 0⟩).1 (by decide), (hoffsets 6).2 (by decide),
    mt (hoffsets 7).1 (by decide), hfour, (hinverse 4 _).1 hfour, horder 4 5 _ _ hfour hfive, (hline 6 _ hsix).2⟩

end LineIndex

end CanonicalText
