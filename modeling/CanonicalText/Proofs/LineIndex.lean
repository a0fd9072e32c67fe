import Mathlib
import CanonicalText.LineIndex
import CanonicalText.Proofs.Reader.Placement

/-!
# The index of a text

An index finds the place of an offset by the line starts alone. It is right because of one fact that
every character keeps (`Indexes`): a line starts by an offset just when that many line breaks come before
the offset.

* `indexes_ofChars` : the index of a text knows its lines;
* `Indexes.position?_eq_some_iff` : the place of an offset is the one after the text before it;
* `Indexes.offset?_eq_some_iff` : going back from a place undoes that.
-/

namespace CanonicalText.LineIndex

/-- What an index knows of its text: how long it is, how many lines it has, and where they start. -/
structure Indexes (index : LineIndex) (text : Text) : Prop where
  length : index.length.toNat = text.length
  size : index.starts.size = lineBreaks text + 1
  start_le_iff : ∀ (k : Nat) (hk : k < index.starts.size) (o : Nat), o ≤ text.length →
    (index.starts[k].toNat ≤ o ↔ k ≤ lineBreaks (text.take o))

theorem indexes_empty : empty.Indexes [] where
  length := rfl
  size := rfl
  start_le_iff k hk o ho := by
    have hk : k = 0 := Nat.lt_one_iff.1 hk
    subst hk
    simp [empty]

/-- The line starts before a character stay, and a line break adds one that lies after all offsets so far. -/
theorem Indexes.push {index : LineIndex} {text : Text} (h : index.Indexes text)
    (hlen : text.length + 1 < UInt64.size) (c : Char) : (index.push c).Indexes (text ++ [c]) := by
  have hlength : (index.length + 1).toNat = text.length + 1 := by
    rw [toNat_add_one_of_lt (by rwa [h.length]), h.length]
  have hold : ∀ (k : Nat) (hk : k < index.starts.size) (o : Nat), o ≤ text.length + 1 →
      (index.starts[k].toNat ≤ o ↔ k ≤ lineBreaks ((text ++ [c]).take o)) := by
    intro k hk o ho
    rcases Nat.lt_or_ge text.length o with hlt | hle
    · have hstart : index.starts[k].toNat ≤ text.length := by
        rw [h.start_le_iff k hk text.length le_rfl, List.take_length]
        have := h.size
        omega
      have hall : (text ++ [c]).take o = text ++ [c] := List.take_of_length_le (by simpa using hlt)
      rw [hall, lineBreaks_append]
      have := h.size
      omega
    · rw [h.start_le_iff k hk o hle, List.take_append_of_le_length hle]
  by_cases hc : c = '\n'
  · subst hc
    rw [LineIndex.push, if_pos rfl]
    refine ⟨by simpa using hlength, ?_, fun k hk o ho => ?_⟩
    · rw [Array.size_push, h.size, lineBreaks_concat_break]
    · rw [List.length_append, List.length_singleton] at ho
      rw [Array.size_push] at hk
      rcases Nat.lt_or_ge k index.starts.size with hlt | hge
      · rw [Array.getElem_push_lt hlt]
        exact hold k hlt o ho
      · have hk : k = index.starts.size := by omega
        subst hk
        rw [Array.getElem_push_eq, hlength, h.size]
        rcases Nat.lt_or_ge text.length o with hlt | hle
        · have hall : (text ++ ['\n']).take o = text ++ ['\n'] :=
            List.take_of_length_le (by simpa using hlt)
          rw [hall, lineBreaks_concat_break]
          omega
        · have := lineBreaks_take_mono text hle
          rw [List.take_length] at this
          rw [List.take_append_of_le_length hle]
          omega
  · rw [LineIndex.push, if_neg hc]
    refine ⟨by simpa using hlength, ?_, fun k hk o ho => hold k hk o (by simpa using ho)⟩
    rw [h.size, lineBreaks_concat_of_ne text hc]

/-- **The index of a text knows its lines**, if its length is a word. -/
theorem indexes_ofChars (text : Text) (h : text.length < UInt64.size) : (ofChars text).Indexes text := by
  induction text using List.reverseRecOn with
  | nil => exact indexes_empty
  | append_singleton text c ih =>
    rw [List.length_append, List.length_singleton] at h
    have hpush : ofChars (text ++ [c]) = (ofChars text).push c := List.foldl_append
    rw [hpush]
    exact (ih (by omega)).push h c

/-! ## Halving the line starts -/

/-- The search ends at a start that is at most the offset, and the next one in the range is not. -/
theorem search_spec (starts : Array UInt64) (offset : UInt64) (low high : Nat) (hlt : low < high)
    (hlow : starts.getD low 0 ≤ offset) :
    search starts offset low high < high ∧ starts.getD (search starts offset low high) 0 ≤ offset ∧
      (search starts offset low high + 1 = high ∨
        offset < starts.getD (search starts offset low high + 1) 0) := by
  fun_induction search starts offset low high with
  | case1 low high hwide middle hle ih => exact ih (by omega) hle
  | case2 low high hwide middle hgt ih =>
    obtain ⟨hr, hle, hnext⟩ := ih (by omega) hlow
    refine ⟨by omega, hle, ?_⟩
    rcases hnext with heq | hnext
    · right
      rw [heq]
      exact UInt64.not_le.1 hgt
    · exact Or.inr hnext
  | case3 low high hnarrow => exact ⟨hlt, hlow, Or.inl (by omega)⟩

namespace Indexes

variable {index : LineIndex} {text : Text}

theorem lineBreaks_take_lt_size (h : index.Indexes text) (o : Nat) :
    lineBreaks (text.take o) < index.starts.size := by
  have : lineBreaks (text.take o) ≤ lineBreaks text := (List.take_sublist o text).count_le _
  rw [h.size]
  omega

theorem start_add_lastColumn (h : index.Indexes text) {o k : Nat} (ho : o ≤ text.length)
    (hk : k < index.starts.size) (hline : k = lineBreaks (text.take o)) :
    index.starts[k].toNat + lastColumn (text.take o) = o := by
  subst hline
  induction o with
  | zero =>
    have := (h.start_le_iff _ hk 0 (Nat.zero_le _)).2 le_rfl
    have hcol : lastColumn (text.take 0) = 0 := rfl
    omega
  | succ o ih =>
    have htake : text.take (o + 1) = text.take o ++ [text[o]] := List.take_succ_eq_append_getElem ho
    by_cases hc : text[o] = '\n'
    · -- a line starts here: not before, since a line break is missing there
      rw [hc] at htake
      have hcol : lastColumn (text.take (o + 1)) = 0 := by rw [htake, lastColumn_concat_break]
      have hhere := (h.start_le_iff _ hk (o + 1) ho).2 le_rfl
      have hbefore := h.start_le_iff _ hk o (by omega)
      have hmore : lineBreaks (text.take (o + 1)) = lineBreaks (text.take o) + 1 := by
        rw [htake, lineBreaks_concat_break]
      omega
    · have hsame : lineBreaks (text.take (o + 1)) = lineBreaks (text.take o) := by
        rw [htake, lineBreaks_concat_of_ne _ hc]
      have hcol : lastColumn (text.take (o + 1)) = lastColumn (text.take o) + 1 := by
        rw [htake, lastColumn_concat_of_ne _ hc]
      have := ih (by omega) (hsame ▸ hk)
      simp only [hsame, hcol]
      omega

theorem search_eq_lineBreaks (h : index.Indexes text) {o : UInt64} (ho : o.toNat ≤ text.length) :
    search index.starts o 0 index.starts.size = lineBreaks (text.take o.toNat) := by
  have hfirst : index.starts.getD 0 0 ≤ o := by
    have hsize : 0 < index.starts.size := by
      rw [h.size]
      omega
    rw [← Array.getElem_eq_getD (h := hsize), UInt64.le_iff_toNat_le, h.start_le_iff 0 hsize _ ho]
    exact Nat.zero_le _
  obtain ⟨hlt, hle, hnext⟩ := search_spec index.starts o 0 index.starts.size
    (by rw [h.size]; omega) hfirst
  set r := search index.starts o 0 index.starts.size
  rw [← Array.getElem_eq_getD (h := hlt), UInt64.le_iff_toNat_le, h.start_le_iff r hlt _ ho] at hle
  have hlast := h.lineBreaks_take_lt_size o.toNat
  rcases hnext with hend | hnext
  · omega
  · rcases Nat.lt_or_ge (r + 1) index.starts.size with hr | hr
    · rw [← Array.getElem_eq_getD (h := hr), UInt64.lt_iff_toNat_lt, ← Nat.not_le, h.start_le_iff _ hr _ ho] at hnext
      omega
    · omega

/-- **The place of an offset** is the one after the text before it; an offset past the end has none. -/
theorem position?_eq_some_iff (h : index.Indexes text) {o : UInt64} {p : Position} :
    index.position? o = some p ↔ o.toNat ≤ text.length ∧ p = .after (text.take o.toNat) := by
  unfold position?
  split
  · next hlt =>
    rw [UInt64.lt_iff_toNat_lt, h.length] at hlt
    simp only [reduceCtorEq, false_iff]
    omega
  · next hle =>
    rw [UInt64.lt_iff_toNat_lt, h.length] at hle
    have ho : o.toNat ≤ text.length := by omega
    have hk := h.lineBreaks_take_lt_size o.toNat
    have hsum := h.start_add_lastColumn ho hk rfl
    simp only [h.search_eq_lineBreaks ho, ← Array.getElem_eq_getD (h := hk), Option.some.injEq]
    have hcolumn : o - index.starts[lineBreaks (text.take o.toNat)] =
        UInt64.ofNat (lastColumn (text.take o.toNat)) := by
      have hbound := o.toNat_lt_size
      rw [← UInt64.toNat_inj, UInt64.toNat_ofNat_of_lt' (by omega),
        UInt64.toNat_sub_of_le _ _ (UInt64.le_iff_toNat_le.2 (by omega))]
      omega
    rw [hcolumn]
    exact ⟨fun hp => ⟨ho, hp.symm⟩, fun hp => hp.2.symm⟩

/-! ## From places back to offsets -/

theorem lineCount_toNat (h : index.Indexes text) (hlen : text.length + 1 < UInt64.size) :
    index.lineCount.toNat = lineBreaks text + 1 := by
  have := lineBreaks_le_length text
  rw [lineCount, h.size, UInt64.toNat_ofNat_of_lt' (by omega)]

end Indexes

/-- The last offset of a line: its line break, or the end of the text if the line has none. -/
def limit (index : LineIndex) (line : UInt64) : UInt64 :=
  match index.lineStart? (line + 1) with
  | some next => next - 1
  | none => index.length

theorem offset?_eq (index : LineIndex) (p : Position) :
    index.offset? p = (index.lineStart? p.line).bind fun start =>
      (checkedAdd start p.column).bind fun offset =>
        if offset ≤ index.limit p.line then some offset else none := rfl

namespace Indexes

variable {index : LineIndex} {text : Text}

theorem le_limit_iff (h : index.Indexes text) (hlen : text.length + 1 < UInt64.size) {line o : UInt64}
    (hline : line.toNat < index.starts.size) :
    o ≤ index.limit line ↔
      o.toNat ≤ text.length ∧ lineBreaks (text.take o.toNat) ≤ line.toNat := by
  have hbreaks := lineBreaks_le_length text
  have hsize := h.size
  have hsucc : (line + 1).toNat = line.toNat + 1 := toNat_add_one_of_lt (by omega)
  unfold limit lineStart?
  rw [hsucc]
  rcases Nat.lt_or_ge (line.toNat + 1) index.starts.size with hnext | hlast
  · rw [Array.getElem?_eq_getElem hnext]
    have hend := h.start_le_iff _ hnext text.length le_rfl
    have hbegin := h.start_le_iff _ hnext 0 (Nat.zero_le _)
    rw [List.take_length] at hend
    have hzero : lineBreaks (text.take 0) = 0 := rfl
    rw [UInt64.le_iff_toNat_le, UInt64.toNat_sub_of_le _ _ (UInt64.le_iff_toNat_le.2 (by simp; omega))]
    simp only [UInt64.toNat_one]
    constructor
    · intro hle
      have ho : o.toNat ≤ text.length := by omega
      have := h.start_le_iff _ hnext o.toNat ho
      omega
    · rintro ⟨ho, hle⟩
      have := h.start_le_iff _ hnext o.toNat ho
      omega
  · rw [Array.getElem?_eq_none hlast, UInt64.le_iff_toNat_le, h.length]
    have := h.lineBreaks_take_lt_size o.toNat
    omega

/-- **Going back from a place** gives the offset that has this place, and nothing if none has. -/
theorem offset?_eq_some_iff (h : index.Indexes text) (hlen : text.length + 1 < UInt64.size)
    {p : Position} {o : UInt64} : index.offset? p = some o ↔ index.position? o = some p := by
  rw [h.position?_eq_some_iff, offset?_eq]
  constructor
  · intro hp
    obtain ⟨start, hstart, hp'⟩ := Option.bind_eq_some_iff.1 hp
    obtain ⟨offset, hsum, hlast⟩ := Option.bind_eq_some_iff.1 hp'
    obtain ⟨hline, rfl⟩ := Array.getElem?_eq_some_iff.1 hstart
    rw [Option.ite_none_right_eq_some, Option.some.injEq] at hlast
    obtain ⟨hlimit, rfl⟩ := hlast
    obtain ⟨ho, hle⟩ := (h.le_limit_iff hlen hline).1 hlimit
    rw [checkedAdd_eq_some_iff] at hsum
    have hge := (h.start_le_iff _ hline offset.toNat ho).1 (by omega)
    have heq : p.line.toNat = lineBreaks (text.take offset.toNat) := by omega
    have hcolumn := h.start_add_lastColumn ho hline heq
    rw [Position.eq_after_iff (by rw [List.length_take]; omega)]
    exact ⟨ho, heq, by omega⟩
  · rintro ⟨ho, hp⟩
    rw [Position.eq_after_iff (by rw [List.length_take]; omega)] at hp
    obtain ⟨hline, hcolumn⟩ := hp
    have hk : p.line.toNat < index.starts.size := by
      rw [hline]
      exact h.lineBreaks_take_lt_size o.toNat
    have hsum := h.start_add_lastColumn ho hk hline
    rw [← hcolumn] at hsum
    have hadd : checkedAdd index.starts[p.line.toNat] p.column = some o := checkedAdd_eq_some_iff.2 hsum
    rw [lineStart?, Array.getElem?_eq_getElem hk, Option.bind_some, hadd, Option.bind_some,
      if_pos ((h.le_limit_iff hlen hk).2 ⟨ho, hline.ge⟩)]

end Indexes

end CanonicalText.LineIndex
