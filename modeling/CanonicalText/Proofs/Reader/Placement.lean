import Mathlib
import CanonicalText.Reader.Normalizer

/-!
# Where canonical characters stand

The characters that a machine gives fix their positions: each stands where the one before it leads.

* `placed` : characters in order, from a position on;
* `Normalizer.run_fst_eq_placed`, `Normalizer.run_snd_position` : what a machine gives, and where it is then;
* `Position.after` : the place after a text, from its line breaks and the characters after the last one;
* `Position.toNat_past_origin`, `Position.past_origin` : the two ways to count agree as long as no counter is full.
-/

namespace CanonicalText

/-! ## From character to character -/

def Position.advance (p : Position) (c : Char) : Position :=
  if c = '\n' then p.nextLine else p.nextColumn

/-- The place after a text. -/
def Position.past (p : Position) (text : Text) : Position := text.foldl Position.advance p

/-- The characters of a text with their places, the first one at `p`. -/
def placed (p : Position) : Text → List (Position × Char)
  | [] => []
  | c :: text => (p, c) :: placed (p.advance c) text

theorem Position.past_cons (p : Position) (c : Char) (text : Text) :
    p.past (c :: text) = (p.advance c).past text := rfl

theorem Position.past_append (p : Position) (a b : Text) : p.past (a ++ b) = (p.past a).past b :=
  List.foldl_append

theorem Position.past_concat (p : Position) (text : Text) (c : Char) :
    p.past (text ++ [c]) = (p.past text).advance c := by
  rw [past_append, past_cons]
  rfl

theorem Position.toNat_line_advance (p : Position) (c : Char) :
    (p.advance c).line.toNat =
      if c = '\n' then min (p.line.toNat + 1) (UInt64.size - 1) else p.line.toNat := by
  unfold advance
  split
  · exact toNat_saturatingSucc p.line
  · rfl

theorem Position.toNat_column_advance (p : Position) (c : Char) :
    (p.advance c).column.toNat =
      if c = '\n' then 0 else min (p.column.toNat + 1) (UInt64.size - 1) := by
  unfold advance
  split
  · rfl
  · exact toNat_saturatingSucc p.column

theorem Position.toNat_line_advance_le (p : Position) (c : Char) :
    (p.advance c).line.toNat ≤ p.line.toNat + 1 := by
  rw [toNat_line_advance]
  split <;> omega

theorem Position.toNat_column_advance_le (p : Position) (c : Char) :
    (p.advance c).column.toNat ≤ p.column.toNat + 1 := by
  rw [toNat_column_advance]
  split <;> omega

/-- The place of a character is the one after all that come before it. -/
theorem getElem_placed (p : Position) (text : Text) (i : Nat) (h : i < (placed p text).length)
    (hi : i < text.length) : (placed p text)[i] = (p.past (text.take i), text[i]) := by
  induction text generalizing p i with
  | nil => simp [placed] at h
  | cons c text ih =>
    cases i with
    | zero => rfl
    | succ i =>
      simp only [placed, List.getElem_cons_succ, List.take_succ_cons, Position.past_cons]
      exact ih (p.advance c) i (by simpa [placed] using h) (by simpa using hi)

theorem fst_getElem_of_placed {p : Position} {items : List (Position × Char)}
    (h : items = placed p (items.map (·.2))) {j : Nat} (hj : j < items.length) :
    items[j].1 = p.past ((items.map (·.2)).take j) := by
  have hj' : j < (items.map (·.2)).length := by rwa [List.length_map]
  generalize items.map (·.2) = text at h hj' ⊢
  subst h
  rw [getElem_placed _ _ _ _ hj']

namespace Normalizer

/-- The canonical characters that a machine gives for a text, without their positions. -/
def chars (m : Normalizer) (text : Text) : Text := (m.run text).1.map (·.2)

theorem feed_of_some {m : Normalizer} {c d : Char} {p : Position} (h : (m.feed c).1 = some (p, d)) :
    p = m.position ∧ (m.feed c).2.position = m.position.advance d := by
  unfold feed at h ⊢
  split at h
  · next hc =>
    cases h
    simp [hc, Position.advance]
  · next hr =>
    split at h
    · next hc =>
      cases hs : m.state with
      | afterReturn => simp [hs] at h
      | normal =>
        simp only [hs, Option.some.injEq, Prod.mk.injEq] at h
        obtain ⟨rfl, rfl⟩ := h
        simp [hc, Position.advance]
    · next hc =>
      cases h
      simp [hr, hc, Position.advance]

/-- **What a machine gives is placed from its position on**, and its position is then past that. -/
theorem run_eq_placed (m : Normalizer) (text : Text) :
    (m.run text).1 = placed m.position (m.chars text) ∧
      (m.run text).2.position = m.position.past (m.chars text) := by
  induction text generalizing m with
  | nil => exact ⟨rfl, rfl⟩
  | cons c text ih =>
    obtain ⟨hgiven, hpast⟩ := ih (m.feed c).2
    cases hc : (m.feed c).1 with
    | none =>
      have hchars : m.chars (c :: text) = (m.feed c).2.chars text := by simp [chars, run, hc]
      have hp : (m.feed c).2.position = m.position := by rw [feed_of_none hc]
      rw [hchars, ← hp, ← hgiven, ← hpast]
      simp [run, hc]
    | some item =>
      obtain ⟨p, d⟩ := item
      obtain ⟨rfl, hp⟩ := feed_of_some hc
      have hchars : m.chars (c :: text) = d :: (m.feed c).2.chars text := by simp [chars, run, hc]
      rw [hchars, placed, Position.past_cons, ← hp, ← hgiven, ← hpast]
      simp [run, hc]

theorem run_fst_eq_placed (m : Normalizer) (text : Text) :
    (m.run text).1 = placed m.position (m.chars text) := (m.run_eq_placed text).1

theorem run_snd_position (m : Normalizer) (text : Text) :
    (m.run text).2.position = m.position.past (m.chars text) := (m.run_eq_placed text).2

end Normalizer

theorem pairs_eq_placed (text : Text) : pairs text = placed .origin (canonicalize text) :=
  Normalizer.run_fst_eq_placed .start text

theorem endPosition_eq_past (text : Text) :
    endPosition text = Position.origin.past (canonicalize text) :=
  Normalizer.run_snd_position .start text

@[simp] theorem length_canonicalize (text : Text) : (canonicalize text).length = (pairs text).length :=
  List.length_map _

theorem Normalizer.length_run_le (m : Normalizer) (text : Text) : (m.run text).1.length ≤ text.length := by
  induction text generalizing m with
  | nil => exact Nat.le_refl 0
  | cons c text ih =>
    have := ih (m.feed c).2
    cases hc : (m.feed c).1 <;> simp [run, hc] <;> omega

theorem length_pairs_le (text : Text) : (pairs text).length ≤ text.length :=
  Normalizer.start.length_run_le text

theorem length_canonicalize_le (text : Text) : (canonicalize text).length ≤ text.length :=
  (length_canonicalize text).trans_le (length_pairs_le text)

/-! ## Counting line breaks -/

def lineBreaks (text : Text) : Nat := text.count '\n'

def lastColumn (text : Text) : Nat := (text.rtakeWhile (· ≠ '\n')).length

/-- The place after a text that begins at the origin. -/
def Position.after (text : Text) : Position :=
  ⟨UInt64.ofNat (lineBreaks text), UInt64.ofNat (lastColumn text)⟩

theorem lineBreaks_append (a b : Text) : lineBreaks (a ++ b) = lineBreaks a + lineBreaks b :=
  List.count_append

theorem lineBreaks_concat_break (text : Text) : lineBreaks (text ++ ['\n']) = lineBreaks text + 1 := by
  rw [lineBreaks_append]
  rfl

theorem lineBreaks_concat_of_ne (text : Text) {c : Char} (h : c ≠ '\n') :
    lineBreaks (text ++ [c]) = lineBreaks text := by
  rw [lineBreaks_append]
  simp [lineBreaks, h]

theorem lineBreaks_le_length (text : Text) : lineBreaks text ≤ text.length := List.count_le_length

theorem lineBreaks_take_mono (text : Text) {i j : Nat} (h : i ≤ j) :
    lineBreaks (text.take i) ≤ lineBreaks (text.take j) :=
  (List.take_prefix_take_left h).sublist.count_le _

theorem lastColumn_concat_break (text : Text) : lastColumn (text ++ ['\n']) = 0 := by
  unfold lastColumn
  rw [List.rtakeWhile_concat_neg _ _ _ (by simp)]
  rfl

theorem lastColumn_concat_of_ne (text : Text) {c : Char} (h : c ≠ '\n') :
    lastColumn (text ++ [c]) = lastColumn text + 1 := by
  unfold lastColumn
  rw [List.rtakeWhile_concat_pos _ _ _ (by simpa using h)]
  simp

theorem lastColumn_le_length (text : Text) : lastColumn text ≤ text.length :=
  (List.rtakeWhile_suffix _ text).length_le

theorem Position.toNat_line_after {text : Text} (h : text.length < UInt64.size) :
    (after text).line.toNat = lineBreaks text := by
  have := lineBreaks_le_length text
  exact UInt64.toNat_ofNat_of_lt' (by omega)

theorem Position.toNat_column_after {text : Text} (h : text.length < UInt64.size) :
    (after text).column.toNat = lastColumn text := by
  have := lastColumn_le_length text
  exact UInt64.toNat_ofNat_of_lt' (by omega)

theorem Position.eq_after_iff {p : Position} {text : Text} (h : text.length < UInt64.size) :
    p = after text ↔ p.line.toNat = lineBreaks text ∧ p.column.toNat = lastColumn text := by
  rw [← toNat_line_after h, ← toNat_column_after h, UInt64.toNat_inj, UInt64.toNat_inj]
  obtain ⟨line, column⟩ := p
  exact Position.mk.injEq .. ▸ Iff.rfl

/-- **Counters count, and stop at the greatest word**: the line the line breaks, the column the characters after the
last of them. -/
theorem Position.toNat_past_origin (text : Text) :
    (origin.past text).line.toNat = min (lineBreaks text) (UInt64.size - 1) ∧
      (origin.past text).column.toNat = min (lastColumn text) (UInt64.size - 1) := by
  induction text using List.reverseRecOn with
  | nil => exact ⟨(Nat.zero_min _).symm, (Nat.zero_min _).symm⟩
  | append_singleton text c ih =>
    obtain ⟨hline, hcolumn⟩ := ih
    rw [past_concat, toNat_line_advance, toNat_column_advance, hline, hcolumn]
    by_cases hc : c = '\n'
    · subst hc
      rw [if_pos rfl, if_pos rfl, lineBreaks_concat_break, lastColumn_concat_break]
      omega
    · rw [if_neg hc, if_neg hc, lineBreaks_concat_of_ne text hc, lastColumn_concat_of_ne text hc]
      omega

theorem Position.toNat_past_origin_le (text : Text) :
    (origin.past text).line.toNat ≤ text.length ∧ (origin.past text).column.toNat ≤ text.length := by
  obtain ⟨hline, hcolumn⟩ := toNat_past_origin text
  have hbreaks := lineBreaks_le_length text
  have hlast := lastColumn_le_length text
  omega

/-- **No counter is full** before a text of as many characters as there are words. -/
theorem Position.past_origin {text : Text} (h : text.length < UInt64.size) :
    origin.past text = after text := by
  obtain ⟨hline, hcolumn⟩ := toNat_past_origin text
  have hbreaks := lineBreaks_le_length text
  have hlast := lastColumn_le_length text
  exact (eq_after_iff h).2 ⟨by omega, by omega⟩

end CanonicalText
