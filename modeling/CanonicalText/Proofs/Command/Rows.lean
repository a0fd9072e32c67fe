import Mathlib
import CanonicalText.Proofs.Command.Selection
import CanonicalText.Proofs.Text.Quoted

/-!
# Rows

Two formats print one row for each character. A row keeps to its line, and both the position and the character can
be told from it, so the characters and their positions can be told from the whole output. Narrowed buffers print a
part of the rows.

* `Legible` : rows that keep to their lines and that can be told apart, which both formats have;
* `rows_inj` : what such rows are of;
* `Paired` : buffers that belong together, and what is printed for them;
* `rows_lose_nothing` : all of this for the formats that print rows.
-/

namespace CanonicalText

/-! ## Texts told apart -/

section Apart

variable {P : Char → Bool} {xs ys t u : Text} {a b : Char}

theorem takeWhile_append_cons (hx : ∀ c ∈ xs, P c = true) (ha : P a = false) :
    (xs ++ a :: t).takeWhile P = xs ∧ (xs ++ a :: t).dropWhile P = a :: t := by
  rw [List.takeWhile_append_of_pos hx, List.dropWhile_append_of_pos hx]
  simp [ha]

theorem append_cons_inj (hx : ∀ c ∈ xs, P c = true) (hy : ∀ c ∈ ys, P c = true) (ha : P a = false)
    (hb : P b = false) (h : xs ++ a :: t = ys ++ b :: u) : xs = ys ∧ t = u := by
  obtain ⟨hxs, hat⟩ := takeWhile_append_cons (t := t) hx ha
  obtain ⟨hys, hbu⟩ := takeWhile_append_cons (t := u) hy hb
  rw [h] at hxs hat
  exact ⟨hxs.symm.trans hys, (List.cons.inj (hat.symm.trans hbu)).2⟩

end Apart

/-- Lines can be told from a text in which each of them ends with a line break. -/
theorem lines_inj {xs ys : List Text} (hx : ∀ line ∈ xs, '\n' ∉ line) (hy : ∀ line ∈ ys, '\n' ∉ line)
    (h : xs.flatMap (· ++ ['\n']) = ys.flatMap (· ++ ['\n'])) : xs = ys := by
  have hne : ∀ {line : Text}, '\n' ∉ line → ∀ c ∈ line, (c != '\n') = true := by
    intro line hline c hc
    rw [bne_iff_ne]
    rintro rfl
    exact hline hc
  induction xs generalizing ys with
  | nil =>
    cases ys with
    | nil => rfl
    | cons y ys => simp at h
  | cons x xs ih =>
    cases ys with
    | nil => simp at h
    | cons y ys =>
      rw [List.flatMap_cons, List.flatMap_cons, List.append_assoc, List.append_assoc,
        List.singleton_append, List.singleton_append] at h
      obtain ⟨rfl, hrest⟩ := append_cons_inj (hne (hx x List.mem_cons_self)) (hne (hy y List.mem_cons_self))
        (by decide) (by decide) h
      rw [ih (fun line hline => hx line (List.mem_cons_of_mem _ hline))
        (fun line hline => hy line (List.mem_cons_of_mem _ hline)) hrest]

/-! ## Legible rows -/

/-- Rows that keep to their lines, and from which a position and a character can be told. -/
structure Legible (row : Position → Char → Text) : Prop where
  break_notMem : ∀ p c, '\n' ∉ row p c
  inj : ∀ {p q c d}, row p c = row q d → p = q ∧ c = d

/-- A position is told from the beginning of a text, up to a character that is no digit. -/
theorem display_append_inj {p q : Position} {a b : Char} {t u : Text} (ha : a.isDigit = false)
    (hb : b.isDigit = false) (h : p.display ++ a :: t = q.display ++ b :: u) : p = q ∧ t = u := by
  have hdigits : ∀ n : UInt64, ∀ c ∈ decimal n.toNat, c.isDigit = true := fun _ _ => isDigit_of_mem_decimal
  unfold Position.display at h
  rw [List.append_assoc, List.append_assoc, List.cons_append, List.cons_append] at h
  obtain ⟨hline, hrest⟩ := append_cons_inj (hdigits _) (hdigits _) (by decide) (by decide) h
  obtain ⟨hcolumn, htail⟩ := append_cons_inj (hdigits _) (hdigits _) ha hb hrest
  rw [decimal_inj, UInt64.toNat_inj] at hline hcolumn
  obtain ⟨line, column⟩ := p
  obtain ⟨line', column'⟩ := q
  obtain rfl : line = line' := hline
  obtain rfl : column = column' := hcolumn
  exact ⟨rfl, htail⟩

theorem break_notMem_display (p : Position) : '\n' ∉ p.display := by
  have hdigits : ∀ n : UInt64, '\n' ∉ decimal n.toNat := fun _ hmem =>
    absurd (isDigit_of_mem_decimal hmem) (by decide)
  unfold Position.display
  simp [hdigits]

theorem legible_humanRow : Legible humanRow where
  break_notMem p c := by
    unfold humanRow
    simp [break_notMem_display, break_notMem_quotedChar]
  inj h := by
    obtain ⟨hp, hc⟩ := display_append_inj (by decide) (by decide) h
    exact ⟨hp, quotedChar_injective hc⟩

theorem legible_machineRow : Legible machineRow where
  break_notMem p c := by
    have hdigits : '\n' ∉ (hexadecimal c.toNat).map Char.toUpper :=
      notMem_map_hexadecimal (by decide) c.toNat
    unfold machineRow zeroPadded
    simp [break_notMem_display, hdigits, List.mem_replicate]
  inj {p q c d} h := by
    obtain ⟨hp, hdigits⟩ := display_append_inj (by decide) (by decide) h
    have hpoint : ∀ e : Char, ofHexadecimal (zeroPadded 4 ((hexadecimal e.toNat).map Char.toUpper)) = e.toNat := by
      intro e
      rw [ofHexadecimal_zeroPadded]
      exact ofHexadecimal_map (by decide) e.toNat
    have hvalue := hpoint c
    rw [(List.cons.inj (List.cons.inj hdigits).2).2, hpoint d] at hvalue
    exact ⟨hp, (Char.toNat_inj.1 hvalue).symm⟩

section Legible

variable {row : Position → Char → Text} {ps qs : List Position} {cs ds : Text}

theorem rows_eq_lines (row : Position → Char → Text) (ps : List Position) (cs : Text) :
    rows row ps cs = (List.zipWith row ps cs).flatMap (· ++ ['\n']) := by
  rw [rows, ← List.map_uncurry_zip_eq_zipWith, List.flatMap_map]
  rfl

variable (h : Legible row)

include h

theorem Legible.break_notMem_lines (ps : List Position) (cs : Text) :
    ∀ line ∈ List.zipWith row ps cs, '\n' ∉ line := by
  intro line hline
  rw [← List.map_uncurry_zip_eq_zipWith] at hline
  obtain ⟨⟨p, c⟩, -, rfl⟩ := List.mem_map.1 hline
  exact h.break_notMem p c

/-- **Positions and characters are told** from legible rows, if there are as many of them. -/
theorem Legible.rows_inj (hps : ps.length = cs.length) (hqs : qs.length = ds.length)
    (heq : rows row ps cs = rows row qs ds) : ps = qs ∧ cs = ds := by
  rw [rows_eq_lines, rows_eq_lines] at heq
  have hlines := lines_inj (h.break_notMem_lines ps cs) (h.break_notMem_lines qs ds) heq
  rw [← List.map_uncurry_zip_eq_zipWith, ← List.map_uncurry_zip_eq_zipWith] at hlines
  have hrow : Function.Injective (Function.uncurry row) := by
    rintro ⟨p, c⟩ ⟨q, d⟩ hrow
    obtain ⟨rfl, rfl⟩ := h.inj hrow
    rfl
  have hzip : ps.zip cs = qs.zip ds := List.map_injective_iff.2 hrow hlines
  have hunzip := List.unzip_zip hps
  rw [hzip, List.unzip_zip hqs] at hunzip
  exact ⟨(Prod.mk.inj hunzip).1.symm, (Prod.mk.inj hunzip).2.symm⟩

end Legible

/-! ## Buffers that belong together -/

/-- Positions and characters in buffers of one length, each inside of its storage. -/
structure Paired (positions : Buffer Position) (chars : Buffer Char) : Prop where
  covers_positions : positions.store.Covers positions.view
  covers_chars : chars.store.Covers chars.view
  length_eq : chars.length = positions.length

section Paired

variable {positions : Buffer Position} {chars : Buffer Char}

theorem Paired.length_elements (h : Paired positions chars) :
    positions.elements.length = chars.elements.length := by
  have hpositions : positions.elements.length = positions.length.toNat := Store.length_elements h.covers_positions
  have hchars : chars.elements.length = chars.length.toNat := Store.length_elements h.covers_chars
  rw [hpositions, hchars, h.length_eq]

theorem Paired.printed_eq_ok (h : Paired positions chars) (f : Formatter) :
    f.printed positions chars = .ok (f.render positions.elements chars.elements) := by
  rw [Formatter.printed, if_pos h.length_eq]

end Paired

theorem Buffer.slice_eq_ok_iff {α : Type} {b c : Buffer α} {lower upper : Bound Index} :
    b.slice lower upper = .ok c ↔ ∃ w, b.view.slice lower upper = .ok w ∧ c = ⟨b.store, w⟩ := by
  unfold slice
  cases b.view.slice lower upper with
  | error f => simp [Except.map]
  | ok w => simp [Except.map, eq_comm]

section Texts

variable (text : Text)

theorem view_readSplit : (readSplit text).1.view = (readSplit text).2.view := by
  simp only [readSplit, Buffer.ofList, Store.allocate, List.size_toArray, List.length_map]
  rfl

theorem paired_readSplit : Paired (readSplit text).1 (readSplit text).2 where
  covers_positions := Buffer.covers_ofList _
  covers_chars := Buffer.covers_ofList _
  length_eq := congrArg View.length (view_readSplit text).symm

variable {text} {lower upper : Bound Index} {ps : Buffer Position} {cs : Buffer Char}

theorem exists_slice_readSplit_iff :
    (∃ ps, (readSplit text).1.slice lower upper = .ok ps) ↔
      ∃ cs, (readSplit text).2.slice lower upper = .ok cs := by
  simp only [Buffer.slice_eq_ok_iff, view_readSplit]
  constructor
  · rintro ⟨_, w, hw, -⟩
    exact ⟨_, w, hw, rfl⟩
  · rintro ⟨_, w, hw, -⟩
    exact ⟨_, w, hw, rfl⟩

/-- **Narrowed buffers of a text** belong together, and show the same part of its positions and its characters. -/
theorem paired_of_slice_readSplit (hps : (readSplit text).1.slice lower upper = .ok ps)
    (hcs : (readSplit text).2.slice lower upper = .ok cs) :
    Paired ps cs ∧ ps.view.start ≤ ps.view.stop ∧ ps.view.stop.toNat ≤ (readSplit text).1.elements.length ∧
      ps.elements = (readSplit text).1.elements.extract ps.view.start.toNat ps.view.stop.toNat ∧
      cs.elements = (readSplit text).2.elements.extract ps.view.start.toNat ps.view.stop.toNat := by
  obtain ⟨w, hw, rfl⟩ := Buffer.slice_eq_ok_iff.1 hps
  obtain ⟨w', hw', rfl⟩ := Buffer.slice_eq_ok_iff.1 hcs
  have hpaired := paired_readSplit text
  have hwithin := View.within_of_slice hpaired.covers_positions.start_le_stop hw
  have hwithin' := View.within_of_slice hpaired.covers_chars.start_le_stop hw'
  rw [← view_readSplit, hw] at hw'
  obtain rfl : w = w' := Except.ok.inj hw'
  have hlength : (readSplit text).1.elements.length = (readSplit text).1.view.stop.toNat :=
    (Store.length_elements hpaired.covers_positions).trans
      (View.toNat_length hpaired.covers_positions.start_le_stop)
  have hstop := UInt64.le_iff_toNat_le.1 hwithin.stop
  exact ⟨⟨hpaired.covers_positions.mono hwithin, hpaired.covers_chars.mono hwithin', rfl⟩,
    hwithin.start_le_stop, hstop.trans_eq hlength.symm, (readSplit text).1.store.elements_of_within hwithin,
    (readSplit text).2.store.elements_of_within hwithin'⟩

end Texts

/-! ## The formats that print rows -/

namespace Formatter

variable {f : Formatter} {row : Position → Char → Text}

def row? (f : Formatter) : Option (Position → Char → Text) :=
  match f.format with
  | .human => if f.withPositions then some humanRow else none
  | .machine => some machineRow
  | .json => none

theorem row?_cases (hf : f.row? = some row) :
    f = ⟨.human, true⟩ ∧ row = humanRow ∨ ∃ withPositions, f = ⟨.machine, withPositions⟩ ∧ row = machineRow := by
  obtain ⟨format, withPositions⟩ := f
  cases format with
  | human =>
    cases withPositions with
    | true =>
      cases hf
      exact .inl ⟨rfl, rfl⟩
    | false => cases hf
  | machine =>
    cases hf
    exact .inr ⟨withPositions, rfl, rfl⟩
  | json => cases hf

theorem legible_of_row? (hf : f.row? = some row) : Legible row := by
  rcases row?_cases hf with ⟨-, rfl⟩ | ⟨_, -, rfl⟩
  · exact legible_humanRow
  · exact legible_machineRow

theorem render_of_row? (hf : f.row? = some row) (ps : List Position) (cs : Text) :
    f.render ps cs = (List.zipWith row ps cs).flatMap (· ++ ['\n']) := by
  rw [← rows_eq_lines]
  rcases row?_cases hf with ⟨rfl, rfl⟩ | ⟨_, rfl, rfl⟩ <;> rfl

end Formatter

/-- **Rows lose nothing.** The formats that print rows write one for each character, in order, from which the
position and the character can be told. The buffers of a text are printed so, and also parts of them by the same
bounds. -/
theorem rows_lose_nothing {f : Formatter} {row : Position → Char → Text} (hf : f.row? = some row) :
    (∀ (ps : List Position) (cs : Text), ps.length = cs.length →
      let lines := List.zipWith row ps cs
      f.render ps cs = lines.flatMap (· ++ ['\n']) ∧ lines.length = cs.length ∧ ∀ line ∈ lines, '\n' ∉ line) ∧
    (∀ (ps qs : List Position) (cs ds : Text), ps.length = cs.length → qs.length = ds.length →
      f.render ps cs = f.render qs ds → ps = qs ∧ cs = ds) ∧
    (∀ positions chars, Paired positions chars →
      positions.elements.length = chars.elements.length ∧
        f.printed positions chars = .ok (f.render positions.elements chars.elements)) ∧
    ∀ (text : Text) (lower upper : Bound Index),
      let positions := (readSplit text).1
      let chars := (readSplit text).2
      let lines := List.zipWith row positions.elements chars.elements
      f.printed positions chars = .ok (lines.flatMap (· ++ ['\n'])) ∧
      ((∃ ps, positions.slice lower upper = .ok ps) ↔ ∃ cs, chars.slice lower upper = .ok cs) ∧
      ∀ ps cs, positions.slice lower upper = .ok ps → chars.slice lower upper = .ok cs →
        ps.view.start ≤ ps.view.stop ∧ ps.view.stop.toNat ≤ lines.length ∧ f.printed ps cs =
          .ok ((lines.extract ps.view.start.toNat ps.view.stop.toNat).flatMap (· ++ ['\n'])) := by
  have hlegible := Formatter.legible_of_row? hf
  have hrender := Formatter.render_of_row? hf
  refine ⟨fun ps cs hlength => ⟨hrender ps cs, ?_, hlegible.break_notMem_lines ps cs⟩, ?_, ?_, ?_⟩
  · rw [List.length_zipWith, hlength, Nat.min_self]
  · intro ps qs cs ds hps hqs heq
    rw [hrender, hrender, ← rows_eq_lines, ← rows_eq_lines] at heq
    exact hlegible.rows_inj hps hqs heq
  · exact fun positions chars h => ⟨h.length_elements, h.printed_eq_ok f⟩
  · intro text lower upper positions chars lines
    refine ⟨?_, exists_slice_readSplit_iff, fun ps cs hps hcs => ?_⟩
    · rw [(paired_readSplit text).printed_eq_ok, hrender]
    · obtain ⟨hpaired, hstart, hstop, hpositions, hchars⟩ := paired_of_slice_readSplit hps hcs
      have hlines : lines.length = positions.elements.length := by
        rw [List.length_zipWith, (paired_readSplit text).length_elements, Nat.min_self]
      refine ⟨hstart, hstop.trans_eq hlines.symm, ?_⟩
      rw [hpaired.printed_eq_ok, hrender, hpositions, hchars]
      simp only [lines, List.extract_eq_take_drop, List.take_zipWith, List.drop_zipWith, positions, chars]

/-- A letter, a line break and a quote, of which the last two have pictures of two characters. The rows after the
first are what is printed of the buffers without their first entry. -/
theorem rows_lose_nothing_of_pictures :
    let f := Formatter.mk .human true
    let (positions, chars) := readSplit ['a', '\r', '\n', '\x27']
    let bound : Bound Index := .excluded (.fromStart 0)
    f.row? = some humanRow ∧
      f.printed positions chars = .ok "0:0 'a'\n0:1 '\\n'\n1:0 '\\''\n".toList ∧
      ∃ ps cs, positions.slice bound .unbounded = .ok ps ∧ chars.slice bound .unbounded = .ok cs ∧
        f.printed ps cs = .ok "0:1 '\\n'\n1:0 '\\''\n".toList := by
  have hf : (Formatter.mk .human true).row? = some humanRow := rfl
  obtain ⟨-, -, -, htexts⟩ := rows_lose_nothing hf
  obtain ⟨hwhole, hslices, hrows⟩ := htexts ['a', '\r', '\n', '\x27'] (.excluded (.fromStart 0)) .unbounded
  have hps : (readSplit ['a', '\r', '\n', '\x27']).1.slice (.excluded (.fromStart 0)) .unbounded =
    .ok ⟨(readSplit ['a', '\r', '\n', '\x27']).1.store, 0, 1, 3⟩ := rfl
  obtain ⟨cs, hcs⟩ := hslices.1 ⟨_, hps⟩
  obtain ⟨-, -, hpart⟩ := hrows _ cs hps hcs
  exact ⟨hf, hwhole.trans (by decide +kernel), _, cs, hps, hcs, hpart.trans (by decide +kernel)⟩

end CanonicalText
