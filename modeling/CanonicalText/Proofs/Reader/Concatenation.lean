import Mathlib
import CanonicalText.Proofs.Reader.Ends
import CanonicalText.Proofs.Reader.LineBreaks

/-!
# Texts put together

Of what has been read of a text, two things matter for the text that comes after it: where the next character will
stand, and whether a `\r` came last, which takes a `\n` that comes next for its own. So the pairs of two texts put
together are those of the first one and then those of the second one, moved to where the first one ends.

* `Position.shift` : where a position of a text stands once another text comes before it;
* `placed_shift` : characters that are placed from a shifted position on;
* `Normalizer.state_run_eq_iff` : which texts leave the machine after a `\r`;
* `pairs_append`, `pairs_append_break` : the pairs of two texts put together.
-/

namespace CanonicalText

/-! ## Shifted positions -/

namespace Position

/-- Where the position `p` of a text stands if the text does not begin at the origin but at `start`. Columns move on
the first line only. -/
def shift (start p : Position) : Position :=
  if p.line = 0 then ⟨start.line, start.column + p.column⟩ else ⟨start.line + p.line, p.column⟩

theorem shift_origin (start : Position) : start.shift origin = start := by
  show Position.mk start.line (start.column + 0) = start
  rw [UInt64.add_zero]

theorem line_shift (start p : Position) : (start.shift p).line = start.line + p.line := by
  unfold shift
  split
  · next hline => rw [hline, UInt64.add_zero]
  · rfl

theorem column_shift (start p : Position) :
    (start.shift p).column = if p.line = 0 then start.column + p.column else p.column := by
  unfold shift
  split
  · rfl
  · rfl

theorem toNat_shift {start p : Position} (hline : start.line.toNat + p.line.toNat < UInt64.size)
    (hcolumn : start.column.toNat + p.column.toNat < UInt64.size) :
    (start.shift p).line.toNat = start.line.toNat + p.line.toNat ∧
      (start.shift p).column.toNat =
        if p.line = 0 then start.column.toNat + p.column.toNat else p.column.toNat := by
  rw [line_shift, column_shift, toNat_add_of_lt hline]
  refine ⟨rfl, ?_⟩
  split
  · exact toNat_add_of_lt hcolumn
  · rfl

variable {start p : Position}

/-- Shifting and going on to the next character are done in either order, as long as no counter is full. -/
theorem advance_shift (hline : start.line.toNat + p.line.toNat + 1 < UInt64.size)
    (hcolumn : start.column.toNat + p.column.toNat + 1 < UInt64.size) (c : Char) :
    (start.shift p).advance c = start.shift (p.advance c) := by
  have hlines := toNat_add_of_lt (show start.line.toNat + p.line.toNat < UInt64.size by omega)
  have hcolumns := toNat_add_of_lt (show start.column.toNat + p.column.toNat < UInt64.size by omega)
  by_cases hc : c = '\n'
  · have hsucc : saturatingSucc p.line = p.line + 1 := saturatingSucc_of_lt (by omega)
    -- the line after is not the first one, so the column after the break stays where it is
    have hne : p.line + 1 ≠ 0 := by
      intro hzero
      have hadd : (p.line + 1).toNat = p.line.toNat + 1 := toNat_add_one_of_lt (by omega)
      rw [hzero] at hadd
      exact Nat.succ_ne_zero _ hadd.symm
    rw [advance, advance, if_pos hc, if_pos hc, nextLine, nextLine, line_shift,
      saturatingSucc_of_lt (by omega), hsucc, shift, if_neg hne, UInt64.add_assoc]
  · have hsucc : saturatingSucc p.column = p.column + 1 := saturatingSucc_of_lt (by omega)
    rw [advance, advance, if_neg hc, if_neg hc, nextColumn, nextColumn, line_shift, column_shift, hsucc, shift]
    split
    · next hfirst =>
      rw [hfirst, saturatingSucc_of_lt (by omega), UInt64.add_assoc, UInt64.add_zero]
    · rw [hsucc]

end Position

/-- **Characters that are placed from a shifted position on** are those placed from the position, shifted. -/
theorem placed_shift (start p : Position) (text : Text)
    (hline : start.line.toNat + p.line.toNat + text.length < UInt64.size)
    (hcolumn : start.column.toNat + p.column.toNat + text.length < UInt64.size) :
    placed (start.shift p) text = (placed p text).map fun r => (start.shift r.1, r.2) := by
  induction text generalizing p with
  | nil => rfl
  | cons c text ih =>
    rw [List.length_cons] at hline hcolumn
    have hlines := p.toNat_line_advance_le c
    have hcolumns := p.toNat_column_advance_le c
    have hrest := ih (p.advance c) (by omega) (by omega)
    rw [placed, placed, List.map_cons, Position.advance_shift (by omega) (by omega), hrest]

/-! ## The machine after a text -/

namespace Normalizer

theorem state_feed (m : Normalizer) (c : Char) :
    (m.feed c).2.state = if c = '\r' then .afterReturn else .normal := by
  unfold feed
  split
  · rfl
  · split
    · cases m.state <;> rfl
    · rfl

theorem state_run_eq_iff (p : Position) (text : Text) :
    (run ⟨.normal, p⟩ text).2.state = .afterReturn ↔ text.getLast? = some '\r' := by
  induction text using List.reverseRecOn with
  | nil => exact iff_of_false (by nofun) (by nofun)
  | append_singleton text c _ =>
    rw [run_append, List.getLast?_concat]
    show (feed _ c).2.state = _ ↔ _
    rw [state_feed]
    by_cases hc : c = '\r' <;> simp [hc]

theorem chars_break_of_afterReturn {m : Normalizer} (h : m.state = .afterReturn) (text : Text) :
    m.chars ('\n' :: text) = canonicalize text := by
  obtain ⟨state, p⟩ := m
  subst h
  exact chars_normal p text

theorem chars_eq_canonicalize {m : Normalizer} {text : Text}
    (h : m.state = .afterReturn → text.head? ≠ some '\n') : m.chars text = canonicalize text := by
  obtain ⟨state, p⟩ := m
  cases state with
  | normal => exact chars_normal p text
  | afterReturn => rw [chars_afterReturn p (h rfl), chars_normal]

end Normalizer

/-! ## How far the counters come -/

theorem toNat_endPosition_le (text : Text) :
    (endPosition text).line.toNat ≤ text.length ∧ (endPosition text).column.toNat ≤ text.length := by
  have hbound := Position.toNat_past_origin_le (canonicalize text)
  have hlength := length_canonicalize_le text
  rw [← endPosition_eq_past] at hbound
  omega

theorem toNat_le_of_mem_pairs {text : Text} {r : Position × Char} (h : r ∈ pairs text) :
    r.1.line.toNat ≤ text.length ∧ r.1.column.toNat ≤ text.length := by
  obtain ⟨i, hi, rfl⟩ := List.getElem_of_mem h
  have hplace : (pairs text)[i].1 = Position.origin.past ((canonicalize text).take i) :=
    fst_getElem_of_placed (pairs_eq_placed text) hi
  have hbound := Position.toNat_past_origin_le ((canonicalize text).take i)
  have hlength := length_canonicalize_le text
  rw [← hplace, List.length_take] at hbound
  omega

/-! ## Pairs put together -/

def shiftedPairs (start : Position) (text : Text) : List (Position × Char) :=
  (pairs text).map fun r => (start.shift r.1, r.2)

theorem map_snd_shiftedPairs (start : Position) (text : Text) :
    (shiftedPairs start text).map (·.2) = canonicalize text := by
  rw [shiftedPairs, List.map_map]
  rfl

section Append

variable {a b c : Text}

/-- What the machine makes of `b` after `a` is, from where `a` ends, what it makes of a text `c` by itself if it gives
the same characters. -/
theorem pairs_append_of_chars (h : a.length + c.length < UInt64.size)
    (hchars : (Normalizer.start.run a).2.chars b = canonicalize c) :
    pairs (a ++ b) = pairs a ++ shiftedPairs (endPosition a) c := by
  have hend := toNat_endPosition_le a
  have hlength := length_canonicalize_le c
  have hsecond : ((Normalizer.start.run a).2.run b).1 = shiftedPairs (endPosition a) c :=
    calc
      ((Normalizer.start.run a).2.run b).1 = placed (endPosition a) (canonicalize c) := by
        rw [Normalizer.run_fst_eq_placed, hchars]
        rfl
      _ = placed ((endPosition a).shift .origin) (canonicalize c) := by rw [Position.shift_origin]
      _ = shiftedPairs (endPosition a) c := by
        rw [shiftedPairs, pairs_eq_placed]
        apply placed_shift
        · show (endPosition a).line.toNat + 0 + (canonicalize c).length < UInt64.size
          omega
        · show (endPosition a).column.toNat + 0 + (canonicalize c).length < UInt64.size
          omega
  rw [← hsecond, pairs, Normalizer.run_append]
  rfl

theorem pairs_append (h : a.length + b.length < UInt64.size)
    (hapart : ¬(a.getLast? = some '\r' ∧ b.head? = some '\n')) :
    pairs (a ++ b) = pairs a ++ shiftedPairs (endPosition a) b := by
  apply pairs_append_of_chars h
  apply Normalizer.chars_eq_canonicalize
  intro hstate hhead
  exact hapart ⟨(Normalizer.state_run_eq_iff .origin a).1 hstate, hhead⟩

theorem pairs_append_break (h : a.length + b.length < UInt64.size) (hlast : a.getLast? = some '\r') :
    pairs (a ++ '\n' :: b) = pairs a ++ shiftedPairs (endPosition a) b := by
  apply pairs_append_of_chars h
  apply Normalizer.chars_break_of_afterReturn
  exact (Normalizer.state_run_eq_iff .origin a).2 hlast

theorem canonicalize_of_pairs_append {start : Position} (h : pairs a = pairs b ++ shiftedPairs start c) :
    canonicalize a = canonicalize b ++ canonicalize c := by
  rw [canonicalize, h, List.map_append, map_snd_shiftedPairs]
  rfl

end Append

/-- **Texts put together**: the pairs of `a ++ b` are those of `a`, and then those of `b` with their positions
shifted to where `a` ends, but that a `\n` at the beginning of `b` is left out after a `\r` at the end of `a`. No
shifted position is beyond the greatest word. -/
theorem pairs_of_concatenation (a b : Text) (h : a.length + b.length < 2 ^ 64) :
    (∀ text, (Stream.ofSource (Chunks.ofList [text])).rest?.map (·.1) = some (pairs text)) ∧
    ∃ s, (Stream.ofSource (Chunks.ofList [a])).rest? = some (pairs a, s) ∧
      (¬(a.getLast? = some '\r' ∧ b.head? = some '\n') →
        pairs (a ++ b) = pairs a ++ shiftedPairs s.position b ∧
        canonicalize (a ++ b) = canonicalize a ++ canonicalize b) ∧
      (a.getLast? = some '\r' ∧ b.head? = some '\n' →
        pairs (a ++ b) = pairs a ++ shiftedPairs s.position b.tail ∧
        canonicalize (a ++ b) = canonicalize a ++ canonicalize b.tail) ∧
      ∀ r ∈ pairs b ++ pairs b.tail,
        (s.position.shift r.1).line.toNat = s.position.line.toNat + r.1.line.toNat ∧
        (s.position.shift r.1).column.toNat =
          if r.1.line = 0 then s.position.column.toNat + r.1.column.toNat else r.1.column.toNat := by
  have hsize : a.length + b.length < UInt64.size := h
  refine ⟨fun text => congrArg (Option.map (·.1)) (rest?_ofText text), _, rest?_ofText a, ?_, ?_, ?_⟩
  · intro hapart
    have hpairs := pairs_append hsize hapart
    exact ⟨hpairs, canonicalize_of_pairs_append hpairs⟩
  · intro ⟨hlast, hhead⟩
    obtain ⟨rest, rfl⟩ : ∃ rest, b = '\n' :: rest := ⟨b.tail, List.eq_cons_of_mem_head? hhead⟩
    rw [List.length_cons] at hsize
    have hpairs := pairs_append_break (show a.length + rest.length < UInt64.size by omega) hlast
    exact ⟨hpairs, canonicalize_of_pairs_append hpairs⟩
  · intro r hr
    have hend := toNat_endPosition_le a
    have htail : b.tail.length ≤ b.length := b.length_tail ▸ Nat.sub_le _ _
    have hbound : r.1.line.toNat ≤ b.length ∧ r.1.column.toNat ≤ b.length := by
      rcases List.mem_append.1 hr with hr | hr
      · exact toNat_le_of_mem_pairs hr
      · have := toNat_le_of_mem_pairs hr
        omega
    exact Position.toNat_shift (show (endPosition a).line.toNat + _ < _ by omega)
      (show (endPosition a).column.toNat + _ < _ by omega)

/-- A `\r\n` that is cut in two is one break, and what comes after it stands on the next line. -/
theorem pairs_of_concatenation_of_cut_break :
    let a : Text := ['x', '\r']
    let b : Text := ['\n', 'y', '\r', 'z']
    a.length + b.length < 2 ^ 64 ∧
      pairs (a ++ b) = pairs a ++ [(⟨1, 0⟩, 'y'), (⟨1, 1⟩, '\n'), (⟨2, 0⟩, 'z')] ∧
      pairs b.tail = [(⟨0, 0⟩, 'y'), (⟨0, 1⟩, '\n'), (⟨1, 0⟩, 'z')] ∧
      canonicalize (a ++ b) = canonicalize a ++ canonicalize b.tail := by
  intro a b
  obtain ⟨-, s, hrest, -, hjoined, -⟩ := pairs_of_concatenation a b (by decide)
  obtain ⟨hpairs, hcanonical⟩ := hjoined ⟨by decide, by decide⟩
  have hs : s.position = ⟨1, 0⟩ := by
    rw [rest?_ofText, Option.some.injEq, Prod.mk.injEq] at hrest
    rw [← hrest.2]
    rfl
  rw [hs] at hpairs
  exact ⟨by decide, hpairs, by decide, hcanonical⟩

end CanonicalText
