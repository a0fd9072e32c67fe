import Mathlib
import CanonicalText.Proofs.Location
import CanonicalText.Proofs.Reader.Ends

/-!
# Coordinates of a stream

Whatever a source gives and however often it ends, a stream on it counts its items: each stands where the one before
it leads. A counter that is full stays so, but that takes as many items as there are words, and up to there no
position comes twice.

* `Stream.calls` : what a number of calls gives;
* `Stream.next_cases`, `Stream.next_eq_none_iff` : what one call can do, and when it gives nothing;
* `Stream.calls_eq_placed` : the items of all calls are placed from where the stream is;
* `Position.lt_past` : a text leads forward as long as no counter is full;
* `calls_positions` : the positions of the items, and of the stream after them.
-/

namespace CanonicalText

/-! ## Forward in a text -/

namespace Position

variable {p : Position}

/-- A character leads forward unless its counter is full. -/
theorem lt_advance (hline : p.line.toNat + 1 < UInt64.size) (hcolumn : p.column.toNat + 1 < UInt64.size)
    (c : Char) : p < p.advance c := by
  rw [lt_iff_toNat, toNat_line_advance, toNat_column_advance]
  split <;> omega

/-- **A text leads forward** if no counter can be full before its end. -/
theorem lt_past {text : Text} (hne : text ≠ []) (hline : p.line.toNat + text.length < UInt64.size)
    (hcolumn : p.column.toNat + text.length < UInt64.size) : p < p.past text := by
  induction text generalizing p with
  | nil => exact absurd rfl hne
  | cons c rest ih =>
    rw [List.length_cons] at hline hcolumn
    have hfirst : p < p.advance c := lt_advance (by omega) (by omega) c
    by_cases hrest : rest = []
    · rw [hrest]
      exact hfirst
    · have hlines := p.toNat_line_advance_le c
      have hcolumns := p.toNat_column_advance_le c
      exact hfirst.trans (ih hrest (by omega) (by omega))

theorem past_take_lt (text : Text) {i j : Nat} (hij : i < j) (hj : j < text.length) (hsize : j < UInt64.size) :
    origin.past (text.take i) < origin.past (text.take j) := by
  have hbound := toNat_past_origin_le (text.take i)
  have hsplit : text.take j = text.take i ++ (text.drop i).take (j - i) := by
    rw [← List.take_add, Nat.add_sub_cancel' hij.le]
  have hbetween : ((text.drop i).take (j - i)).length = j - i :=
    List.length_take_of_le (by rw [List.length_drop]; omega)
  rw [List.length_take_of_le (by omega)] at hbound
  rw [hsplit, past_append]
  apply lt_past
  · exact List.ne_nil_of_length_pos (by omega)
  · omega
  · omega

end Position

/-! ## Calls -/

namespace Stream

variable {σ : Type} [Source σ]

/-- The items that so many calls of `next` give, whatever ends come between them, and the stream after the calls. -/
def calls : Nat → Stream σ → List (Position × Char) × Stream σ
  | 0, s => ([], s)
  | n + 1, s => let r := calls n s.next.2; (s.next.1.toList ++ r.1, r.2)

/-- **One call** gives nothing and leaves the position as it is, or gives an item there and goes past it. -/
theorem next_cases (s : Stream σ) :
    s.next.1 = none ∧ s.next.2.position = s.position ∨
      ∃ c, s.next.1 = some (s.position, c) ∧ s.next.2.position = s.position.advance c := by
  fun_induction next s with
  | case1 s source hpull => exact .inl ⟨rfl, rfl⟩
  | case2 s c source hpull fed hfed ih =>
    -- the character is swallowed, and the machine stays where it is
    have hposition : fed.2.position = s.position := by
      rw [show fed.2 = _ from Normalizer.feed_of_none hfed]
      rfl
    rw [← hposition]
    exact ih
  | case3 s c source hpull fed hfed =>
    obtain ⟨⟨p, d⟩, hitem⟩ := Option.ne_none_iff_exists'.1 hfed
    obtain ⟨rfl, hposition⟩ := Normalizer.feed_of_some hitem
    exact .inr ⟨d, hitem, hposition⟩

theorem next_eq_none_iff_of_normal {s : Stream σ} (h : s.machine.state = .normal) :
    s.next.1 = none ↔ (Source.pull s.source).1 = none := by
  rcases hpull : Source.pull s.source with ⟨_ | c, source⟩
  · rw [next_of_end hpull]
    exact iff_of_true rfl rfl
  · have hc : (s.machine.feed c).1 ≠ none := by
      intro hnone
      rw [Normalizer.feed_eq_none_iff, h] at hnone
      exact LineState.noConfusion hnone.1
    obtain ⟨item, hitem⟩ := Option.ne_none_iff_exists'.1 hc
    rw [next_of_item hpull hitem]
    simp

/-- **A call gives nothing just at an end of the source**, which may come after a `\n` that is swallowed. -/
theorem next_eq_none_iff (s : Stream σ) :
    s.next.1 = none ↔
      (Source.pull s.source).1 = none ∨
      s.machine.state = .afterReturn ∧ (Source.pull s.source).1 = some '\n' ∧
        (Source.pull (Source.pull s.source).2).1 = none := by
  rcases hpull : Source.pull s.source with ⟨_ | c, source⟩
  · rw [next_of_end hpull]
    simp
  · cases hc : (s.machine.feed c).1 with
    | none =>
      have hnormal : (s.machine.feed c).2.state = .normal := by rw [Normalizer.feed_of_none hc]
      obtain ⟨hstate, rfl⟩ := Normalizer.feed_eq_none_iff.1 hc
      rw [next_of_swallowed hpull hc, next_eq_none_iff_of_normal hnormal]
      simp [hstate]
    | some item =>
      have hkept : ¬(s.machine.state = .afterReturn ∧ c = '\n') := by
        rw [← Normalizer.feed_eq_none_iff, hc]
        nofun
      rw [next_of_item hpull hc]
      simpa using fun hstate hbreak => absurd ⟨hstate, hbreak⟩ hkept

/-- **The items of all calls** are placed from where the stream is, and its position is then past them. -/
theorem calls_eq_placed (s : Stream σ) (n : Nat) :
    (s.calls n).1 = placed s.position ((s.calls n).1.map (·.2)) ∧
      (s.calls n).2.position = s.position.past ((s.calls n).1.map (·.2)) := by
  induction n generalizing s with
  | zero => exact ⟨rfl, rfl⟩
  | succ n ih =>
    obtain ⟨hplaced, hpast⟩ := ih s.next.2
    rcases s.next_cases with ⟨hnone, hstays⟩ | ⟨c, hitem, hadvance⟩
    · rw [hstays] at hplaced hpast
      rw [calls, hnone]
      exact ⟨hplaced, hpast⟩
    · rw [hadvance] at hplaced hpast
      rw [calls, hitem]
      refine ⟨?_, hpast⟩
      exact congrArg ((s.position, c) :: ·) hplaced

end Stream

/-- **Positions count, and none comes twice** among the items whose number is a word, whatever calls there are on
whatever source. Later on a full counter stays at the greatest word, and none ever wraps around. -/
theorem calls_positions {σ : Type} [Source σ] (source : σ) (n : Nat) :
    let items := ((Stream.ofSource source).calls n).1
    let stream := ((Stream.ofSource source).calls n).2
    let before (j : Nat) := (items.map (·.2)).take j
    (∀ (i j : Nat) (hij : i < j) (hj : j < items.length), j < 2 ^ 64 → items[i].1 < items[j].1) ∧
    (∀ (j : Nat) (hj : j < items.length),
      (j < 2 ^ 64 → items[j].1.line.toNat = lineBreaks (before j) ∧
        items[j].1.column.toNat = lastColumn (before j)) ∧
      items[j].1.line.toNat = min (lineBreaks (before j)) (2 ^ 64 - 1) ∧
      items[j].1.column.toNat = min (lastColumn (before j)) (2 ^ 64 - 1)) ∧
    stream.position.line.toNat = min (lineBreaks (items.map (·.2))) (2 ^ 64 - 1) ∧
    stream.position.column.toNat = min (lastColumn (items.map (·.2))) (2 ^ 64 - 1) ∧
    (∀ item, stream.next.1 = some item → item.1 = stream.position) ∧
    (stream.next.1 = none ↔
      (Source.pull stream.source).1 = none ∨
      stream.machine.state = .afterReturn ∧ (Source.pull stream.source).1 = some '\n' ∧
        (Source.pull (Source.pull stream.source).2).1 = none) := by
  intro items stream before
  obtain ⟨hplaced, hpast⟩ := (Stream.ofSource source).calls_eq_placed n
  have hplace (j : Nat) (hj : j < items.length) : items[j].1 = Position.origin.past (before j) :=
    fst_getElem_of_placed hplaced hj
  have hlength (j : Nat) (hj : j < items.length) : (before j).length = j :=
    List.length_take_of_le (by rw [List.length_map]; exact hj.le)
  have hend : stream.position = Position.origin.past (items.map (·.2)) := hpast
  refine ⟨?_, ?_, ?_, ?_, ?_, stream.next_eq_none_iff⟩
  · intro i j hij hj hsize
    rw [hplace i (hij.trans hj), hplace j hj]
    exact Position.past_take_lt _ hij (by rwa [List.length_map]) hsize
  · intro j hj
    rw [hplace j hj]
    refine ⟨fun hsize => ?_, Position.toNat_past_origin (before j)⟩
    apply (Position.eq_after_iff _).1 (Position.past_origin _)
    · rwa [hlength j hj]
    · rwa [hlength j hj]
  · rw [hend]
    exact (Position.toNat_past_origin _).1
  · rw [hend]
    exact (Position.toNat_past_origin _).2
  · intro item hitem
    rcases stream.next_cases with ⟨hnone, -⟩ | ⟨c, hsome, -⟩
    · rw [hnone] at hitem
      cases hitem
    · rw [hsome] at hitem
      cases hitem
      rfl

/-- A cycle without an end: each round gives its break once, and the rest of that is swallowed. -/
theorem calls_positions_of_cycle :
    let items := ((Stream.ofSource (Cycle.ofText ['a', '\r', '\n'])).calls 4).1
    items = [(⟨0, 0⟩, 'a'), (⟨0, 1⟩, '\n'), (⟨1, 0⟩, 'a'), (⟨1, 1⟩, '\n')] ∧
      ∃ hj : 3 < items.length, items[1].1 < items[3].1 ∧
        items[3].1.line.toNat = 1 ∧ items[3].1.column.toNat = 1 := by
  intro items
  obtain ⟨hforward, hplace, -⟩ := calls_positions (Cycle.ofText ['a', '\r', '\n']) 4
  have hitems : items = [(⟨0, 0⟩, 'a'), (⟨0, 1⟩, '\n'), (⟨1, 0⟩, 'a'), (⟨1, 1⟩, '\n')] := by
    decide +kernel
  have hj : 3 < items.length := by
    rw [hitems]
    decide
  obtain ⟨hline, hcolumn⟩ := (hplace 3 hj).1 (by decide)
  have hbefore : (items.map (·.2)).take 3 = ['a', '\n', 'a'] := by
    rw [hitems]
    rfl
  refine ⟨hitems, hj, hforward 1 3 (by decide) hj (by decide), ?_, ?_⟩
  · exact hline.trans (congrArg lineBreaks hbefore)
  · exact hcolumn.trans (congrArg lastColumn hbefore)

end CanonicalText
