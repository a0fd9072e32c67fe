import Mathlib
import CanonicalText.Reader.Stream
import CanonicalText.Proofs.Reader.Placement

/-!
# Up to the next end

A source that is pulled until it gives none has given a text (`Source.Gives`), and a stream on it the items
that the machine makes of that text (`Stream.Ahead`). Each way to read on takes a part of these items from
the front, and passes the end only if it asks for more than there are.

* `Stream.next_of_ahead_cons`, `Stream.next_of_ahead_nil` : one item, or the end;
* `Stream.take_of_ahead`, `Stream.skipTo_of_ahead` : several of them, or the end;
* `Stream.rest?_of_ahead` : all of them, and the end;
* `Stream.Ahead.position_eq` : the first of them stands where the stream is.
-/

namespace CanonicalText

variable {σ : Type} [Source σ]

/-- The characters that a source gives before its next end, and the source after that end. -/
inductive Source.Gives : σ → Text → σ → Prop
  | ended {s after : σ} (h : Source.pull s = (none, after)) : Gives s [] after
  | given {s next after : σ} {c : Char} {text : Text} (h : Source.pull s = (some c, next))
      (rest : Gives next text after) : Gives s (c :: text) after

/-- Sources that know how many characters come before their next end. -/
class LawfulSource (σ : Type) [Source σ] : Prop where
  remaining?_of_gives {s after : σ} {text : Text} :
    Source.Gives s text after → Source.remaining? s = some text.length

namespace Stream

theorem next_of_end {s : Stream σ} {source : σ} (h : Source.pull s.source = (none, source)) :
    s.next = (none, ⟨source, s.machine⟩) := by
  rw [next, h]

theorem next_of_item {s : Stream σ} {source : σ} {c : Char} {item : Position × Char}
    (h : Source.pull s.source = (some c, source)) (hc : (s.machine.feed c).1 = some item) :
    s.next = (some item, ⟨source, (s.machine.feed c).2⟩) := by
  rw [next, h]
  simp [hc]

theorem next_of_swallowed {s : Stream σ} {source : σ} {c : Char}
    (h : Source.pull s.source = (some c, source)) (hc : (s.machine.feed c).1 = none) :
    s.next = next ⟨source, (s.machine.feed c).2⟩ := by
  rw [next, h]
  simp [hc]

/-- The items that a stream gives before its next end, and the stream after that end. -/
def Ahead (s : Stream σ) (items : List (Position × Char)) (after : Stream σ) : Prop :=
  ∃ text, Source.Gives s.source text after.source ∧ s.machine.run text = (items, after.machine)

theorem ahead_of_gives {s : Stream σ} {text : Text} {source : σ} (h : Source.Gives s.source text source) :
    s.Ahead (s.machine.run text).1 ⟨source, (s.machine.run text).2⟩ := ⟨text, h, rfl⟩

theorem Ahead.position_eq {s after : Stream σ} {item : Position × Char}
    {items : List (Position × Char)} (h : s.Ahead (item :: items) after) : item.1 = s.position := by
  obtain ⟨text, -, hrun⟩ := h
  have hplaced := s.machine.run_fst_eq_placed text
  rw [hrun] at hplaced
  cases hchars : s.machine.chars text with
  | nil =>
    rw [hchars] at hplaced
    cases hplaced
  | cons c chars =>
    rw [hchars, placed] at hplaced
    cases hplaced
    rfl

/-- One step on a source: the end, an item, or a character that gives none. -/
theorem next_of_gives {source after : σ} {text : Text} (h : Source.Gives source text after)
    (m : Normalizer) :
    match (m.run text).1 with
    | [] => next ⟨source, m⟩ = (none, ⟨after, (m.run text).2⟩)
    | item :: items => ∃ s : Stream σ, next ⟨source, m⟩ = (some item, s) ∧
        s.Ahead items ⟨after, (m.run text).2⟩ := by
  induction h generalizing m with
  | ended h => exact next_of_end h
  | @given source next after c text h hrest ih =>
    cases hc : (m.feed c).1 with
    | none =>
      have hrun : m.run (c :: text) = (m.feed c).2.run text := by simp [Normalizer.run, hc]
      rw [hrun, next_of_swallowed h hc]
      exact ih (m.feed c).2
    | some item =>
      have hrun : m.run (c :: text) =
          (item :: ((m.feed c).2.run text).1, ((m.feed c).2.run text).2) := by
        simp [Normalizer.run, hc]
      rw [hrun]
      exact ⟨⟨next, (m.feed c).2⟩, next_of_item h hc, text, hrest, rfl⟩

theorem next_of_ahead_nil {s after : Stream σ} (h : s.Ahead [] after) : s.next = (none, after) := by
  obtain ⟨text, hgives, hrun⟩ := h
  have hnext := next_of_gives hgives s.machine
  rw [hrun] at hnext
  exact hnext

theorem next_of_ahead_cons {s after : Stream σ} {item : Position × Char}
    {items : List (Position × Char)} (h : s.Ahead (item :: items) after) :
    ∃ s' : Stream σ, s.next = (some item, s') ∧ s'.Ahead items after := by
  obtain ⟨text, hgives, hrun⟩ := h
  have hnext := next_of_gives hgives s.machine
  rw [hrun] at hnext
  exact hnext

/-- Of `n` items that are asked for, those before the end are given; the end is passed only if they are
fewer. -/
theorem take_of_ahead {s after : Stream σ} {items : List (Position × Char)} (h : s.Ahead items after)
    (n : Nat) :
    if n ≤ items.length then ∃ s', s.take n = (items.take n, s') ∧ s'.Ahead (items.drop n) after
    else s.take n = (items, after) := by
  induction n generalizing s items with
  | zero => exact ⟨s, rfl, h⟩
  | succ n ih =>
    cases items with
    | nil => simp [take, next_of_ahead_nil h]
    | cons item items =>
      obtain ⟨s', hnext, hahead⟩ := next_of_ahead_cons h
      have htake : s.take (n + 1) = (item :: (s'.take n).1, (s'.take n).2) := by simp [take, hnext]
      have hrest := ih hahead
      simp only [List.length_cons, Nat.succ_le_succ_iff, htake]
      split at hrest
      · next hle =>
        obtain ⟨s'', hs'', hahead'⟩ := hrest
        rw [if_pos hle, hs'']
        exact ⟨s'', rfl, hahead'⟩
      · next hgt => rw [if_neg hgt, hrest]

theorem skipTo_of_ahead {s after : Stream σ} {items : List (Position × Char)} (h : s.Ahead items after)
    (n : Nat) :
    match items[n]? with
    | some item => ∃ s', s.skipTo n = (some item, s') ∧ s'.Ahead (items.drop (n + 1)) after
    | none => s.skipTo n = (none, after) := by
  induction n generalizing s items with
  | zero =>
    cases items with
    | nil => exact next_of_ahead_nil h
    | cons item items => exact next_of_ahead_cons h
  | succ n ih =>
    cases items with
    | nil => simp [skipTo, next_of_ahead_nil h]
    | cons item items =>
      obtain ⟨s', hnext, hahead⟩ := next_of_ahead_cons h
      have hskip : s.skipTo (n + 1) = s'.skipTo n := by simp [skipTo, hnext]
      rw [List.getElem?_cons_succ, hskip]
      exact ih hahead

theorem rest?_of_ahead [LawfulSource σ] {s after : Stream σ} {items : List (Position × Char)}
    (h : s.Ahead items after) : s.rest? = some (items, after) := by
  obtain ⟨text, hgives, hrun⟩ := h
  have hle : items.length ≤ text.length := by
    have := s.machine.length_run_le text
    rwa [hrun] at this
  have htake := take_of_ahead ⟨text, hgives, hrun⟩ (text.length + 1)
  rw [if_neg (by omega)] at htake
  rw [rest?, LawfulSource.remaining?_of_gives hgives, Option.map_some, htake]

end Stream

/-! ## Chunks and cycles -/

namespace Source

theorem gives_chunks (current : Text) (later : List Text) :
    Gives (Chunks.mk current later) current (Chunks.ofList later) := by
  induction current with
  | nil => cases later <;> exact .ended rfl
  | cons c current ih => exact .given rfl ih

section Embedding

variable {τ : Type} [Source τ] (ι : σ → τ) (hι : ∀ s, pull (ι s) = ((pull s).1, ι (pull s).2))

include hι

theorem Gives.embed {s after : σ} {text : Text} (h : Gives s text after) :
    Gives (ι s) text (ι after) := by
  induction h with
  | ended h => exact .ended (by rw [hι, h])
  | given h _ ih => exact .given (by rw [hι, h]) ih

theorem Gives.of_embedded {s : σ} {after : τ} {text : Text} (h : Gives (ι s) text after) :
    ∃ after', Gives s text after' := by
  generalize hs : ι s = t at h
  induction h generalizing s with
  | ended h =>
    subst hs
    rw [hι, Prod.mk.injEq] at h
    exact ⟨_, .ended (Prod.ext h.1 rfl)⟩
  | given h _ ih =>
    subst hs
    rw [hι, Prod.mk.injEq] at h
    obtain ⟨after', hrest⟩ := ih h.2
    exact ⟨after', .given (Prod.ext h.1 rfl) hrest⟩

end Embedding

end Source

instance : LawfulSource Chunks where
  remaining?_of_gives h := by
    induction h with
    | @ended s after h =>
      obtain ⟨_ | ⟨d, current⟩, later⟩ := s
      · rfl
      · cases h
    | @given s next after c text h _ ih =>
      obtain ⟨_ | ⟨d, current⟩, later⟩ := s
      · cases later <;> cases h
      · cases h
        exact congrArg (Option.map (· + 1)) ih

theorem Cycle.remaining?_eq (s : Cycle) :
    Source.remaining? s = if s.text = [] then some s.left.length else none := rfl

/-- A cycle with something to repeat has no end. -/
instance : LawfulSource Cycle where
  remaining?_of_gives h := by
    induction h with
    | @ended s after h =>
      obtain ⟨_ | ⟨d, repeated⟩, _ | ⟨e, left⟩⟩ := s
      · rw [Cycle.remaining?_eq, if_pos rfl]
      all_goals cases h
    | @given s next after c text h _ ih =>
      obtain ⟨_ | ⟨d, repeated⟩, _ | ⟨e, left⟩⟩ := s
      · cases h
      · cases h
        rw [Cycle.remaining?_eq, if_pos rfl] at ih ⊢
        exact congrArg (Option.map (· + 1)) ih
      all_goals
        cases h
        rw [Cycle.remaining?_eq, if_neg (List.cons_ne_nil _ _)] at ih
        cases ih

instance : LawfulSource Feed where
  remaining?_of_gives {s _ _} h := by
    cases s with
    | chunks s =>
      obtain ⟨_, hin⟩ := h.of_embedded Feed.chunks fun _ => rfl
      have hcount := LawfulSource.remaining?_of_gives hin
      exact hcount
    | cycle s =>
      obtain ⟨_, hin⟩ := h.of_embedded Feed.cycle fun _ => rfl
      have hcount := LawfulSource.remaining?_of_gives hin
      exact hcount

/-- **A text is drained** to its canonical characters, whose end is where the stream is then. -/
theorem rest?_ofText (text : Text) :
    (Stream.ofSource (Chunks.ofList [text])).rest? =
      some (pairs text, ⟨Chunks.ofList [], (Normalizer.start.run text).2⟩) :=
  Stream.rest?_of_ahead (Stream.ahead_of_gives (Source.gives_chunks text []))

end CanonicalText
