import Mathlib
import CanonicalText.Proofs.Reader.Concatenation
import CanonicalText.Proofs.Reader.Coordinates

/-!
# No further than needed

A source is asked for no more than an item needs. To see how often it is pulled, it is recorded: a recorded source
answers as the source does, and keeps its answers. A stream on it gives the same items, and its record shows what it
has pulled so far.

* `Source.answers`, `Source.after` : what a source answers to a number of pulls, and the source after them;
* `Stream.Draws`, `Stream.draws_next` : what one call draws from its source;
* `Stream.run_calls` : what many calls draw, and what the machine makes of it;
* `Stream.Reached` : the streams that calls of all kinds lead to;
* `Stream.exists_calls_of_pulls` : how many calls are over after a number of pulls;
* `Stream.pulls_no_further` : what is pulled, and what has been given by then.
-/

namespace CanonicalText

/-! ## Answers of sources -/

namespace Source

variable {σ : Type} [Source σ]

def answers : Nat → σ → List (Option Char)
  | 0, _ => []
  | n + 1, s => (pull s).1 :: answers n (pull s).2

def after : Nat → σ → σ
  | 0, s => s
  | n + 1, s => after n (pull s).2

theorem length_answers (n : Nat) (s : σ) : (answers n s).length = n := by
  induction n generalizing s with
  | zero => rfl
  | succ n ih => rw [answers, List.length_cons, ih]

theorem answers_add (m n : Nat) (s : σ) : answers (m + n) s = answers m s ++ answers n (after m s) := by
  induction m generalizing s with
  | zero => rw [Nat.zero_add]; rfl
  | succ m ih => rw [Nat.succ_add, answers, ih]; rfl

theorem after_add (m n : Nat) (s : σ) : after (m + n) s = after n (after m s) := by
  induction m generalizing s with
  | zero => rw [Nat.zero_add]; rfl
  | succ m ih => rw [Nat.succ_add, after, ih]; rfl

def Endless (s : σ) : Prop := ∀ n, none ∉ answers n s

theorem Endless.after {s : σ} (h : Endless s) (n : Nat) : Endless (after n s) := by
  intro m hm
  apply h (n + m)
  rw [answers_add]
  exact List.mem_append_right _ hm

end Source

theorem Cycle.endless {s : Cycle} (h : s.text ≠ []) : Source.Endless s := by
  intro n
  induction n generalizing s with
  | zero => exact List.not_mem_nil
  | succ n ih =>
    obtain ⟨c, rest, htext⟩ := List.exists_cons_of_ne_nil h
    have hpull : ∃ c, (Source.pull s).1 = some c ∧ (Source.pull s).2.text = s.text := by
      obtain ⟨text, left⟩ := s
      cases htext
      cases left with
      | nil => exact ⟨_, rfl, rfl⟩
      | cons d left => exact ⟨_, rfl, rfl⟩
    obtain ⟨d, hd, hsame⟩ := hpull
    rw [Source.answers, hd, List.mem_cons, not_or]
    exact ⟨nofun, ih (hsame ▸ h)⟩

/-- A source with all that it has answered so far, the oldest answer first. -/
structure Recorded (σ : Type) where
  source : σ
  answers : List (Option Char)

namespace Recorded

variable {σ : Type}

def ofSource (source : σ) : Recorded σ := ⟨source, []⟩

def chars (r : Recorded σ) : Text := r.answers.reduceOption

def pulled [Source σ] (r : Recorded σ) (n : Nat) : Recorded σ :=
  ⟨Source.after n r.source, r.answers ++ Source.answers n r.source⟩

instance [Source σ] : Source (Recorded σ) where
  pull r := ((Source.pull r.source).1, r.pulled 1)
  hint r := Source.hint r.source
  remaining? r := Source.remaining? r.source

variable [Source σ]

theorem source_pulled (r : Recorded σ) (n : Nat) : (r.pulled n).source = Source.after n r.source := rfl

theorem pulled_add (r : Recorded σ) (m n : Nat) : r.pulled (m + n) = (r.pulled m).pulled n := by
  simp only [pulled, Source.after_add, Source.answers_add, List.append_assoc]

theorem length_answers_pulled (r : Recorded σ) (n : Nat) :
    (r.pulled n).answers.length = r.answers.length + n := by
  rw [pulled, List.length_append, Source.length_answers]

end Recorded

/-! ## One call -/

/-- What a call draws from its source, from the first answer to the one that decides, the item that it gives, and the
machine after it. -/
inductive Stream.Draws : Normalizer → List (Option Char) → Option (Position × Char) → Normalizer → Prop
  | ended {m : Normalizer} : Draws m [none] none m
  | given {m : Normalizer} {c : Char} {item : Position × Char} (h : (m.feed c).1 = some item) :
      Draws m [some c] (some item) (m.feed c).2
  | swallowed {m m' : Normalizer} {c : Char} {drawn : List (Option Char)} {item : Option (Position × Char)}
      (h : (m.feed c).1 = none) (rest : Draws (m.feed c).2 drawn item m') : Draws m (some c :: drawn) item m'

namespace Stream

section Draws

variable {m m' : Normalizer} {drawn : List (Option Char)} {item : Option (Position × Char)}

theorem Draws.run_eq (h : Draws m drawn item m') : m.run drawn.reduceOption = (item.toList, m') := by
  induction h with
  | ended => rfl
  | given h => simp [List.reduceOption_cons_of_some, Normalizer.run, h]
  | swallowed h _ ih => simp [List.reduceOption_cons_of_some, Normalizer.run, h, ih]

theorem Draws.count_eq (h : Draws m drawn item m') : item.toList.length + drawn.count none = 1 := by
  induction h with
  | ended => rfl
  | given h => rfl
  | @swallowed _ _ c _ _ h _ ih => rwa [List.count_cons_of_ne (Option.some_ne_none c)]

theorem Draws.eq_singleton (h : Draws m drawn item m') (hm : m.state = .normal) : ∃ a, drawn = [a] := by
  cases h with
  | ended => exact ⟨_, rfl⟩
  | given => exact ⟨_, rfl⟩
  | swallowed h =>
    rw [Normalizer.feed_eq_none_iff, hm] at h
    cases h.1

/-- **One or two answers** are drawn: two just when the first one is a `\n` after a `\r`. -/
theorem Draws.cases (h : Draws m drawn item m') :
    (m.state = .afterReturn ∧ ∃ a, drawn = [some '\n', a]) ∨
      ∃ a, drawn = [a] ∧ ¬(m.state = .afterReturn ∧ a = some '\n') := by
  cases h with
  | ended => exact .inr ⟨none, rfl, by simp⟩
  | given h =>
    refine .inr ⟨_, rfl, fun ⟨hstate, hc⟩ => ?_⟩
    have hnone := Normalizer.feed_eq_none_iff.2 ⟨hstate, Option.some.inj hc⟩
    rw [h] at hnone
    cases hnone
  | swallowed h hrest =>
    obtain ⟨hstate, rfl⟩ := Normalizer.feed_eq_none_iff.1 h
    obtain ⟨a, rfl⟩ := hrest.eq_singleton (by rw [Normalizer.feed_of_none h])
    exact .inl ⟨hstate, a, rfl⟩

end Draws

variable {σ : Type} [Source σ]

def forget (s : Stream (Recorded σ)) : Stream σ := ⟨s.source.source, s.machine⟩

/-- **What one call does**: it draws answers from the source, and the record shows them. -/
theorem draws_next (s : Stream (Recorded σ)) :
    ∃ n, s.next.2.source = s.source.pulled n ∧
      Draws s.machine (Source.answers n s.source.source) s.next.1 s.next.2.machine := by
  fun_induction next s with
  | case1 s source hpull =>
    obtain ⟨hnone, rfl⟩ := Prod.mk.inj hpull
    refine ⟨1, rfl, ?_⟩
    rw [Source.answers, hnone]
    exact .ended
  | case2 s c source hpull fed hfed ih =>
    obtain ⟨hc, rfl⟩ := Prod.mk.inj hpull
    obtain ⟨n, hsource, hdraws⟩ := ih
    refine ⟨1 + n, ?_, ?_⟩
    · rw [hsource, Recorded.pulled_add]
    · rw [Nat.add_comm, Source.answers, hc]
      exact .swallowed hfed hdraws
  | case3 s c source hpull fed hfed =>
    obtain ⟨hc, rfl⟩ := Prod.mk.inj hpull
    obtain ⟨item, hitem⟩ := Option.ne_none_iff_exists'.1 hfed
    refine ⟨1, rfl, ?_⟩
    rw [Source.answers, hc, show fed.1 = some item from hitem]
    exact .given hitem

theorem next_forget (s : Stream (Recorded σ)) : s.forget.next = (s.next.1, s.next.2.forget) := by
  fun_induction next s with
  | case1 s source hpull =>
    obtain ⟨hnone, rfl⟩ := Prod.mk.inj hpull
    exact next_of_end (Prod.ext hnone rfl)
  | case2 s c source hpull fed hfed ih =>
    obtain ⟨hc, rfl⟩ := Prod.mk.inj hpull
    rw [← ih]
    exact next_of_swallowed (Prod.ext hc rfl) hfed
  | case3 s c source hpull fed hfed =>
    obtain ⟨hc, rfl⟩ := Prod.mk.inj hpull
    obtain ⟨item, hitem⟩ := Option.ne_none_iff_exists'.1 hfed
    rw [hitem]
    exact next_of_item (Prod.ext hc rfl) hitem

/-! ## Many calls -/

/-- What many calls draw, and what the machine makes of it: so many calls, so many items and ends. -/
theorem run_calls (s : Stream (Recorded σ)) (n : Nat) :
    ∃ k, (s.calls n).2.source = s.source.pulled k ∧ n ≤ k ∧ k ≤ 2 * n ∧
      s.machine.run (Source.answers k s.source.source).reduceOption = ((s.calls n).1, (s.calls n).2.machine) ∧
      (s.calls n).1.length + (Source.answers k s.source.source).count none = n := by
  induction n generalizing s with
  | zero => exact ⟨0, by simp [calls, Recorded.pulled, Source.after, Source.answers], le_rfl, le_rfl, rfl, rfl⟩
  | succ n ih =>
    obtain ⟨i, hsource, hdraws⟩ := s.draws_next
    obtain ⟨k, hpulled, hle, hge, hrun, hcount⟩ := ih s.next.2
    have hfirst := hdraws.run_eq
    have hone := hdraws.count_eq
    have hlength : 1 ≤ i ∧ i ≤ 2 := by
      rw [← Source.length_answers i s.source.source]
      rcases hdraws.cases with ⟨-, a, ha⟩ | ⟨a, ha, -⟩ <;> simp [ha]
    rw [hsource] at hpulled
    rw [hsource, Recorded.source_pulled] at hrun hcount
    refine ⟨i + k, ?_, by omega, by omega, ?_, ?_⟩
    · rw [Recorded.pulled_add]
      exact hpulled
    · rw [Source.answers_add, List.reduceOption_append, Normalizer.run_append, hfirst, hrun]
      rfl
    · rw [Source.answers_add, List.count_append, calls, List.length_append]
      omega

theorem calls_forget (s : Stream (Recorded σ)) (n : Nat) :
    s.forget.calls n = ((s.calls n).1, (s.calls n).2.forget) := by
  induction n generalizing s with
  | zero => rfl
  | succ n ih => rw [calls, next_forget, ih]; rfl

theorem calls_add (s : Stream σ) (m n : Nat) :
    s.calls (m + n) = ((s.calls m).1 ++ ((s.calls m).2.calls n).1, ((s.calls m).2.calls n).2) := by
  induction m generalizing s with
  | zero => rw [Nat.zero_add]; rfl
  | succ m ih => rw [Nat.succ_add, calls, ih, calls, List.append_assoc]

theorem calls_succ (s : Stream σ) (n : Nat) :
    s.calls (n + 1) = ((s.calls n).1 ++ (s.calls n).2.next.1.toList, (s.calls n).2.next.2) := by
  rw [calls_add, calls, calls, List.append_nil]

/-! ## Calls of all kinds -/

/-- The streams that calls lead to, whatever is asked for. -/
inductive Reached (s : Stream σ) : Stream σ → Prop
  | here : Reached s s
  | next {t : Stream σ} (h : Reached s t) : Reached s t.next.2
  | skipTo {t : Stream σ} (h : Reached s t) (n : Nat) : Reached s (t.skipTo n).2
  | take {t : Stream σ} (h : Reached s t) (n : Nat) : Reached s (t.take n).2
  | rest {t u : Stream σ} {items : List (Position × Char)} (h : Reached s t)
      (hrest : t.rest? = some (items, u)) : Reached s u

theorem exists_calls_of_skipTo (s : Stream σ) (n : Nat) : ∃ k, (s.skipTo n).2 = (s.calls k).2 := by
  induction n generalizing s with
  | zero => exact ⟨1, rfl⟩
  | succ n ih =>
    rw [skipTo]
    split
    · next t h => exact ⟨1, (congrArg Prod.snd h).symm⟩
    · next t h =>
      obtain ⟨k, hk⟩ := ih t
      refine ⟨k + 1, ?_⟩
      rw [calls, h]
      exact hk

theorem exists_calls_of_take (s : Stream σ) (n : Nat) : ∃ k, (s.take n).2 = (s.calls k).2 := by
  induction n generalizing s with
  | zero => exact ⟨0, rfl⟩
  | succ n ih =>
    rw [take]
    split
    · next t h => exact ⟨1, (congrArg Prod.snd h).symm⟩
    · next t h =>
      obtain ⟨k, hk⟩ := ih t
      refine ⟨k + 1, ?_⟩
      rw [calls, h]
      exact hk

/-- Whatever is asked for, the source is read by calls of `next`. -/
theorem Reached.exists_calls {s t : Stream σ} (h : s.Reached t) : ∃ n, t = (s.calls n).2 := by
  induction h with
  | here => exact ⟨0, rfl⟩
  | next _ ih =>
    obtain ⟨n, rfl⟩ := ih
    exact ⟨n + 1, by rw [calls_succ]⟩
  | skipTo _ m ih =>
    obtain ⟨n, rfl⟩ := ih
    obtain ⟨k, hk⟩ := exists_calls_of_skipTo (s.calls n).2 m
    exact ⟨n + k, by rw [hk, calls_add]⟩
  | take _ m ih =>
    obtain ⟨n, rfl⟩ := ih
    obtain ⟨k, hk⟩ := exists_calls_of_take (s.calls n).2 m
    exact ⟨n + k, by rw [hk, calls_add]⟩
  | rest _ hrest ih =>
    obtain ⟨n, rfl⟩ := ih
    obtain ⟨m, -, hm⟩ := Option.map_eq_some_iff.1 hrest
    obtain ⟨k, hk⟩ := exists_calls_of_take (s.calls n).2 (m + 1)
    exact ⟨n + k, by rw [calls_add, ← hk, hm]⟩

theorem reached_calls (s : Stream σ) (n : Nat) : s.Reached (s.calls n).2 := by
  induction n with
  | zero => exact .here
  | succ n ih =>
    rw [calls_succ]
    exact .next ih

theorem take_forget (s : Stream (Recorded σ)) (n : Nat) :
    s.forget.take n = ((s.take n).1, (s.take n).2.forget) := by
  induction n generalizing s with
  | zero => rfl
  | succ n ih =>
    rw [take, take, next_forget]
    split
    · next t h =>
      obtain ⟨hnone, rfl⟩ := Prod.mk.inj h
      rw [show s.next = (none, s.next.2) from Prod.ext hnone rfl]
    · next item t h =>
      obtain ⟨hitem, rfl⟩ := Prod.mk.inj h
      rw [show s.next = (some item, s.next.2) from Prod.ext hitem rfl]
      simp only [ih]

theorem take_eq_calls {s : Stream (Recorded σ)} (h : Source.Endless s.source.source) (n : Nat) :
    s.take n = s.calls n := by
  induction n generalizing s with
  | zero => rfl
  | succ n ih =>
    obtain ⟨k, hsource, hdraws⟩ := s.draws_next
    have hone := hdraws.count_eq
    rw [List.count_eq_zero_of_not_mem (h k)] at hone
    obtain ⟨item, hitem⟩ := Option.ne_none_iff_exists'.1 (show s.next.1 ≠ none by
      intro hnone
      rw [hnone] at hone
      cases hone)
    have hrest : Source.Endless s.next.2.source.source := by
      rw [hsource]
      exact h.after k
    rw [take, show s.next = (some item, s.next.2) from Prod.ext hitem rfl]
    simp only [ih hrest, calls, hitem]
    rfl

/-! ## After a number of pulls -/

/-- A stream on a recorded source, from which nothing has been pulled. -/
def ofRecorded (source : σ) : Stream (Recorded σ) := ofSource (.ofSource source)

/-- How often the source has been pulled when so many calls are over. -/
def pulls (source : σ) (n : Nat) : Nat := ((ofRecorded source).calls n).2.source.answers.length

/-- The record of a stream is what its source has answered first, and the machine has made the items of it. -/
theorem calls_ofRecorded (source : σ) (n : Nat) :
    let s := (ofRecorded source).calls n
    s.2.source = (Recorded.ofSource source).pulled (pulls source n) ∧
      Normalizer.start.run s.2.source.chars = (s.1, s.2.machine) ∧
      s.1.length + s.2.source.answers.count none = n := by
  intro s
  obtain ⟨k, hsource, -, -, hrun, hcount⟩ := (ofRecorded source).run_calls n
  have hpulled : s.2.source = (Recorded.ofSource source).pulled k := hsource
  have hpulls : pulls source n = k := by
    rw [pulls, hsource, Recorded.length_answers_pulled]
    exact Nat.zero_add k
  rw [hpulls, Recorded.chars, hpulled]
  exact ⟨rfl, hrun, hcount⟩

theorem pulls_succ (source : σ) (n : Nat) :
    let t := ((ofRecorded source).calls n).2
    ∃ k, t.next.2.source = t.source.pulled k ∧ pulls source (n + 1) = pulls source n + k ∧
      Draws t.machine (Source.answers k t.source.source) t.next.1 t.next.2.machine := by
  intro t
  obtain ⟨k, hsource, hdraws⟩ := t.draws_next
  refine ⟨k, hsource, ?_, hdraws⟩
  rw [pulls, calls_succ]
  show t.next.2.source.answers.length = t.source.answers.length + k
  rw [hsource, Recorded.length_answers_pulled]

/-- **At every pull** some calls are over, and the next one is not. -/
theorem exists_calls_of_pulls (source : σ) (k : Nat) : ∃ n, pulls source n ≤ k ∧ k < pulls source (n + 1) := by
  have hlt (n : Nat) : pulls source n < pulls source (n + 1) := by
    obtain ⟨i, -, hpulls, hdraws⟩ := pulls_succ source n
    have hlength := Source.length_answers i ((ofRecorded source).calls n).2.source.source
    rcases hdraws.cases with ⟨-, a, ha⟩ | ⟨a, ha, -⟩ <;> simp [ha] at hlength <;> omega
  induction k with
  | zero => exact ⟨0, le_rfl, (Nat.zero_le _).trans_lt (hlt 0)⟩
  | succ k ih =>
    obtain ⟨n, hle, hgt⟩ := ih
    by_cases hnext : k + 1 < pulls source (n + 1)
    · exact ⟨n, hle.trans (Nat.le_succ k), hnext⟩
    · have heq : pulls source (n + 1) = k + 1 := by omega
      exact ⟨n + 1, heq.le, heq ▸ hlt (n + 1)⟩

/-- **After any number of pulls** as many calls have ended as the answers have items and ends, and what they have
given are the items of these answers: none of them waits for the answer that comes next. -/
theorem calls_after_pulls (source : σ) (k : Nat) :
    let answers := Source.answers k source
    let ended := (pairs answers.reduceOption).length + answers.count none
    ((ofRecorded source).calls ended).1 = pairs answers.reduceOption ∧ pulls source ended ≤ k ∧
      k < pulls source (ended + 1) := by
  intro answers ended
  obtain ⟨n, hle, hgt⟩ := exists_calls_of_pulls source k
  obtain ⟨hsource, hrun, hcount⟩ := calls_ofRecorded source n
  obtain ⟨i, -, hpulls, hdraws⟩ := pulls_succ source n
  set s := (ofRecorded source).calls n
  obtain ⟨more, hmore⟩ := Nat.exists_eq_add_of_le hle
  have hanswers : answers = s.2.source.answers ++ Source.answers more s.2.source.source := by
    rw [hsource]
    show Source.answers k source = ([] ++ _) ++ _
    rw [hmore, List.nil_append, Source.answers_add]
    rfl
  -- either the next call has not begun, or it has drawn a break that it swallows
  have hidle : (s.2.machine.run (Source.answers more s.2.source.source).reduceOption).1 = [] ∧
      (Source.answers more s.2.source.source).count none = 0 := by
    have hlength := Source.length_answers i s.2.source.source
    rcases hdraws.cases with ⟨hstate, a, ha⟩ | ⟨a, ha, -⟩
    · obtain rfl : i = 2 := by rw [← hlength, ha]; rfl
      obtain rfl | rfl : more = 0 ∨ more = 1 := by omega
      · exact ⟨rfl, rfl⟩
      · have hbreak := (List.cons.inj ha).1
        have hnone := Normalizer.feed_eq_none_iff.2 ⟨hstate, rfl⟩
        simp [Source.answers, hbreak, List.reduceOption_cons_of_some, Normalizer.run, hnone]
    · obtain rfl : i = 1 := by rw [← hlength, ha]; rfl
      obtain rfl : more = 0 := by omega
      exact ⟨rfl, rfl⟩
  have hitems : pairs answers.reduceOption = s.1 := by
    rw [pairs, hanswers, List.reduceOption_append, Normalizer.run_append]
    show (Normalizer.start.run s.2.source.chars).1 ++ ((Normalizer.start.run s.2.source.chars).2.run _).1 = _
    rw [hrun, hidle.1, List.append_nil]
  have hended : ended = n := by
    rw [← hcount, ← hitems]
    show _ + answers.count none = _
    rw [hanswers, List.count_append, hidle.2, Nat.add_zero]
  rw [hended]
  exact ⟨hitems.symm, hle, hgt⟩

theorem Reached.draws {source : σ} {t : Stream (Recorded σ)} (h : (ofRecorded source).Reached t) :
    let first := (Source.pull t.source).1
    let swallowed := t.source.chars.getLast? = some '\r' ∧ first = some '\n'
    (swallowed → ∃ second, t.next.2.source.answers = t.source.answers ++ [first, second]) ∧
      (¬swallowed → t.next.2.source.answers = t.source.answers ++ [first]) := by
  intro first swallowed
  obtain ⟨n, rfl⟩ := h.exists_calls
  obtain ⟨-, hrun, -⟩ := calls_ofRecorded source n
  set t := ((ofRecorded source).calls n).2
  have hstate : t.machine.state = .afterReturn ↔ t.source.chars.getLast? = some '\r' := by
    have h := Normalizer.state_run_eq_iff .origin t.source.chars
    rwa [show Normalizer.run ⟨.normal, .origin⟩ t.source.chars = _ from hrun] at h
  obtain ⟨k, hsource, hdraws⟩ := t.draws_next
  have hlength := Source.length_answers k t.source.source
  have hrecord : t.next.2.source.answers = t.source.answers ++ Source.answers k t.source.source := by
    rw [hsource]
    rfl
  rcases hdraws.cases with ⟨hreturn, a, ha⟩ | ⟨a, ha, hkept⟩
  · obtain rfl : k = 2 := by rw [← hlength, ha]; rfl
    have hfirst : first = some '\n' := (List.cons.inj ha).1
    rw [hrecord, ha, hfirst]
    exact ⟨fun _ => ⟨a, rfl⟩, fun h => absurd ⟨hstate.1 hreturn, hfirst⟩ h⟩
  · obtain rfl : k = 1 := by rw [← hlength, ha]; rfl
    have hfirst : first = a := (List.cons.inj ha).1
    rw [hrecord, ha, hfirst]
    refine ⟨fun h => absurd ⟨hstate.2 h.1, hfirst ▸ h.2⟩ hkept, fun _ => rfl⟩

end Stream

/-- **Reading goes no further than needed**, on every source, also on one that goes on for ever. A call pulls once,
or twice just when a `\r` was consumed last and a `\n` is pulled first, and what has been given depends on what has
been pulled alone. -/
theorem pulls_no_further {σ : Type} [Source σ] (source : σ) :
    let start := Stream.ofSource (Recorded.ofSource source)
    (∀ t, (Stream.ofSource source).Reached t ↔ ∃ r, start.Reached r ∧ r.forget = t) ∧
    (∀ r, start.Reached r →
      let first := (Source.pull r.source).1
      let swallowed := r.source.chars.getLast? = some '\r' ∧ first = some '\n'
      let pulled := r.source.answers.length
      r.forget.next = (r.next.1, r.next.2.forget) ∧
      (swallowed → ∃ second, r.next.2.source.answers = r.source.answers ++ [first, second]) ∧
      (¬swallowed → r.next.2.source.answers = r.source.answers ++ [first]) ∧
      (Source.Endless r.source.source → ∀ n,
        r.forget.take n = ((r.take n).1, (r.take n).2.forget) ∧ (r.take n).1.length = n ∧
        pulled + n ≤ (r.take n).2.source.answers.length ∧
        (r.take n).2.source.answers.length ≤ pulled + 2 * n)) ∧
    ∀ k,
      let answers := Source.answers k source
      let ended := (pairs answers.reduceOption).length + answers.count none
      ((Stream.ofSource source).calls ended).1 = pairs answers.reduceOption ∧
      (start.calls ended).2.source.answers <+: answers ∧
      k < (start.calls (ended + 1)).2.source.answers.length := by
  intro start
  refine ⟨fun t => ⟨fun h => ?_, ?_⟩, fun r h => ⟨r.next_forget, h.draws.1, h.draws.2, fun hendless n => ?_⟩, ?_⟩
  · obtain ⟨n, rfl⟩ := h.exists_calls
    exact ⟨_, start.reached_calls n, congrArg Prod.snd (start.calls_forget n).symm⟩
  · rintro ⟨r, hr, rfl⟩
    obtain ⟨n, rfl⟩ := hr.exists_calls
    have hforget : (start.calls n).2.forget = ((Stream.ofSource source).calls n).2 :=
      congrArg Prod.snd (start.calls_forget n).symm
    rw [hforget]
    exact (Stream.ofSource source).reached_calls n
  · obtain ⟨k, hsource, hle, hge, -, hcount⟩ := r.run_calls n
    rw [List.count_eq_zero_of_not_mem (hendless k)] at hcount
    have htake := Stream.take_eq_calls hendless n
    refine ⟨r.take_forget n, ?_, ?_⟩
    · rw [htake]
      exact hcount
    · rw [htake, hsource, Recorded.length_answers_pulled]
      omega
  · intro k answers ended
    obtain ⟨hitems, hle, hgt⟩ := Stream.calls_after_pulls source k
    obtain ⟨hsource, -, -⟩ := Stream.calls_ofRecorded source ended
    refine ⟨?_, ?_, hgt⟩
    · exact (congrArg Prod.fst (start.calls_forget ended)).trans hitems
    · show ((Stream.ofRecorded source).calls ended).2.source.answers <+: answers
      rw [hsource]
      show [] ++ _ <+: _
      obtain ⟨more, hmore⟩ := Nat.exists_eq_add_of_le hle
      have hanswers : answers = Source.answers (_ + more) source := congrArg (Source.answers · source) hmore
      rw [List.nil_append, hanswers, Source.answers_add]
      exact List.prefix_append _ _

/-- A cycle of a character and a break of two: the `\r` is answered at once, and the call after it draws the `\n` and
the character of the next round. -/
theorem pulls_no_further_of_cycle :
    let source := Cycle.ofText ['a', '\r', '\n']
    let start := Stream.ofSource (Recorded.ofSource source)
    let r := (start.take 2).2
    start.Reached r ∧ r.source.answers = [some 'a', some '\r'] ∧
      (r.source.chars.getLast? = some '\r' ∧ (Source.pull r.source).1 = some '\n') ∧
      (∃ second, r.next.2.source.answers = [some 'a', some '\r', some '\n', second]) ∧
      (¬(start.source.chars.getLast? = some '\r' ∧ (Source.pull start.source).1 = some '\n')) ∧
      start.next.2.source.answers = [some 'a'] ∧
      Source.Endless r.source.source ∧ (r.take 3).1.length = 3 ∧ (r.take 3).2.source.answers.length ≤ 2 + 2 * 3 ∧
      ((Stream.ofSource source).calls 2).1 = [(⟨0, 0⟩, 'a'), (⟨0, 1⟩, '\n')] := by
  intro source start r
  obtain ⟨-, hcall, hpulls⟩ := pulls_no_further source
  have hr : start.Reached r := .take .here 2
  have hanswers : r.source.answers = [some 'a', some '\r'] := by decide +kernel
  have hswallowed : r.source.chars.getLast? = some '\r' ∧ (Source.pull r.source).1 = some '\n' := by decide +kernel
  have hkept : ¬(start.source.chars.getLast? = some '\r' ∧ (Source.pull start.source).1 = some '\n') := by decide
  have hendless : Source.Endless r.source.source := Cycle.endless (by decide +kernel)
  obtain ⟨-, htwo, -, htake⟩ := hcall r hr
  obtain ⟨-, -, hone, -⟩ := hcall start .here
  obtain ⟨second, hsecond⟩ := htwo hswallowed
  obtain ⟨-, hlength, -, hle⟩ := htake hendless 3
  rw [hanswers] at hle
  refine ⟨hr, hanswers, hswallowed, ⟨second, ?_⟩, hkept, hone hkept, hendless, hlength, hle, (hpulls 2).1⟩
  rw [hsecond, hanswers, hswallowed.2]
  rfl

end CanonicalText
