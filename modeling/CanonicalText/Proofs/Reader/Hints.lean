import Mathlib
import CanonicalText.Reader.Script
import CanonicalText.Proofs.Reader.Laziness

/-!
# How many items come

What a source says of the number of its characters before the next end, a stream says of its items, with half of the
lower bound. A call draws two answers at most, so characters that come for sure give at least half as many items, also
if the first one is swallowed; and it draws one at least, so there are no more items than characters.

* `untilEnd` : how many items come before the next end, if there is one;
* `Stream.half_le_untilEnd`, `Stream.untilEnd_le` : how many items a stream gives of so many characters;
* `Stream.untilEnd_of_ahead` : they are the items that are ahead of the stream;
* `Stream.brackets_hint` : the hint of a stream is right if that of its source is;
* `breaksInTurn`, `Stream.exists_reached_of_chunk` : characters of which every second one is swallowed;
* `hint_brackets_items` : no better hint can be given.
-/

namespace CanonicalText

/-! ## Counting up to an end -/

section UntilEnd

variable {τ β : Type} {step : τ → Option β × τ} {s : τ}

/-- How many items a step gives before its next end; infinitely many if it has none. -/
noncomputable def untilEnd (step : τ → Option β × τ) (s : τ) : ℕ∞ :=
  ⨅ n ∈ {n : ℕ | (step ((fun s => (step s).2)^[n] s)).1 = none}, (n : ℕ∞)

theorem le_untilEnd_iff {n : ℕ} :
    (n : ℕ∞) ≤ untilEnd step s ↔ ∀ k < n, (step ((fun s => (step s).2)^[k] s)).1 ≠ none := by
  rw [untilEnd, le_iInf₂_iff]
  constructor
  · intro h k hk hnone
    exact (Nat.cast_le.1 (h k hnone)).not_gt hk
  · intro h k hnone
    exact Nat.cast_le.2 (Nat.not_lt.1 fun hk => h k hk hnone)

theorem untilEnd_of_none (h : (step s).1 = none) : untilEnd step s = 0 := by
  rw [← Order.lt_one_iff, ← not_le, ← Nat.cast_one, le_untilEnd_iff]
  exact fun hone => hone 0 Nat.one_pos h

theorem untilEnd_of_some {x : β} (h : (step s).1 = some x) : untilEnd step s = untilEnd step (step s).2 + 1 := by
  have hiff (n : ℕ) : ((n + 1 : ℕ) : ℕ∞) ≤ untilEnd step s ↔ (n : ℕ∞) ≤ untilEnd step (step s).2 := by
    rw [le_untilEnd_iff, le_untilEnd_iff]
    constructor
    · exact fun hlt k hk => hlt (k + 1) (Nat.succ_lt_succ hk)
    · intro hlt k hk
      cases k with
      | zero => exact h ▸ Option.some_ne_none x
      | succ k => exact hlt k (Nat.lt_of_succ_lt_succ hk)
  refine ENat.eq_of_forall_natCast_le_iff fun n => ?_
  cases n with
  | zero => simp
  | succ n =>
    rw [hiff, Nat.cast_succ]
    exact (ENat.add_le_add_iff_right ENat.one_ne_top).symm

end UntilEnd

/-- Bounds that a number keeps to. All numbers keep to an upper bound that is missing. -/
structure SizeHint.Brackets (h : SizeHint) (n : ℕ∞) : Prop where
  lower : (h.lower.toNat : ℕ∞) ≤ n
  upper : ∀ u, h.upper = some u → n ≤ (u.toNat : ℕ∞)

namespace Source

variable {σ : Type} [Source σ]

theorem le_untilEnd_iff_answers {n : ℕ} {s : σ} : (n : ℕ∞) ≤ untilEnd pull s ↔ none ∉ answers n s := by
  induction n generalizing s with
  | zero => simp [answers]
  | succ n ih =>
    rw [answers, List.mem_cons, not_or, ← ih, Nat.cast_succ]
    cases hpull : (pull s).1 with
    | none => simp [untilEnd_of_none hpull]
    | some c =>
      rw [untilEnd_of_some hpull, ENat.add_le_add_iff_right ENat.one_ne_top]
      simp

theorem Gives.untilEnd_eq {s after : σ} {text : Text} (h : Gives s text after) :
    untilEnd pull s = text.length := by
  induction h with
  | ended h => exact untilEnd_of_none (congrArg Prod.fst h)
  | given h _ ih => rw [untilEnd_of_some (congrArg Prod.fst h), h, ih, List.length_cons, Nat.cast_succ]

end Source

/-! ## Items of a stream -/

namespace Stream

variable {σ : Type} [Source σ] {β : Type} {shown : Position × Char → β} {s : Stream σ}

def showing (shown : Position × Char → β) (s : Stream σ) : Option β × Stream σ :=
  (s.next.1.map shown, s.next.2)

theorem length_calls_le (s : Stream σ) (n : Nat) : (s.calls n).1.length ≤ n := by
  induction n generalizing s with
  | zero => exact le_rfl
  | succ n ih =>
    have hrest := ih s.next.2
    have hfirst : s.next.1.toList.length ≤ 1 := by cases s.next.1 <;> simp
    rw [calls, List.length_append]
    omega

theorem le_untilEnd_iff_calls {n : ℕ} : (n : ℕ∞) ≤ untilEnd (showing shown) s ↔ (s.calls n).1.length = n := by
  induction n generalizing s with
  | zero => simp [calls]
  | succ n ih =>
    rw [calls, List.length_append]
    cases hnext : s.next.1 with
    | none =>
      have hle := s.next.2.length_calls_le n
      have hnone : (showing shown s).1 = none := by rw [showing, hnext]; rfl
      rw [untilEnd_of_none hnone, Option.toList_none, List.length_nil]
      exact iff_of_false (by simp) (by omega)
    | some item =>
      have hsome : (showing shown s).1 = some (shown item) := by rw [showing, hnext]; rfl
      rw [untilEnd_of_some hsome, Nat.cast_succ, ENat.add_le_add_iff_right ENat.one_ne_top]
      show _ ↔ 1 + (s.next.2.calls n).1.length = n + 1
      rw [Nat.add_comm 1, Nat.add_right_cancel_iff]
      exact ih

omit [Source σ] in
/-- Every stream can be recorded from here on. -/
theorem exists_forget_eq (s : Stream σ) : ∃ r : Stream (Recorded σ), r.forget = s :=
  ⟨⟨.ofSource s.source, s.machine⟩, rfl⟩

/-- **At least half as many items** as characters come: so many calls draw no more than these characters. -/
theorem half_le_untilEnd {n : ℕ} (h : (n : ℕ∞) ≤ untilEnd Source.pull s.source) :
    ((n / 2 : ℕ) : ℕ∞) ≤ untilEnd (showing shown) s := by
  obtain ⟨r, rfl⟩ := s.exists_forget_eq
  rw [Source.le_untilEnd_iff_answers] at h
  obtain ⟨k, -, -, hk, -, hcount⟩ := r.run_calls (n / 2)
  have hgiven : none ∉ Source.answers k r.source.source := by
    intro hmem
    obtain ⟨more, hmore⟩ := Nat.exists_eq_add_of_le (hk.trans (Nat.mul_div_le n 2))
    rw [hmore, Source.answers_add] at h
    exact h (List.mem_append_left _ hmem)
  rw [List.count_eq_zero_of_not_mem hgiven] at hcount
  rw [le_untilEnd_iff_calls, calls_forget]
  exact hcount

/-- **No more items** than characters come: every call draws one. -/
theorem untilEnd_le (s : Stream σ) : untilEnd (showing shown) s ≤ untilEnd Source.pull s.source := by
  obtain ⟨r, rfl⟩ := s.exists_forget_eq
  refine ENat.forall_natCast_le_iff_le.1 fun n h => ?_
  rw [le_untilEnd_iff_calls, calls_forget] at h
  obtain ⟨k, -, hk, -, -, hcount⟩ := r.run_calls n
  have hnone : (Source.answers k r.source.source).count none = 0 := by
    rw [show (r.calls n).1.length = n from h] at hcount
    omega
  obtain ⟨more, hmore⟩ := Nat.exists_eq_add_of_le hk
  rw [hmore, Source.answers_add, List.count_append] at hnone
  rw [Source.le_untilEnd_iff_answers]
  exact List.count_eq_zero.1 (Nat.eq_zero_of_add_eq_zero_right hnone)

theorem brackets_hint (h : (Source.hint s.source).Brackets (untilEnd Source.pull s.source)) :
    s.hint.Brackets (untilEnd (showing shown) s) where
  lower := by
    have hhalf : (s.hint.lower.toNat : ℕ∞) = ((Source.hint s.source).lower.toNat / 2 : ℕ) := by
      rw [hint, UInt64.toNat_div]
      rfl
    rw [hhalf]
    exact half_le_untilEnd h.lower
  upper u hu := s.untilEnd_le.trans (h.upper u hu)

theorem untilEnd_of_ahead {after : Stream σ} {items : List (Position × Char)} (h : s.Ahead items after) :
    untilEnd (showing shown) s = items.length := by
  induction items generalizing s with
  | nil =>
    have hnone : (showing shown s).1 = none := by rw [showing, next_of_ahead_nil h]; rfl
    exact untilEnd_of_none hnone
  | cons item items ih =>
    obtain ⟨s', hnext, hahead⟩ := next_of_ahead_cons h
    have hcall : showing shown s = (some (shown item), s') := by rw [showing, hnext]; rfl
    rw [untilEnd_of_some (congrArg Prod.fst hcall), hcall, ih hahead, List.length_cons, Nat.cast_succ]

end Stream

/-! ## Bounds that are met -/

def breaksInTurn : Nat → Text
  | 0 => []
  | 1 => ['\n']
  | n + 2 => '\n' :: '\r' :: breaksInTurn n

theorem length_breaksInTurn (n : Nat) : (breaksInTurn n).length = n := by
  fun_induction breaksInTurn n with
  | case1 => rfl
  | case2 => rfl
  | case3 n ih => rw [List.length_cons, List.length_cons, ih]

namespace Normalizer

/-- After a `\r`, every `\n` is swallowed, and each `\r` swallows the one after it. -/
theorem length_run_breaksInTurn {m : Normalizer} (hm : m.state = .afterReturn) (n : Nat) :
    (m.run (breaksInTurn n)).1.length = n / 2 := by
  have hswallowed {m : Normalizer} (hm : m.state = .afterReturn) : (m.feed '\n').1 = none :=
    feed_eq_none_iff.2 ⟨hm, rfl⟩
  fun_induction breaksInTurn n generalizing m with
  | case1 => rfl
  | case2 => rw [run, hswallowed hm]; rfl
  | case3 n ih =>
    rw [run, hswallowed hm, run]
    show (((m.feed '\n').2.feed '\r').2.run (breaksInTurn n)).1.length + 1 = (n + 2) / 2
    rw [ih rfl]
    omega

theorem length_run_replicate (m : Normalizer) (n : Nat) : (m.run (List.replicate n 'a')).1.length = n := by
  induction n generalizing m with
  | zero => rfl
  | succ n ih => exact congrArg Nat.succ (ih (m.feed 'a').2)

end Normalizer

namespace Stream

theorem exists_reached_of_chunk {first current : Text} {n count : UInt64} (hlength : current.length = n.toNat)
    (hcount : ((Normalizer.start.run first).2.run current).1.length = count.toNat) :
    ∃ (chunks : List Text) (s : Stream Chunks), (ofSource (Chunks.ofList chunks)).Reached s ∧
      Source.hint s.source = ⟨n, some n⟩ ∧ untilEnd Source.pull s.source = n.toNat ∧
      ∀ {β : Type} (shown : Position × Char → β), untilEnd (showing shown) s = count.toNat := by
  have hfirst : (ofSource (Chunks.ofList [first, current])).Ahead (Normalizer.start.run first).1
      ⟨Chunks.ofList [current], (Normalizer.start.run first).2⟩ := ahead_of_gives (Source.gives_chunks first [current])
  have hgives := Source.gives_chunks current []
  refine ⟨_, _, .rest .here (rest?_of_ahead hfirst), ?_, ?_, fun shown => ?_⟩
  · show SizeHint.mk (.ofNat current.length) (some (.ofNat current.length)) = _
    rw [hlength, UInt64.ofNat_toNat]
  · exact hgives.untilEnd_eq.trans (congrArg _ hlength)
  · exact (untilEnd_of_ahead (ahead_of_gives hgives)).trans (congrArg _ hcount)

end Stream

/-- **The hint of a stream is right** if that of its source is, whatever has been read before and whether positions
are shown or not: bounds on the characters before the next end are bounds on the items, with half of the lower one.
**No better one can be given**: of `n` characters that a source is sure of, `n / 2` items may come, and also `n`. -/
theorem hint_brackets_items :
    (∀ {σ β : Type} [Source σ] (shown : Position × Char → β) (s : Stream σ),
      s.hint = ⟨(Source.hint s.source).lower / 2, (Source.hint s.source).upper⟩ ∧
        ((Source.hint s.source).Brackets (untilEnd Source.pull s.source) →
          s.hint.Brackets (untilEnd (Stream.showing shown) s))) ∧
    (∀ r : Reader, r.perform .hint = (.hint r.stream.hint, r) ∧
      let call := r.stream.showing r.shown
      r.perform .next = (.item call.1, { r with stream := call.2 })) ∧
    ∀ n count : UInt64, count = n / 2 ∨ count = n →
      ∃ (chunks : List Text) (s : Stream Chunks), (Stream.ofSource (Chunks.ofList chunks)).Reached s ∧
        Source.hint s.source = ⟨n, some n⟩ ∧ untilEnd Source.pull s.source = n.toNat ∧
        ∀ {β : Type} (shown : Position × Char → β), untilEnd (Stream.showing shown) s = count.toNat := by
  refine ⟨fun shown s => ⟨rfl, Stream.brackets_hint⟩, fun r => ⟨rfl, rfl⟩, fun n count hcount => ?_⟩
  rcases hcount with rfl | rfl
  · -- the `\r` of the first chunk swallows the `\n` that the second one begins with
    have hhalf : ((Normalizer.start.run ['\r']).2.run (breaksInTurn n.toNat)).1.length = (n / 2).toNat := by
      rw [Normalizer.length_run_breaksInTurn rfl, UInt64.toNat_div]
      rfl
    exact Stream.exists_reached_of_chunk (length_breaksInTurn _) hhalf
  · have hall : ((Normalizer.start.run []).2.run (List.replicate count.toNat 'a')).1.length = count.toNat :=
      Normalizer.length_run_replicate _ _
    exact Stream.exists_reached_of_chunk List.length_replicate hall

/-- Three characters after a `\r`, the first of them swallowed: at least one item comes, and at most three do. -/
theorem hint_brackets_items_of_swallowed :
    let source := Chunks.ofList [breaksInTurn 3]
    let s : Stream Chunks := ⟨source, ⟨.afterReturn, ⟨1, 0⟩⟩⟩
    (Source.hint source).Brackets (untilEnd Source.pull source) ∧ s.hint = ⟨1, some 3⟩ ∧
      s.hint.Brackets (untilEnd (Stream.showing Prod.snd) s) ∧ ((3 : UInt64) / 2 = 3 / 2 ∨ (3 : UInt64) / 2 = 3) ∧
      ∃ (chunks : List Text) (t : Stream Chunks), (Stream.ofSource (Chunks.ofList chunks)).Reached t ∧
        Source.hint t.source = ⟨3, some 3⟩ ∧ untilEnd (Stream.showing Prod.snd) t = 1 := by
  intro source s
  obtain ⟨hbounds, -, htight⟩ := hint_brackets_items
  have hgiven : (Source.hint source).Brackets (untilEnd Source.pull source) := by
    have hhint : Source.hint source = ⟨3, some 3⟩ := by decide
    have hthree : untilEnd Source.pull source = 3 := (Source.gives_chunks (breaksInTurn 3) []).untilEnd_eq
    rw [hhint, hthree]
    exact ⟨le_rfl, fun u hu => Option.some.inj hu ▸ le_rfl⟩
  have hhalf : (3 : UInt64) / 2 = 3 / 2 ∨ (3 : UInt64) / 2 = 3 := .inl rfl
  obtain ⟨chunks, t, hreached, hhint, -, hcount⟩ := htight 3 (3 / 2) hhalf
  exact ⟨hgiven, by decide, (hbounds Prod.snd s).2 hgiven, hhalf, chunks, t, hreached, hhint, hcount Prod.snd⟩

end CanonicalText
