import Mathlib
import CanonicalText.Command.Config
import CanonicalText.Proofs.Json.Written
import CanonicalText.Proofs.Reader.LineBreaks

/-!
# Line breaks in JSON texts

Outside strings a line break is a blank, and inside them it is malformed, so of what kind it is does not matter.
Two texts that are alike but for the kinds of their line breaks are read in step: both are refused, or both give
the same value and leave texts that are alike again.

* `Alike` : texts with the same canonical text;
* `Json.InStep` : two readings that end the same way;
* `Json.Steady` : decoders that read texts that are alike in step;
* `Json.record_steady` : records that refuse unknown keys;
* `Config.parse_inStep` : configurations.
-/

namespace CanonicalText

/-! ## Texts that are alike -/

/-- Whether two texts differ at most in the kinds of their line breaks. -/
def Alike (t u : Text) : Prop := canonicalize t = canonicalize u

def isBreak (c : Char) : Bool := c == '\r' || c == '\n'

variable {t u t' u' : Text}

theorem alike_canonicalize (t : Text) : Alike (canonicalize t) t :=
  (canonicalize_eq_self_iff _).2 (return_notMem_canonicalize t)

theorem canonicalize_cons (c : Char) (t : Text) :
    (isBreak c = false ∧ canonicalize (c :: t) = c :: canonicalize t) ∨
      (isBreak c = true ∧ ∃ rest, canonicalize (c :: t) = '\n' :: rest) := by
  by_cases hr : c = '\r'
  · subst hr
    refine .inr ⟨rfl, ?_⟩
    by_cases hn : t.head? = some '\n'
    · obtain ⟨rest, rfl⟩ := List.head?_eq_some_iff.1 hn
      exact ⟨_, canonicalize_pair rest⟩
    · exact ⟨_, canonicalize_alone hn⟩
  · by_cases hn : c = '\n'
    · subst hn
      exact .inr ⟨rfl, _, canonicalize_other hr t⟩
    · exact .inl ⟨by simp [isBreak, hr, hn], canonicalize_other hr t⟩

theorem isBreak_iff {c : Char} : isBreak c = true ↔ c = '\r' ∨ c = '\n' := by
  simp [isBreak]

/-- Texts that are alike are both empty, or begin with the same character and go on alike, or both begin with a
line break. -/
theorem Alike.cases (h : Alike t u) :
    (t = [] ∧ u = []) ∨
    (∃ c t' u', isBreak c = false ∧ t = c :: t' ∧ u = c :: u' ∧ Alike t' u') ∨
    ∃ c d t' u', isBreak c = true ∧ isBreak d = true ∧ t = c :: t' ∧ u = d :: u' := by
  unfold Alike at h
  cases t with
  | nil =>
    cases u with
    | nil => exact .inl ⟨rfl, rfl⟩
    | cons d u =>
      rcases canonicalize_cons d u with ⟨-, hu⟩ | ⟨-, rest, hu⟩
      all_goals
        rw [hu] at h
        cases h
  | cons c t =>
    cases u with
    | nil =>
      rcases canonicalize_cons c t with ⟨-, ht⟩ | ⟨-, rest, ht⟩
      all_goals
        rw [ht] at h
        cases h
    | cons d u =>
      rcases canonicalize_cons c t with ⟨hc, ht⟩ | ⟨hc, rest, ht⟩
      · rcases canonicalize_cons d u with ⟨-, hu⟩ | ⟨-, rest, hu⟩
        · rw [ht, hu, List.cons.injEq] at h
          obtain ⟨rfl, h⟩ := h
          exact .inr (.inl ⟨c, t, u, hc, rfl, rfl, h⟩)
        · rw [ht, hu, List.cons.injEq] at h
          obtain ⟨rfl, -⟩ := h
          exact absurd hc (by decide)
      · rcases canonicalize_cons d u with ⟨hd, hu⟩ | ⟨hd, rest, hu⟩
        · rw [ht, hu, List.cons.injEq] at h
          obtain ⟨rfl, -⟩ := h
          exact absurd hd (by decide)
        · exact .inr (.inr ⟨c, d, t, u, hc, hd, rfl, rfl⟩)

namespace Json

/-! ## Readings in step -/

/-- Two readings that are both refused, whatever for, or give related results. -/
inductive InStep {α : Type} (R : α → α → Prop) : Except Error α → Except Error α → Prop where
  | error (e e' : Error) : InStep R (.error e) (.error e')
  | ok {x y : α} (h : R x y) : InStep R (.ok x) (.ok y)

namespace InStep

variable {α β : Type} {R : α → α → Prop} {S : β → β → Prop} {r s : Except Error α}

theorem cases (h : InStep R r s) :
    (∃ e e', r = .error e ∧ s = .error e') ∨ ∃ x y, r = .ok x ∧ s = .ok y ∧ R x y := by
  cases h with
  | error e e' => exact .inl ⟨e, e', rfl, rfl⟩
  | ok h => exact .inr ⟨_, _, rfl, rfl, h⟩

theorem bind {f g : α → Except Error β} (h : InStep R r s)
    (hfg : ∀ x y, R x y → InStep S (f x) (g y)) : InStep S (r >>= f) (s >>= g) := by
  cases h with
  | error e e' => exact .error e e'
  | ok h => exact hfg _ _ h

theorem mono {R' : α → α → Prop} (h : InStep R r s) (hR : ∀ x y, R x y → R' x y) : InStep R' r s := by
  cases h with
  | error e e' => exact .error e e'
  | ok h => exact .ok (hR _ _ h)

theorem map {f g : α → β} (h : InStep R r s) (hfg : ∀ x y, R x y → S (f x) (g y)) :
    InStep S (r.map f) (s.map g) := by
  cases h with
  | error e e' => exact .error e e'
  | ok h => exact .ok (hfg _ _ h)

end InStep

/-- What two readings leave of two texts: texts that are alike, and not longer. -/
structure Leaves (t u t' u' : Text) : Prop where
  alike : Alike t' u'
  left : t'.length ≤ t.length
  right : u'.length ≤ u.length

theorem Leaves.refl (h : Alike t u) : Leaves t u t u := ⟨h, le_rfl, le_rfl⟩

theorem Leaves.trans {t'' u'' : Text} (h : Leaves t u t' u') (h' : Leaves t' u' t'' u'') :
    Leaves t u t'' u'' :=
  ⟨h'.alike, h'.left.trans h.left, h'.right.trans h.right⟩

theorem Leaves.cons (h : Alike t u) (c d : Char) : Leaves (c :: t) (d :: u) t u :=
  ⟨h, Nat.le_succ _, Nat.le_succ _⟩

/-- The results of two readings: the same value, and what they leave. -/
def Gives {α : Type} (t u : Text) (r s : α × Text) : Prop := r.1 = s.1 ∧ Leaves t u r.2 s.2

/-- Two readings that give the same value go on with it, from what they leave. -/
theorem InStep.then {α β : Type} {S : β → β → Prop} {r s : Except Error (α × Text)}
    {f g : α × Text → Except Error β} (h : InStep (Gives t u) r s)
    (hfg : ∀ x t' u', Leaves t u t' u' → InStep S (f (x, t')) (g (x, u'))) : InStep S (r >>= f) (s >>= g) := by
  refine h.bind fun ⟨x, t'⟩ ⟨y, u'⟩ hxy => ?_
  obtain ⟨rfl, hleaves⟩ := hxy
  exact hfg x t' u' hleaves

/-- A decoder that reads texts that are alike in step. -/
def Steady {α : Type} (f : Decoder α) : Prop :=
  ∀ t u, Alike t u → InStep (Gives t u) (f t) (f u)

variable {α β : Type}

theorem Steady.after {f : Decoder α} (hf : Steady f) (h : Leaves t u t' u') :
    InStep (Gives t u) (f t') (f u') :=
  (hf t' u' h.alike).mono fun _ _ hxy => ⟨hxy.1, h.trans hxy.2⟩

/-- A scanner that takes the same part off texts that are alike. -/
def SteadyScan (f : Text → Except Error Text) : Prop :=
  ∀ t u, Alike t u → InStep (Leaves t u) (f t) (f u)

theorem SteadyScan.after {f : Text → Except Error Text} (hf : SteadyScan f) (h : Leaves t u t' u') :
    InStep (Leaves t u) (f t') (f u') :=
  (hf t' u' h.alike).mono fun _ _ => h.trans

/-! ## Blanks -/

theorem canonicalize_skipBlank (t : Text) : canonicalize (skipBlank t) = skipBlank (canonicalize t) := by
  induction t using breaksRec with
  | nil => rfl
  | pair t ih =>
    rw [canonicalize_pair]
    exact ih
  | alone t h ih =>
    rw [canonicalize_alone h]
    exact ih
  | other c t h ih =>
    rw [canonicalize_other h]
    cases hc : isBlank c with
    | true =>
      rw [skipBlank, skipBlank, List.dropWhile_cons_of_pos hc, List.dropWhile_cons_of_pos hc]
      exact ih
    | false =>
      rw [skipBlank_of_not_isBlank hc, skipBlank_of_not_isBlank hc, canonicalize_other h]

theorem skipBlank_leaves (h : Alike t u) : Leaves t u (skipBlank t) (skipBlank u) := by
  refine ⟨?_, (List.dropWhile_sublist _).length_le, (List.dropWhile_sublist _).length_le⟩
  unfold Alike
  rw [canonicalize_skipBlank, canonicalize_skipBlank, h]

theorem skipBlank_cases (h : Alike t u) :
    (skipBlank t = [] ∧ skipBlank u = []) ∨
    ∃ c t' u', skipBlank t = c :: t' ∧ skipBlank u = c :: u' ∧ Leaves t u t' u' ∧
      t'.length < t.length ∧ u'.length < u.length := by
  have hleaves := skipBlank_leaves h
  rcases hleaves.alike.cases with ⟨ht, hu⟩ | ⟨c, t', u', -, ht, hu, h'⟩ | ⟨c, d, t', u', hc, -, ht, -⟩
  · exact .inl ⟨ht, hu⟩
  · have hleft := hleaves.left
    have hright := hleaves.right
    rw [ht, List.length_cons] at hleft
    rw [hu, List.length_cons] at hright
    exact .inr ⟨c, t', u', ht, hu, ⟨h', by omega, by omega⟩, by omega, by omega⟩
  · -- what is left after the blanks begins with none, and every line break is one
    have hhead := List.head?_dropWhile_not isBlank t
    have hblank : isBlank c = true := by
      rcases isBreak_iff.1 hc with rfl | rfl <;> decide
    rw [show t.dropWhile isBlank = c :: t' from ht] at hhead
    exact absurd hhead (by simp [hblank])

/-! ## Literals -/

theorem literal_steadyScan {es : Text} (hes : ∀ e ∈ es, isBreak e = false) : SteadyScan (literal es) := by
  induction es with
  | nil => exact fun t u h => .ok (.refl h)
  | cons e es ih =>
    intro t u h
    have he := hes e List.mem_cons_self
    rcases h.cases with ⟨rfl, rfl⟩ | ⟨c, t', u', -, rfl, rfl, h'⟩ | ⟨c, d, t', u', hc, hd, rfl, rfl⟩
    · exact .error _ _
    · unfold literal
      by_cases hce : c = e
      · rw [if_pos hce, if_pos hce]
        exact (ih fun e he => hes e (List.mem_cons_of_mem _ he)).after (.cons h' c c)
      · rw [if_neg hce, if_neg hce]
        exact .error _ _
    · unfold literal
      rw [if_neg (by rintro rfl; simp [he] at hc), if_neg (by rintro rfl; simp [he] at hd)]
      exact .error _ _

/-! ## Strings -/

/-- A decoder that refuses the empty text and line breaks is steady if it is so after every other character. -/
theorem steady_of_cons {f : Decoder α} (hnil : ∃ e, f [] = .error e)
    (hbreak : ∀ c t, isBreak c = true → ∃ e, f (c :: t) = .error e)
    (hcons : ∀ c, isBreak c = false → Steady fun t => f (c :: t)) : Steady f := by
  intro t u h
  rcases h.cases with ⟨rfl, rfl⟩ | ⟨c, t', u', hc, rfl, rfl, h'⟩ | ⟨c, d, t', u', hc, hd, rfl, rfl⟩
  · obtain ⟨e, he⟩ := hnil
    rw [he]
    exact .error e e
  · exact (hcons c hc t' u' h').mono fun _ _ hxy => ⟨hxy.1, (Leaves.cons h' c c).trans hxy.2⟩
  · obtain ⟨e, he⟩ := hbreak c t' hc
    obtain ⟨e', he'⟩ := hbreak d u' hd
    rw [he, he']
    exact .error e e'

theorem steady_error (e : Error) : Steady fun _ : Text => (.error e : Except Error (α × Text)) :=
  fun _ _ _ => .error e e

theorem steady_ok (x : α) : Steady fun t => .ok (x, t) := fun _ _ h => .ok ⟨rfl, .refl h⟩

theorem hexValue?_of_isBreak {c : Char} (h : isBreak c = true) : hexValue? c = none := by
  rcases isBreak_iff.1 h with rfl | rfl <;> decide

theorem hexQuad_error (h : t.length < 4 ∨ ∃ c ∈ t.take 4, isBreak c = true) : ∃ e, hexQuad t = .error e := by
  unfold hexQuad
  split
  · next a b c d rest =>
    split
    · next ha hb hc hd =>
      rcases h with hlength | ⟨e, he, hbreak⟩
      · simp only [List.length_cons] at hlength
        omega
      · have hnone := hexValue?_of_isBreak hbreak
        simp only [List.take_succ_cons, List.take_zero, List.mem_cons, List.not_mem_nil, or_false] at he
        rcases he with rfl | rfl | rfl | rfl
        · rw [hnone] at ha
          cases ha
        · rw [hnone] at hb
          cases hb
        · rw [hnone] at hc
          cases hc
        · rw [hnone] at hd
          cases hd
    · exact ⟨_, rfl⟩
  · exact ⟨_, rfl⟩

theorem hexQuad_cons (a b c d : Char) :
    (∃ n, ∀ t, hexQuad (a :: b :: c :: d :: t) = .ok (n, t)) ∨
      ∃ e, ∀ t, hexQuad (a :: b :: c :: d :: t) = .error e := by
  cases ha : hexValue? a with
  | none => exact .inr ⟨.malformed, fun t => by simp only [hexQuad, ha]⟩
  | some =>
    cases hb : hexValue? b with
    | none => exact .inr ⟨.malformed, fun t => by simp only [hexQuad, ha, hb]⟩
    | some =>
      cases hc : hexValue? c with
      | none => exact .inr ⟨.malformed, fun t => by simp only [hexQuad, ha, hb, hc]⟩
      | some =>
        cases hd : hexValue? d with
        | none => exact .inr ⟨.malformed, fun t => by simp only [hexQuad, ha, hb, hc, hd]⟩
        | some => exact .inl ⟨_, fun t => by simp only [hexQuad, ha, hb, hc, hd]; rfl⟩

theorem hexQuad_steady : Steady hexQuad := by
  refine steady_of_cons (hexQuad_error (.inl (by decide)))
    (fun c t hc => hexQuad_error (.inr ⟨c, by simp, hc⟩)) fun a _ => ?_
  refine steady_of_cons (hexQuad_error (.inl (by simp)))
    (fun c t hc => hexQuad_error (.inr ⟨c, by simp, hc⟩)) fun b _ => ?_
  refine steady_of_cons (hexQuad_error (.inl (by simp)))
    (fun c t hc => hexQuad_error (.inr ⟨c, by simp, hc⟩)) fun c _ => ?_
  refine steady_of_cons (hexQuad_error (.inl (by simp)))
    (fun c t hc => hexQuad_error (.inr ⟨c, by simp, hc⟩)) fun d _ => ?_
  rcases hexQuad_cons a b c d with ⟨n, hread⟩ | ⟨e, hread⟩
  · simp only [hread]
    exact steady_ok n
  · simp only [hread]
    exact steady_error e

theorem ne_of_isBreak {c d : Char} (hc : isBreak c = true) (hd : isBreak d = false := by decide) :
    c ≠ d := by
  rintro rfl
  rw [hc] at hd
  cases hd

theorem trailingSurrogate_steady (lead : Nat) : Steady (trailingSurrogate lead) := by
  have hhalf : ∀ c t, c ≠ '\\' → trailingSurrogate lead (c :: t) = .error .malformed := by
    intro c t hc
    simp [trailingSurrogate, hc]
  have hletter : ∀ c t, c ≠ 'u' → trailingSurrogate lead ('\\' :: c :: t) = .error .malformed := by
    intro c t hc
    simp [trailingSurrogate, hc]
  refine steady_of_cons ⟨_, rfl⟩ (fun c t hc => ⟨_, hhalf c t (ne_of_isBreak hc)⟩) fun c _ => ?_
  by_cases hslash : c = '\\'
  · subst hslash
    refine steady_of_cons ⟨_, rfl⟩ (fun c t hc => ⟨_, hletter c t (ne_of_isBreak hc)⟩) fun c _ => ?_
    by_cases hu : c = 'u'
    · subst hu
      intro t u h
      unfold trailingSurrogate
      rcases (hexQuad_steady t u h).cases with ⟨e, e', ht, hu⟩ | ⟨⟨x, t'⟩, ⟨y, u'⟩, ht, hu, rfl, hleaves⟩
      · simp only [ht, hu]
        exact .error e e'
      · simp only [ht, hu]
        split
        · exact .ok ⟨rfl, hleaves⟩
        · exact .error _ _
    · simp only [hletter c _ hu]
      exact steady_error _
  · simp only [hhalf c _ hslash]
    exact steady_error _

theorem codePoint_steady : Steady codePoint := by
  intro t u h
  unfold codePoint
  rcases (hexQuad_steady t u h).cases with ⟨e, e', ht, hu⟩ | ⟨⟨n, t'⟩, ⟨_, u'⟩, ht, hu, rfl, hleaves⟩
  · rw [ht, hu]
    exact .error e e'
  · rw [ht, hu]
    dsimp only
    split
    · exact .error _ _
    · split
      · exact (trailingSurrogate_steady n).after hleaves
      · exact .ok ⟨rfl, hleaves⟩

theorem escapeOf?_of_isBreak {c : Char} (h : isBreak c = true) : escapeOf? c = none := by
  rcases isBreak_iff.1 h with rfl | rfl <;> decide

theorem escapeSequence_steady : Steady escapeSequence := by
  have hletter : ∀ c t, c ≠ 'u' → escapeSequence (c :: t) =
      (escapeOf? c).elim (.error .malformed) fun d => .ok (d, t) := by
    intro c t hc
    unfold escapeSequence
    split
    · next heq => cases heq
    · next heq => exact absurd (List.cons.inj heq).1 hc
    · next heq =>
      obtain ⟨rfl, rfl⟩ := List.cons.inj heq
      cases escapeOf? c <;> rfl
  refine steady_of_cons ⟨_, rfl⟩ (fun c t hc => ⟨.malformed, ?_⟩) fun c _ => ?_
  · rw [hletter c t (ne_of_isBreak hc), escapeOf?_of_isBreak hc, Option.elim_none]
  · by_cases hu : c = 'u'
    · subst hu
      exact codePoint_steady
    · simp only [hletter c _ hu]
      cases escapeOf? c with
      | some d => exact steady_ok d
      | none => exact steady_error _

theorem characters_other (n : Nat) {c : Char} (t : Text) (hquote : c ≠ '"') (hslash : c ≠ '\\') :
    characters (n + 1) (c :: t) =
      if c < ' ' then .error .malformed else characters n t >>= fun r => .ok (c :: r.1, r.2) := by
  conv_lhs => unfold characters
  split
  · next heq => cases heq
  · next heq => exact absurd (List.cons.inj heq).1 hquote
  · next heq => exact absurd (List.cons.inj heq).1 hslash
  · next heq =>
    obtain ⟨rfl, rfl⟩ := List.cons.inj heq
    rfl

theorem lt_space_of_isBreak {c : Char} (h : isBreak c = true) : c < ' ' := by
  rcases isBreak_iff.1 h with rfl | rfl <;> decide

/-- The characters of two strings, with steps enough for both. -/
theorem characters_inStep {n m : Nat} (hn : t.length < n) (hm : u.length < m) (h : Alike t u) :
    InStep (Gives t u) (characters n t) (characters m u) := by
  induction n generalizing m t u with
  | zero => omega
  | succ n ih =>
    obtain ⟨m, rfl⟩ : ∃ k, m = k + 1 := ⟨m - 1, by omega⟩
    -- the two readings take the same steps, and the texts get shorter in each
    have hgo : ∀ (c : Char) {t' u' : Text}, Leaves t u t' u' → t'.length < n → u'.length < m →
        InStep (Gives t u) (characters n t' >>= fun r => .ok (c :: r.1, r.2))
          (characters m u' >>= fun r => .ok (c :: r.1, r.2)) := by
      intro c t' u' hleaves hn' hm'
      exact (ih hn' hm' hleaves.alike).then fun cs _ _ hrest => .ok ⟨rfl, hleaves.trans hrest⟩
    rcases h.cases with ⟨rfl, rfl⟩ | ⟨c, t', u', -, rfl, rfl, h'⟩ | ⟨c, d, t', u', hc, hd, rfl, rfl⟩
    · exact .error _ _
    · have hleaves := Leaves.cons h' c c
      simp only [List.length_cons] at hn hm
      by_cases hquote : c = '"'
      · subst hquote
        exact .ok ⟨rfl, hleaves⟩
      · by_cases hslash : c = '\\'
        · subst hslash
          refine (escapeSequence_steady t' u' h').then fun c t'' u'' hrest => ?_
          have hleft := hrest.left
          have hright := hrest.right
          exact hgo c (hleaves.trans hrest) (by omega) (by omega)
        · simp only [characters_other n t' hquote hslash, characters_other m u' hquote hslash]
          split
          · exact .error _ _
          · exact hgo c hleaves (by omega) (by omega)
    · rw [characters_other _ _ (ne_of_isBreak hc) (ne_of_isBreak hc), if_pos (lt_space_of_isBreak hc),
        characters_other _ _ (ne_of_isBreak hd) (ne_of_isBreak hd), if_pos (lt_space_of_isBreak hd)]
      exact .error _ _

theorem stringBody_steady : Steady stringBody :=
  fun _ _ h => characters_inStep (Nat.lt_succ_self _) (Nat.lt_succ_self _) h

/-! ## Separators -/

def mark (d : Char) (t : Text) : Except Error Text :=
  match skipBlank t with
  | [] => .error .truncated
  | c :: t => if c = d then .ok t else .error .malformed

theorem colon_eq_mark : colon = mark ':' := by
  funext t
  unfold colon mark
  cases skipBlank t with
  | nil => rfl
  | cons c t => by_cases hc : c = ':' <;> simp [hc]

theorem closeArray_eq_mark : closeArray = mark ']' := by
  funext t
  unfold closeArray mark
  cases skipBlank t with
  | nil => rfl
  | cons c t => by_cases hc : c = ']' <;> simp [hc]

theorem closeObject_eq_mark : closeObject = mark '\x7d' := by
  funext t
  unfold closeObject mark
  cases skipBlank t with
  | nil => rfl
  | cons c t => by_cases hc : c = '\x7d' <;> simp [hc]

theorem mark_steady (d : Char) : SteadyScan (mark d) := by
  intro t u h
  unfold mark
  rcases skipBlank_cases h with ⟨ht, hu⟩ | ⟨c, t', u', ht, hu, hleaves, -, -⟩
  · rw [ht, hu]
    exact .error _ _
  · rw [ht, hu]
    dsimp only
    split
    · exact .ok hleaves
    · exact .error _ _

theorem colon_steady : SteadyScan colon := by
  rw [colon_eq_mark]
  exact mark_steady ':'

theorem closeArray_steady : SteadyScan closeArray := by
  rw [closeArray_eq_mark]
  exact mark_steady ']'

theorem closeObject_steady : SteadyScan closeObject := by
  rw [closeObject_eq_mark]
  exact mark_steady '\x7d'

theorem nextItem_inStep (first : Bool) (h : Alike t u) :
    InStep (Option.Rel (Leaves t u)) (nextItem first t) (nextItem first u) := by
  rcases skipBlank_cases h with ⟨ht, hu⟩ | ⟨c, t', u', ht, hu, hleaves, -, -⟩
  · simp only [nextItem, ht, hu]
    exact .error _ _
  · have hitem := skipBlank_leaves h
    rw [ht, hu] at hitem
    by_cases hend : c = ']'
    · subst hend
      simp only [nextItem, ht, hu]
      exact .ok .none
    · cases first with
      | true =>
        simp only [nextItem, ht, hu, if_true]
        exact .ok (.some hitem)
      | false =>
        by_cases hcomma : c = ','
        · subst hcomma
          have hnext := skipBlank_leaves hleaves.alike
          rcases skipBlank_cases hleaves.alike with ⟨ht', hu'⟩ | ⟨d, t'', u'', ht', hu', -, -, -⟩
          · simp only [nextItem, ht, hu, ht', hu']
            exact .error _ _
          · rw [ht', hu'] at hnext
            by_cases hd : d = ']'
            · subst hd
              simp only [nextItem, ht, hu, ht', hu']
              exact .error _ _
            · simp only [nextItem, ht, hu, ht', hu', List.cons.injEq, hd, false_and, imp_self, implies_true,
                Bool.false_eq_true, if_true, if_false]
              exact .ok (Option.Rel.some (hleaves.trans hnext))
        · simp only [nextItem, ht, hu, hcomma, if_false]
          exact .error _ _

/-- What is left after the quote of a key is shorter than before. -/
theorem nextKey_inStep (first : Bool) (h : Alike t u) :
    InStep (Option.Rel fun t' u' => Leaves t u t' u' ∧ t'.length < t.length ∧ u'.length < u.length)
      (nextKey first t) (nextKey first u) := by
  rcases skipBlank_cases h with ⟨ht, hu⟩ | ⟨c, t', u', ht, hu, hleaves, hlt, hlt'⟩
  · simp only [nextKey, ht, hu]
    exact .error _ _
  · by_cases hend : c = '\x7d'
    · subst hend
      simp only [nextKey, ht, hu]
      exact .ok .none
    · cases first with
      | true =>
        simp only [nextKey, ht, hu, if_true]
        split
        · exact .ok (.some ⟨hleaves, hlt, hlt'⟩)
        · exact .error _ _
      | false =>
        by_cases hcomma : c = ','
        · subst hcomma
          rcases skipBlank_cases hleaves.alike with ⟨ht', hu'⟩ | ⟨d, t'', u'', ht', hu', hleaves', -, -⟩
          · simp only [nextKey, ht, hu, ht', hu']
            exact .error _ _
          · by_cases hd : d = '"'
            · subst hd
              simp only [nextKey, ht, hu, ht', hu']
              exact .ok (.some ⟨hleaves.trans hleaves', hleaves'.left.trans_lt hlt,
                hleaves'.right.trans_lt hlt'⟩)
            · simp only [nextKey, ht, hu, ht', hu', List.cons.injEq, hd, false_and, imp_self, implies_true,
                Bool.false_eq_true, if_true, if_false]
              exact .error _ _
        · simp only [nextKey, ht, hu, hcomma, if_false]
          exact .error _ _

/-! ## Scalars -/

theorem literal_steady (es : Text) (hes : ∀ e ∈ es, isBreak e = false) (x : α) :
    Steady fun t => (literal es t).map (x, ·) :=
  fun _ _ h => (literal_steadyScan hes _ _ h).map fun _ _ hleaves => ⟨rfl, hleaves⟩

theorem boolean_steady : Steady boolean := by
  intro t u h
  rcases skipBlank_cases h with ⟨ht, hu⟩ | ⟨c, t', u', ht, hu, hleaves, -, -⟩
  · simp only [boolean, ht, hu]
    exact .error _ _
  · by_cases htrue : c = 't'
    · subst htrue
      simp only [boolean, ht, hu]
      exact (literal_steady ['r', 'u', 'e'] (by simp [isBreak]) true).after hleaves
    · by_cases hfalse : c = 'f'
      · subst hfalse
        simp only [boolean, ht, hu]
        exact (literal_steady ['a', 'l', 's', 'e'] (by simp [isBreak]) false).after hleaves
      · simp only [boolean, ht, hu, List.cons.injEq, htrue, hfalse, false_and, imp_self, implies_true]
        exact .error _ _

theorem null_steady : Steady null := by
  intro t u h
  rcases skipBlank_cases h with ⟨ht, hu⟩ | ⟨c, t', u', ht, hu, hleaves, -, -⟩
  · simp only [null, ht, hu]
    exact .error _ _
  · by_cases hc : c = 'n'
    · subst hc
      simp only [null, ht, hu]
      exact (literal_steady ['u', 'l', 'l'] (by simp [isBreak]) ()).after hleaves
    · simp only [null, ht, hu, List.cons.injEq, hc, false_and, imp_self, implies_true]
      exact .error _ _

theorem option_steady {value : Decoder α} (hvalue : Steady value) : Steady (option value) := by
  intro t u h
  have hstart := skipBlank_leaves h
  have hsome : InStep (Gives t u) ((value (skipBlank t)).map fun r => (some r.1, r.2))
      ((value (skipBlank u)).map fun r => (some r.1, r.2)) :=
    (hvalue.after hstart).map fun _ _ hxy => ⟨congrArg some hxy.1, hxy.2⟩
  rcases skipBlank_cases h with ⟨ht, hu⟩ | ⟨c, t', u', ht, hu, hleaves, -, -⟩
  · rw [ht, hu] at hsome
    simp only [option, ht, hu]
    exact hsome
  · rw [ht, hu] at hsome
    by_cases hc : c = 'n'
    · subst hc
      simp only [option, ht, hu]
      exact (literal_steady ['u', 'l', 'l'] (by simp [isBreak]) none).after hleaves
    · simp only [option, ht, hu, List.cons.injEq, hc, false_and, imp_self, implies_true]
      exact hsome

theorem variantName_steady (variants : List (String × α)) : Steady (variantName variants) := by
  intro t u h
  refine (stringBody_steady t u h).then fun name t' u' hleaves => ?_
  dsimp only
  split
  · exact .ok ⟨rfl, hleaves⟩
  · exact .error _ _

theorem variant_steady (variants : List (String × α)) : Steady (variant variants) := by
  intro t u h
  rcases skipBlank_cases h with ⟨ht, hu⟩ | ⟨c, t', u', ht, hu, hleaves, -, -⟩
  · simp only [variant, ht, hu]
    exact .error _ _
  · by_cases hquote : c = '"'
    · subst hquote
      simp only [variant, ht, hu]
      exact (variantName_steady variants).after hleaves
    · by_cases hbrace : c = '\x7b'
      · subst hbrace
        simp only [variant, ht, hu]
        refine (nextKey_inStep true hleaves.alike).bind fun o o' ho => ?_
        cases ho with
        | none => exact .error _ _
        | some hkey =>
          refine ((variantName_steady variants).after (hleaves.trans hkey.1)).then fun x t'' u'' hname => ?_
          refine (colon_steady.after hname).bind fun _ _ hcolon => ?_
          refine (null_steady.after hcolon).then fun _ _ _ hnull => ?_
          exact (closeObject_steady.after hnull).bind fun _ _ hclose => .ok ⟨rfl, hclose⟩
      · simp only [variant, ht, hu, List.cons.injEq, hquote, hbrace, false_and, imp_self, implies_true]
        exact .error _ _

/-! ## Records -/

def Field.Steady (f : Field α) : Prop := Json.Steady f.decode

variable {f : Field α} {g : Field β} {shape : RecordShape}

theorem Field.readMember_steady (hf : f.Steady) (x : Option α) : Json.Steady (f.readMember x) := by
  intro t u h
  cases x with
  | some => exact .error _ _
  | none => exact (colon_steady t u h).bind fun _ _ hcolon => Json.Steady.after hf hcolon

theorem Field.readItem_steady (hf : f.Steady) (shape : RecordShape) (place : Nat) :
    Json.Steady (f.readItem shape place) := by
  intro t u h
  refine (nextItem_inStep (place = 0) h).bind fun o o' ho => ?_
  cases ho with
  | some hitem => exact Json.Steady.after hf hitem
  | none =>
    dsimp only
    split
    · exact .ok ⟨rfl, .refl h⟩
    · exact .error _ _

theorem Field.valueOf_inStep (f : Field α) (x : Option α) : InStep Eq (f.valueOf x) (f.valueOf x) := by
  unfold valueOf
  split
  · exact .ok rfl
  · exact .error _ _

/-- The members of two objects without unknown keys, with steps enough for both. -/
theorem members_inStep (hstrict : shape.strict = true) (hf : f.Steady) (hg : g.Steady) {n m : Nat}
    (first : Bool) (x : Option α) (y : Option β) (hn : t.length < n) (hm : u.length < m) (h : Alike t u) :
    InStep (Gives t u) (members shape f g n first x y t) (members shape f g m first x y u) := by
  induction n generalizing m first x y t u with
  | zero => omega
  | succ n ih =>
    obtain ⟨m, rfl⟩ : ∃ k, m = k + 1 := ⟨m - 1, by omega⟩
    unfold members
    refine (nextKey_inStep first h).bind fun o o' ho => ?_
    cases ho with
    | none => exact (closeObject_steady t u h).bind fun _ _ hclose => .ok ⟨rfl, hclose⟩
    | some hkey =>
      obtain ⟨hkey, hlt, hlt'⟩ := hkey
      refine (stringBody_steady _ _ hkey.alike).then fun key t' u' hname => ?_
      have hrest : ∀ (x : Option α) (y : Option β) {t'' u'' : Text}, Leaves t' u' t'' u'' →
          InStep (Gives t u) (members shape f g n false x y t'') (members shape f g m false x y u'') := by
        intro x y t'' u'' hvalue
        have hleaves := hname.trans hvalue
        have hleft := hleaves.left
        have hright := hleaves.right
        refine (ih false x y (by omega) (by omega) hvalue.alike).mono fun _ _ hxy => ?_
        exact ⟨hxy.1, hkey.trans (hleaves.trans hxy.2)⟩
      dsimp only
      by_cases hfirst : key = f.name.toList
      · rw [if_pos hfirst, if_pos hfirst]
        exact (f.readMember_steady hf x t' u' hname.alike).then fun a _ _ hvalue => hrest (some a) y hvalue
      · rw [if_neg hfirst, if_neg hfirst]
        by_cases hsecond : key = g.name.toList
        · rw [if_pos hsecond, if_pos hsecond]
          exact (g.readMember_steady hg y t' u' hname.alike).then fun b _ _ hvalue => hrest x (some b) hvalue
        · -- a key that is no field name is refused, so there is no value to be passed over
          rw [if_neg hsecond, if_neg hsecond, if_pos hstrict, if_pos hstrict]
          exact .error _ _

theorem record_steady (hstrict : shape.strict = true) (hf : f.Steady) (hg : g.Steady) :
    Steady (record shape f g) := by
  intro t u h
  rcases skipBlank_cases h with ⟨ht, hu⟩ | ⟨c, t', u', ht, hu, hleaves, -, -⟩
  · simp only [record, ht, hu]
    exact .error _ _
  · by_cases hbracket : c = '['
    · subst hbracket
      simp only [record, ht, hu]
      refine ((Field.readItem_steady hf shape 0).after hleaves).then fun a _ _ hfirst => ?_
      refine ((Field.readItem_steady hg shape 1).after hfirst).then fun b _ _ hsecond => ?_
      exact (closeArray_steady.after hsecond).bind fun _ _ hclose => .ok ⟨rfl, hclose⟩
    · by_cases hbrace : c = '\x7b'
      · subst hbrace
        simp only [record, ht, hu]
        have hmembers := members_inStep hstrict hf hg true none none (Nat.lt_succ_self _) (Nat.lt_succ_self _)
          hleaves.alike
        refine hmembers.then fun ⟨x, y⟩ _ _ hend => ?_
        refine (f.valueOf_inStep x).bind fun a _ ha => ?_
        subst ha
        refine (g.valueOf_inStep y).bind fun b _ hb => ?_
        subst hb
        exact .ok ⟨rfl, hleaves.trans hend⟩
      · simp only [record, ht, hu, List.cons.injEq, hbracket, hbrace, false_and, imp_self, implies_true]
        exact .error _ _

/-! ## Whole texts -/

theorem decodeText_inStep {value : Decoder α} (hvalue : Steady value) (h : Alike t u) :
    InStep Eq (decodeText value t) (decodeText value u) := by
  refine (hvalue t u h).then fun x t' u' hend => ?_
  dsimp only
  rcases skipBlank_cases hend.alike with ⟨ht, hu⟩ | ⟨c, t'', u'', ht, hu, -, -, -⟩
  · rw [if_pos ht, if_pos hu]
    exact .ok rfl
  · rw [if_neg (by rw [ht]; exact List.cons_ne_nil _ _), if_neg (by rw [hu]; exact List.cons_ne_nil _ _)]
    exact .error _ _

end Json

namespace Config

open Json

theorem decode_steady : Steady decode := by
  intro t u h
  have hrecord : Steady (record ⟨"CbreadConfig", true⟩
      ⟨"output", Json.option (Json.variant OutputFormat.names), some none⟩
      ⟨"positions", Json.boolean, some false⟩) :=
    record_steady rfl (option_steady (variant_steady _)) boolean_steady
  exact (hrecord t u h).map fun _ _ hrs => ⟨by rw [hrs.1], hrs.2⟩

/-- **A configuration does not depend on the kinds of its line breaks.** -/
theorem parse_inStep (h : Alike t u) : InStep Eq (parse t) (parse u) :=
  decodeText_inStep decode_steady h

end Config

end CanonicalText
