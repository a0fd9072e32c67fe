import Mathlib
import CanonicalText.Command.Run

/-!
# Filter texts that break nothing off

A directive is cut out of its text at the distances that its marks have in the text without white space at its
ends. These are the right ones if no white space comes first, and wrong ones fall between characters all the same
if every character takes up one byte.

* `IsBoundary`, `Aligned` : places between characters;
* `Log.Unbroken` : readings that no cut inside a character ends;
* `Log.IsPlain`, `Log.IsPlain.ofText_unbroken` : directives that are read or refused;
* `World.HasPlainFilter` : environments in which the log has a filter.
-/

namespace CanonicalText

/-! ## Places between characters -/

theorem utf8Length_append (s t : Text) : utf8Length (s ++ t) = utf8Length s + utf8Length t := by
  induction s with
  | nil => rw [List.nil_append, utf8Length, Nat.zero_add]
  | cons c s ih => rw [List.cons_append, utf8Length, utf8Length, ih, Nat.add_assoc]

/-- Whether a byte of a text comes between two characters, or at an end of it. -/
def IsBoundary (t : Text) (n : Nat) : Prop := ∃ s u, t = s ++ u ∧ utf8Length s = n

theorem isBoundary_append {s u : Text} {n : Nat} (h : IsBoundary (s ++ u) (utf8Length s + n)) : IsBoundary u n := by
  induction s with
  | nil => simpa [utf8Length] using h
  | cons c s ih =>
    obtain ⟨p, q, hpq, hlength⟩ := h
    have hc := c.utf8Size_pos
    cases p with
    | nil =>
      simp only [utf8Length] at hlength
      omega
    | cons d p =>
      obtain ⟨rfl, hpq⟩ := List.cons.inj hpq
      simp only [utf8Length] at hlength
      exact ih ⟨p, q, by simpa using hpq, by omega⟩

/-- Whether `rest` stands from a byte of a text on, at least as far as the boundaries of its characters go. -/
def Aligned (t rest : Text) (start : Nat) : Prop :=
  ∀ p q, rest = p ++ q → IsBoundary t (start + utf8Length p)

variable {t rest p : Text} {start : Nat}

theorem Aligned.isBoundary (h : Aligned t rest start) : IsBoundary t start := h [] rest rfl

theorem Aligned.append (h : Aligned t (p ++ rest) start) : Aligned t rest (start + utf8Length p) := by
  rintro p' q rfl
  rw [Nat.add_assoc, ← utf8Length_append]
  exact h (p ++ p') q (List.append_assoc _ _ _).symm

theorem Aligned.cons {c : Char} (h : Aligned t (c :: rest) start) (hc : c.utf8Size = 1) :
    Aligned t rest (start + 1) := by
  have hrest := Aligned.append (p := [c]) h
  rwa [utf8Length, utf8Length, hc] at hrest

/-- A text without white space before it is aligned with what is left of it without white space. -/
theorem aligned_trim_of_head (h : ∀ c ∈ t.head?, isWhitespace c = false) : Aligned t (trim t) 0 := by
  have hdrop : t.dropWhile isWhitespace = t := by
    cases t with
    | nil => rfl
    | cons c t => rw [List.dropWhile_cons_of_neg (by simp [h c rfl])]
  have htrim : t = trim t ++ (t.reverse.takeWhile isWhitespace).reverse := by
    rw [trim, hdrop, ← List.reverse_append, List.takeWhile_append_dropWhile, List.reverse_reverse]
  intro p q hpq
  refine ⟨p, q ++ (t.reverse.takeWhile isWhitespace).reverse, ?_, (Nat.zero_add _).symm⟩
  rw [← List.append_assoc, ← hpq]
  exact htrim

theorem utf8Length_of_single (h : ∀ c ∈ t, c.utf8Size = 1) : utf8Length t = t.length := by
  induction t with
  | nil => rfl
  | cons c t ih =>
    rw [utf8Length, h c List.mem_cons_self, ih fun d hd => h d (List.mem_cons_of_mem _ hd), List.length_cons,
      Nat.add_comm]

theorem trim_sublist (t : Text) : (trim t).Sublist t := by
  have hinner : ((t.dropWhile isWhitespace).reverse.dropWhile isWhitespace).reverse.Sublist
      (t.dropWhile isWhitespace).reverse.reverse := (List.dropWhile_sublist _).reverse
  rw [List.reverse_reverse] at hinner
  exact hinner.trans (List.dropWhile_sublist _)

/-- Where every character takes up one byte, every byte comes between two of them. -/
theorem aligned_trim_of_single (h : ∀ c ∈ t, c.utf8Size = 1) : Aligned t (trim t) 0 := by
  intro p q hpq
  have hsub := trim_sublist t
  rw [hpq] at hsub
  have hp : ∀ c ∈ p, c.utf8Size = 1 := fun c hc => h c (hsub.subset (List.mem_append_left _ hc))
  have hlength := hsub.length_le
  rw [List.length_append] at hlength
  refine ⟨t.take p.length, t.drop p.length, (List.take_append_drop _ _).symm, ?_⟩
  rw [utf8Length_of_single fun c hc => h c (List.mem_of_mem_take hc), utf8Length_of_single hp, List.length_take]
  omega

namespace Log

/-! ## Readings -/

def Unbroken {α : Type} (r : Except Misreading α) : Prop := ∀ n, r ≠ .error (.insideCharacter n)

variable {α β : Type}

theorem unbroken_ok (x : α) : Unbroken (.ok x) := by
  rintro n ⟨⟩

theorem unbroken_malformed : Unbroken (.error .malformed : Except Misreading α) := by
  rintro n ⟨⟩

theorem Unbroken.bind {r : Except Misreading α} {f : α → Except Misreading β} (h : Unbroken r)
    (hf : ∀ x, Unbroken (f x)) : Unbroken (r >>= f) := by
  cases r with
  | error e =>
    intro n hn
    exact h n (congrArg Except.error (Except.error.inj hn))
  | ok x => exact hf x

theorem unbroken_mapM {f : α → Except Misreading β} {xs : List α} (h : ∀ x ∈ xs, Unbroken (f x)) :
    Unbroken (xs.mapM f) := by
  induction xs with
  | nil => exact unbroken_ok []
  | cons x xs ih =>
    rw [List.mapM_cons]
    refine (h x List.mem_cons_self).bind fun y => ?_
    exact (ih fun x hx => h x (List.mem_cons_of_mem _ hx)).bind fun ys => unbroken_ok _

namespace Directive

theorem cut_unbroken (h : Aligned t (p ++ rest) start) : Unbroken (cut t start (start + utf8Length p)) := by
  obtain ⟨s, u, rfl, rfl⟩ := h.isBoundary
  have hstop := isBoundary_append (h p rest rfl)
  obtain ⟨s', u', rfl, hlength⟩ := hstop
  unfold cut
  rw [dropBytes?_append, Nat.add_sub_cancel_left, ← hlength]
  simp only [takeBytes?_append]
  exact unbroken_ok _

theorem limitFrom_unbroken (h : IsBoundary t start) : Unbroken (limitFrom t start) := by
  obtain ⟨s, u, rfl, rfl⟩ := h
  unfold limitFrom
  rw [dropBytes?_append]
  cases u with
  | nil => exact unbroken_ok _
  | cons c u =>
    dsimp only
    cases limit? (c :: u) with
    | some limit => exact unbroken_ok limit
    | none => exact unbroken_malformed

theorem limitAfter_unbroken (h : Aligned t rest start) : Unbroken (limitAfter t rest start) := by
  unfold limitAfter
  split
  · exact unbroken_ok _
  · exact limitFrom_unbroken (h.cons (by decide)).isBoundary
  · exact unbroken_malformed

theorem eq_takeWhile_append {passes : Char → Bool} {c : Char} {after : Text}
    (h : rest.drop (rest.takeWhile passes).length = c :: after) :
    rest = rest.takeWhile passes ++ c :: after ∧ passes c = false := by
  have hsplit := rest.takeWhile_append_dropWhile (p := passes)
  have hdrop : rest.drop (rest.takeWhile passes).length = rest.dropWhile passes :=
    (congrArg (List.drop (rest.takeWhile passes).length) hsplit).symm.trans List.drop_left
  rw [hdrop] at h
  refine ⟨?_, ?_⟩
  · rw [← h, hsplit]
  · have hhead := List.head?_dropWhile_not passes rest
    rw [h] at hhead
    simpa using hhead

theorem ofField_unbroken (target : Text) (span : Option Text) (h : Aligned t rest start) :
    Unbroken (ofField t target span rest start) := by
  unfold ofField
  dsimp only
  split
  · exact unbroken_malformed
  · next c after hafter =>
    obtain ⟨hrest, hc⟩ := eq_takeWhile_append hafter
    obtain rfl : c = '\x7d' := by simpa using hc
    rw [hrest] at h
    refine (cut_unbroken h).bind fun part => ?_
    split
    · next field after' _ =>
      have hafter' := (h.append.cons (by decide)).cons (by decide)
      exact (limitAfter_unbroken hafter').bind fun limit => unbroken_ok _
    · exact unbroken_malformed

theorem ofSpan_unbroken (target : Text) (h : Aligned t rest start) : Unbroken (ofSpan t target rest start) := by
  unfold ofSpan
  dsimp only
  split
  · exact unbroken_malformed
  · next c after hafter =>
    obtain ⟨hrest, hc⟩ := eq_takeWhile_append hafter
    have hmark : c = ']' ∨ c = '\x7b' := by
      simpa [or_iff_not_imp_left] using hc
    have hsize : c.utf8Size = 1 := by rcases hmark with rfl | rfl <;> decide
    rw [hrest] at h
    refine (cut_unbroken h).bind fun span => ?_
    split
    · exact (limitAfter_unbroken (h.append.cons hsize)).bind fun limit => unbroken_ok _
    · exact ofField_unbroken _ _ (h.append.cons hsize)

/-- A directive is read or refused if its text is aligned with what is left of it without white space. -/
theorem ofText_unbroken (h : Aligned t (trim t) 0) : Unbroken (ofText t) := by
  unfold ofText
  dsimp only
  split
  · exact unbroken_malformed
  · split
    · split
      · exact unbroken_ok _
      · exact unbroken_ok _
    · next after hafter =>
      obtain ⟨hrest, -⟩ := eq_takeWhile_append hafter
      rw [hrest] at h
      have hafter := h.append.cons (by decide)
      have hcut := cut_unbroken h
      rw [Nat.zero_add] at hafter hcut
      exact hcut.bind fun target => ofSpan_unbroken target hafter
    · next hnil _ =>
      obtain ⟨c, after, hafter⟩ := List.exists_cons_of_ne_nil hnil
      obtain ⟨hrest, hc⟩ := eq_takeWhile_append hafter
      have hmark : c = '=' ∨ c = '[' := by
        simpa [or_iff_not_imp_left] using hc
      have hsize : c.utf8Size = 1 := by rcases hmark with rfl | rfl <;> decide
      rw [hrest] at h
      have hafter := (h.append.cons hsize).isBoundary
      have hcut := cut_unbroken h
      rw [Nat.zero_add] at hafter hcut
      exact hcut.bind fun target => (limitFrom_unbroken hafter).bind fun limit => unbroken_ok _

end Directive

/-- Whether a directive is cut at the right places, or cannot be cut at wrong ones: no white space comes before
it, or all its characters take up one byte. -/
def IsPlain (t : Text) : Prop := (∀ c ∈ t.head?, isWhitespace c = false) ∨ ∀ c ∈ t, c.utf8Size = 1

theorem IsPlain.ofText_unbroken (h : IsPlain t) : Unbroken (Directive.ofText t) :=
  Directive.ofText_unbroken (h.elim aligned_trim_of_head aligned_trim_of_single)

theorem Filter.ofText_unbroken (h : ∀ part ∈ commaParts t, IsPlain part) : Unbroken (Filter.ofText t) := by
  have hparts : Unbroken ((commaParts t).mapM Directive.ofText) :=
    unbroken_mapM fun part hpart => (h part hpart).ofText_unbroken
  unfold Filter.ofText
  split
  · exact unbroken_ok _
  · exact hparts

end Log

/-- Whether the directives of the text that counts for the log are plain, if there is such a text. -/
def World.HasPlainFilter (world : World) : Prop :=
  ∀ t, (world.environment filterVariables.1 <|> world.environment filterVariables.2) = some t →
    ∀ part ∈ Log.commaParts t, Log.IsPlain part

/-- **The log has a filter** in every environment with plain directives. -/
theorem World.HasPlainFilter.logFilter_eq_ok {world : World} (h : world.HasPlainFilter) :
    ∃ filter, logFilter world = .ok filter := by
  unfold logFilter Log.Filter.choose
  cases htext : world.environment filterVariables.1 <|> world.environment filterVariables.2 with
  | none => exact ⟨_, rfl⟩
  | some t =>
    have hunbroken := Log.Filter.ofText_unbroken (h t htext)
    rw [Option.map_some]
    split
    · exact ⟨_, rfl⟩
    · next n heq => exact absurd (Option.some.inj heq) (hunbroken n)
    · exact ⟨_, rfl⟩

end CanonicalText
