import Mathlib
import CanonicalText.Proofs.Reader.Placement

/-!
# Line breaks as replacements

What the normalizer does in one pass, two replacements do in two: first every `\r\n` becomes `\n`, then
every `\r` that is left.

* `breaksRec` : a text by its line breaks; each case has its equation for `canonicalize`;
* `replaceAll` : the replacement of one text by another, from left to right;
* `canonicalize_eq_replacements` : the canonical text is the two replacements, and what follows of its
  characters.
-/

namespace CanonicalText

/-- Induction over the line breaks of a text: a `\r\n`, a `\r` without its `\n`, or another character
comes first. -/
@[elab_as_elim]
theorem breaksRec {P : Text → Prop} (nil : P [])
    (pair : ∀ text, P text → P ('\r' :: '\n' :: text))
    (alone : ∀ text : Text, text.head? ≠ some '\n' → P text → P ('\r' :: text))
    (other : ∀ (c : Char) (text : Text), c ≠ '\r' → P text → P (c :: text)) : ∀ text, P text
  | [] => nil
  | [c] => by
    by_cases hc : c = '\r'
    · subst hc
      exact alone [] (by simp) nil
    · exact other c [] hc nil
  | c :: d :: text => by
    have hd : P (d :: text) := breaksRec nil pair alone other (d :: text)
    by_cases hc : c = '\r'
    · subst hc
      by_cases hn : d = '\n'
      · subst hn
        exact pair text (breaksRec nil pair alone other text)
      · exact alone (d :: text) (by simpa using hn) hd
    · exact other c (d :: text) hc hd

/-! ## The characters that a machine gives -/

namespace Normalizer

theorem chars_position (state : LineState) (p q : Position) (text : Text) :
    chars ⟨state, p⟩ text = chars ⟨state, q⟩ text := by
  induction text generalizing state p q with
  | nil => rfl
  | cons c text ih =>
    by_cases hr : c = '\r'
    · subst hr
      simpa [chars, run, feed] using ih .afterReturn p.nextLine q.nextLine
    · by_cases hn : c = '\n'
      · subst hn
        cases state with
        | afterReturn => simpa [chars, run, feed] using ih .normal p q
        | normal => simpa [chars, run, feed] using ih .normal p.nextLine q.nextLine
      · simpa [chars, run, feed, hr, hn] using ih .normal p.nextColumn q.nextColumn

/-- A machine after a `\r` gives what one in its normal state gives, unless a `\n` comes. -/
theorem chars_afterReturn (p : Position) {text : Text} (h : text.head? ≠ some '\n') :
    chars ⟨.afterReturn, p⟩ text = chars ⟨.normal, p⟩ text := by
  cases text with
  | nil => rfl
  | cons c text =>
    have hn : c ≠ '\n' := by simpa using h
    by_cases hr : c = '\r' <;> simp [chars, run, feed, hr, hn]

theorem chars_normal (p : Position) (text : Text) : chars ⟨.normal, p⟩ text = canonicalize text :=
  chars_position .normal p .origin text

end Normalizer

open Normalizer

@[simp] theorem canonicalize_nil : canonicalize [] = [] := rfl

@[simp] theorem canonicalize_pair (text : Text) :
    canonicalize ('\r' :: '\n' :: text) = '\n' :: canonicalize text := by
  rw [← chars_normal Position.origin.nextLine text]
  rfl

theorem canonicalize_alone {text : Text} (h : text.head? ≠ some '\n') :
    canonicalize ('\r' :: text) = '\n' :: canonicalize text := by
  rw [← chars_normal Position.origin.nextLine text, ← chars_afterReturn _ h]
  rfl

theorem canonicalize_other {c : Char} (h : c ≠ '\r') (text : Text) :
    canonicalize (c :: text) = c :: canonicalize text := by
  by_cases hn : c = '\n'
  · subst hn
    rw [← chars_normal Position.origin.nextLine text]
    rfl
  · rw [← chars_normal Position.origin.nextColumn text]
    simp [canonicalize, pairs, run, feed, chars, start, h, hn]

/-! ## Replacements -/

/-- The text with `new` in the place of each `old`, which is looked for from left to right, each time
after the last one that was found. `old` is not empty. -/
def replaceAll (old new : Text) : Text → Text
  | [] => []
  | c :: text =>
    if old.isPrefixOf (c :: text) then new ++ replaceAll old new (text.drop (old.length - 1))
    else c :: replaceAll old new text
termination_by text => text.length

theorem replaceAll_singleton (a b : Char) (text : Text) :
    replaceAll [a] [b] text = text.map fun c => if c = a then b else c := by
  induction text with
  | nil => rw [replaceAll, List.map_nil]
  | cons c text ih =>
    rw [replaceAll, List.map_cons]
    by_cases hc : c = a
    · simp [hc, ih]
    · simp [hc, Ne.symm hc, ih]

abbrev joinPairs (text : Text) : Text := replaceAll ['\r', '\n'] ['\n'] text

theorem joinPairs_pair (text : Text) : joinPairs ('\r' :: '\n' :: text) = '\n' :: joinPairs text := by
  rw [joinPairs, replaceAll]
  simp [joinPairs]

theorem joinPairs_alone {text : Text} (h : text.head? ≠ some '\n') :
    joinPairs ('\r' :: text) = '\r' :: joinPairs text := by
  rw [joinPairs, replaceAll]
  cases text with
  | nil => simp [joinPairs]
  | cons d text =>
    have hd : d ≠ '\n' := by simpa using h
    simp [joinPairs, Ne.symm hd]

theorem joinPairs_other {c : Char} (h : c ≠ '\r') (text : Text) :
    joinPairs (c :: text) = c :: joinPairs text := by
  rw [joinPairs, replaceAll]
  simp [joinPairs, Ne.symm h]

theorem canonicalize_eq_map_joinPairs (text : Text) :
    canonicalize text = (joinPairs text).map fun c => if c = '\r' then '\n' else c := by
  induction text using breaksRec with
  | nil => rw [joinPairs, replaceAll, canonicalize_nil, List.map_nil]
  | pair text ih => rw [canonicalize_pair, joinPairs_pair, List.map_cons, ih, if_neg (by decide)]
  | alone text h ih => rw [canonicalize_alone h, joinPairs_alone h, List.map_cons, ih, if_pos rfl]
  | other c text h ih => rw [canonicalize_other h, joinPairs_other h, List.map_cons, ih, if_neg h]

/-! ## What is kept and what is not -/

theorem return_notMem_canonicalize (text : Text) : '\r' ∉ canonicalize text := by
  rw [canonicalize_eq_map_joinPairs, List.mem_map]
  rintro ⟨c, -, hc⟩
  split at hc
  · exact absurd hc (by decide)
  · next h => exact h hc

theorem canonicalize_eq_self_iff (text : Text) : canonicalize text = text ↔ '\r' ∉ text := by
  constructor
  · intro h
    rw [← h]
    exact return_notMem_canonicalize text
  · intro h
    induction text with
    | nil => rfl
    | cons c text ih =>
      rw [List.mem_cons, not_or] at h
      rw [canonicalize_other (Ne.symm h.1), ih h.2]

def returnPairs (text : Text) : Nat := (text.zip text.tail).count ('\r', '\n')

theorem returnPairs_pair (text : Text) : returnPairs ('\r' :: '\n' :: text) = returnPairs text + 1 := by
  cases text <;> simp [returnPairs]

theorem returnPairs_alone {text : Text} (h : text.head? ≠ some '\n') :
    returnPairs ('\r' :: text) = returnPairs text := by
  cases text with
  | nil => rfl
  | cons d text =>
    have hd : d ≠ '\n' := by simpa using h
    simp [returnPairs, hd]

theorem returnPairs_other {c : Char} (h : c ≠ '\r') (text : Text) :
    returnPairs (c :: text) = returnPairs text := by
  cases text with
  | nil => rfl
  | cons d text => simp [returnPairs, h]

theorem count_break_canonicalize (text : Text) :
    (canonicalize text).count '\n' + returnPairs text = text.count '\n' + text.count '\r' := by
  induction text using breaksRec with
  | nil => rfl
  | pair text ih =>
    rw [canonicalize_pair, returnPairs_pair]
    simp only [List.count_cons_self, List.count_cons_of_ne (show '\r' ≠ '\n' by decide),
      List.count_cons_of_ne (show '\n' ≠ '\r' by decide)]
    omega
  | alone text h ih =>
    rw [canonicalize_alone h, returnPairs_alone h]
    simp only [List.count_cons_self, List.count_cons_of_ne (show '\r' ≠ '\n' by decide)]
    omega
  | other c text h ih =>
    rw [canonicalize_other h, returnPairs_other h, List.count_cons_of_ne h, List.count_cons,
      List.count_cons]
    omega

theorem filter_canonicalize (text : Text) :
    (canonicalize text).filter (fun c => c ≠ '\n') = text.filter (fun c => c ≠ '\n' ∧ c ≠ '\r') := by
  induction text using breaksRec with
  | nil => rfl
  | pair text ih => simpa [canonicalize_pair] using ih
  | alone text h ih => simpa [canonicalize_alone h] using ih
  | other c text h ih =>
    rw [canonicalize_other h, List.filter_cons, List.filter_cons, ih]
    simp [h]

/-- **The canonical text is two replacements**: `\n` for every `\r\n`, and then for every `\r` that is
left. So it has no `\r`, one `\n` for each line break of any kind and all other characters in their
order, and just the texts without `\r` are their own canonical texts. -/
theorem canonicalize_eq_replacements (text : Text) :
    canonicalize text = replaceAll ['\r'] ['\n'] (replaceAll ['\r', '\n'] ['\n'] text) ∧
      '\r' ∉ canonicalize text ∧
      (canonicalize text).count '\n' = text.count '\n' + text.count '\r' - returnPairs text ∧
      returnPairs text ≤ text.count '\n' + text.count '\r' ∧
      (canonicalize text).filter (fun c => c ≠ '\n') = text.filter (fun c => c ≠ '\n' ∧ c ≠ '\r') ∧
      canonicalize (canonicalize text) = canonicalize text ∧
      (canonicalize text = text ↔ '\r' ∉ text) := by
  have hcount := count_break_canonicalize text
  refine ⟨?_, return_notMem_canonicalize text, by omega, by omega, filter_canonicalize text, ?_,
    canonicalize_eq_self_iff text⟩
  · rw [replaceAll_singleton]
    exact canonicalize_eq_map_joinPairs text
  · exact (canonicalize_eq_self_iff _).2 (return_notMem_canonicalize text)

/-- Breaks side by side: a `\n`, a `\r` by itself, a `\r\n` and a `\n`. -/
example : canonicalize ['\n', '\r', '\r', '\n', '\n'] = ['\n', '\n', '\n', '\n'] := by decide

end CanonicalText
