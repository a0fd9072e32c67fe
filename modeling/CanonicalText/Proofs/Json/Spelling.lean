import Mathlib
import CanonicalText.Proofs.Json.LineBreaks

/-!
# How strings are spelled

A character inside a string stands for itself or is spelled by an escape: a letter, or four hexadecimal digits, or
twice four of them for the characters that need a surrogate pair. Every text can be spelled in many ways, and what
is read of a string is the text that it spells.

* `HexDigit`, `Quad` : hexadecimal digits, and four of them;
* `SpelledChar`, `SpelledText` : the spellings of a character and of a text;
* `escapeSequence_eq_ok_iff` : escapes are read as they spell;
* `stringBody_eq_ok_iff` : strings are.
-/

namespace CanonicalText.Json

/-! ## Spellings -/

def HexDigit (c : Char) (n : Nat) : Prop := n < 16 ∧ (c = Nat.digitChar n ∨ c = (Nat.digitChar n).toUpper)

inductive Quad : Text → Nat → Prop
  | mk {a b c d : Char} {i j k l : Nat} (ha : HexDigit a i) (hb : HexDigit b j) (hc : HexDigit c k)
      (hd : HexDigit d l) : Quad [a, b, c, d] (((i * 16 + j) * 16 + k) * 16 + l)

def escapes : List (Char × Char) :=
  [('"', '"'), ('\\', '\\'), ('/', '/'), ('b', '\x08'), ('f', '\x0c'), ('n', '\n'), ('r', '\r'), ('t', '\t')]

/-- What spells a character inside a string. A half of a surrogate pair spells nothing without the other half. -/
inductive SpelledChar : Text → Char → Prop
  | plain {c : Char} (hc : ' ' ≤ c) (hquote : c ≠ '"') (hslash : c ≠ '\\') : SpelledChar [c] c
  | letter {e c : Char} (h : (e, c) ∈ escapes) : SpelledChar ['\\', e] c
  | codePoint {q : Text} {n : Nat} (hq : Quad q n) (hn : n < 0xD800 ∨ 0xDFFF < n) :
      SpelledChar ('\\' :: 'u' :: q) (Char.ofNat n)
  | surrogates {q r : Text} {lead trail : Nat} (hq : Quad q lead) (hlead : 0xD800 ≤ lead ∧ lead ≤ 0xDBFF)
      (hr : Quad r trail) (htrail : 0xDC00 ≤ trail ∧ trail ≤ 0xDFFF) :
      SpelledChar ('\\' :: 'u' :: (q ++ '\\' :: 'u' :: r))
        (Char.ofNat ((lead - 0xD800) * 1024 + (trail - 0xDC00) + 0x10000))

inductive SpelledText : Text → Text → Prop
  | nil : SpelledText [] []
  | cons {s u t : Text} {c : Char} (hc : SpelledChar s c) (h : SpelledText u t) : SpelledText (s ++ u) (c :: t)

/-! ## Escapes -/

theorem escapeOf?_eq_some_iff {e c : Char} : escapeOf? e = some c ↔ (e, c) ∈ escapes := by
  constructor
  · intro h
    unfold escapeOf? at h
    split_ifs at h with h1 h2 h3 h4 h5 h6
    all_goals cases h
    · rcases h1 with rfl | rfl | rfl <;> decide
    all_goals
      subst e
      decide
  · intro h
    simp only [escapes, List.mem_cons, Prod.mk.injEq, List.not_mem_nil, or_false] at h
    rcases h with ⟨rfl, rfl⟩ | ⟨rfl, rfl⟩ | ⟨rfl, rfl⟩ | ⟨rfl, rfl⟩ | ⟨rfl, rfl⟩ | ⟨rfl, rfl⟩ | ⟨rfl, rfl⟩ |
      ⟨rfl, rfl⟩ <;> rfl

instance (c : Char) (n : Nat) : Decidable (HexDigit c n) := inferInstanceAs (Decidable (_ ∧ _))

theorem hexValue?_eq_some_iff {c : Char} {n : Nat} : hexValue? c = some n ↔ HexDigit c n := by
  constructor
  · intro h
    have hsmall : ∀ m < 128, ∀ n ∈ hexValue? (Char.ofNat m), HexDigit (Char.ofNat m) n := by decide +kernel
    have hc : c.toNat < 128 := by
      have hle : ∀ {d : Char}, c ≤ d → d.toNat < 128 → c.toNat < 128 := fun hcd hd => Nat.lt_of_le_of_lt hcd hd
      unfold hexValue? at h
      split_ifs at h with hdigit hlower hupper
      · exact hle (Char.isDigit_iff_toNat.1 hdigit).2 (by decide)
      · exact hle hlower.2 (by decide)
      · exact hle hupper.2 (by decide)
    have hdigit := hsmall c.toNat hc n
    rw [Char.ofNat_toNat] at hdigit
    exact hdigit h
  · rintro ⟨hn, rfl | rfl⟩
    · exact hexValue?_digitChar hn
    · revert n
      decide

theorem hexQuad_eq_ok_iff {t u : Text} {n : Nat} : hexQuad t = .ok (n, u) ↔ ∃ q, Quad q n ∧ t = q ++ u := by
  constructor
  · intro h
    unfold hexQuad at h
    split at h
    · split at h
      · next ha hb hc hd =>
        cases h
        simp only [hexValue?_eq_some_iff] at ha hb hc hd
        exact ⟨_, .mk ha hb hc hd, rfl⟩
      · cases h
    · cases h
  · rintro ⟨q, ⟨ha, hb, hc, hd⟩, rfl⟩
    simp only [← hexValue?_eq_some_iff] at ha hb hc hd
    simp only [hexQuad, List.cons_append, List.nil_append, ha, hb, hc, hd]

theorem trailingSurrogate_eq_ok_iff {lead : Nat} {t u : Text} {c : Char} :
    trailingSurrogate lead t = .ok (c, u) ↔
      ∃ r trail, Quad r trail ∧ (0xDC00 ≤ trail ∧ trail ≤ 0xDFFF) ∧ t = '\\' :: 'u' :: (r ++ u) ∧
        c = Char.ofNat ((lead - 0xD800) * 1024 + (trail - 0xDC00) + 0x10000) := by
  constructor
  · intro h
    unfold trailingSurrogate at h
    split at h
    · cases h
    · cases h
    · split at h
      · cases h
      · next hquad =>
        split at h
        · next htrail =>
          obtain ⟨r, hr, rfl⟩ := hexQuad_eq_ok_iff.1 hquad
          rw [Except.ok.injEq, Prod.mk.injEq] at h
          exact ⟨r, _, hr, htrail, by rw [h.2], h.1.symm⟩
        · cases h
    · cases h
  · rintro ⟨r, trail, hr, htrail, ht, hc⟩
    simp only [ht, hc, trailingSurrogate, hexQuad_eq_ok_iff.2 ⟨r, hr, rfl⟩, if_pos htrail]

/-- **An escape is read** as the character that it spells with its backslash. -/
theorem escapeSequence_eq_ok_iff {t u : Text} {c : Char} :
    escapeSequence t = .ok (c, u) ↔ ∃ s, SpelledChar ('\\' :: s) c ∧ t = s ++ u := by
  constructor
  · intro h
    unfold escapeSequence at h
    split at h
    · cases h
    · unfold codePoint at h
      split at h
      · cases h
      · next n t' hquad =>
        obtain ⟨q, hq, rfl⟩ := hexQuad_eq_ok_iff.1 hquad
        split_ifs at h with htrail hlead
        · obtain ⟨r, trail, hr, htrail, ht, hc⟩ := trailingSurrogate_eq_ok_iff.1 h
          refine ⟨'u' :: (q ++ '\\' :: 'u' :: r), ?_, by simp [ht]⟩
          rw [hc]
          exact .surrogates hq hlead hr htrail
        · cases h
          exact ⟨_, .codePoint hq (by omega), rfl⟩
    · split at h
      · next hletter =>
        cases h
        exact ⟨_, .letter (escapeOf?_eq_some_iff.1 hletter), rfl⟩
      · cases h
  · rintro ⟨s, hs, rfl⟩
    cases hs with
    | plain hc hquote hslash => exact absurd rfl hslash
    | @letter e _ h =>
      have hne : e ≠ 'u' := by
        rintro rfl
        simp [escapes] at h
      simp only [List.cons_append, List.nil_append, escapeSequence, escapeOf?_eq_some_iff.2 h]
    | codePoint hq hn =>
      simp only [List.cons_append, escapeSequence, codePoint, hexQuad_eq_ok_iff.2 ⟨_, hq, rfl⟩]
      rw [if_neg (by omega), if_neg (by omega)]
    | surrogates hq hlead hr htrail =>
      simp only [List.cons_append, List.append_assoc, escapeSequence, codePoint,
        hexQuad_eq_ok_iff.2 ⟨_, hq, rfl⟩]
      rw [if_neg (by omega), if_pos hlead]
      exact trailingSurrogate_eq_ok_iff.2 ⟨_, _, hr, htrail, rfl, rfl⟩

/-! ## Strings -/

theorem SpelledChar.characters_append {s : Text} {c : Char} (h : SpelledChar s c) (fuel : Nat) (t : Text) :
    characters (fuel + 1) (s ++ t) = characters fuel t >>= fun r => .ok (c :: r.1, r.2) := by
  have hescape : ∀ {s : Text}, SpelledChar ('\\' :: s) c →
      characters (fuel + 1) ('\\' :: s ++ t) = characters fuel t >>= fun r => .ok (c :: r.1, r.2) := by
    intro s hs
    simp only [List.cons_append, characters, escapeSequence_eq_ok_iff.2 ⟨s, hs, rfl⟩]
    rfl
  cases h with
  | plain hc hquote hslash =>
    rw [List.singleton_append, characters_other fuel t hquote hslash, if_neg (not_lt.2 hc)]
  | letter h => exact hescape (.letter h)
  | codePoint hq hn => exact hescape (.codePoint hq hn)
  | surrogates hq hlead hr htrail => exact hescape (.surrogates hq hlead hr htrail)

theorem SpelledChar.ne_nil {s : Text} {c : Char} (h : SpelledChar s c) : s ≠ [] := by
  cases h <;> exact List.cons_ne_nil _ _

theorem SpelledText.characters_append {s t : Text} (h : SpelledText s t) {fuel : Nat} (hfuel : s.length < fuel)
    (rest : Text) : characters fuel (s ++ '"' :: rest) = .ok (t, rest) := by
  induction h generalizing fuel with
  | nil =>
    obtain ⟨fuel, rfl⟩ := Nat.exists_eq_succ_of_ne_zero (Nat.ne_of_gt hfuel)
    rfl
  | cons hc _ ih =>
    obtain ⟨fuel, rfl⟩ := Nat.exists_eq_succ_of_ne_zero (Nat.ne_of_gt (Nat.zero_lt_of_lt hfuel))
    have hpos := List.length_pos_iff.2 hc.ne_nil
    rw [List.length_append] at hfuel
    rw [List.append_assoc, hc.characters_append, ih (by omega)]
    rfl

theorem SpelledChar.spelledText {s t u rest : Text} {c : Char} {fuel : Nat} (hc : SpelledChar s c)
    (h : (characters fuel u >>= fun r => .ok (c :: r.1, r.2)) = .ok (t, rest))
    (hmore : ∀ {t}, characters fuel u = .ok (t, rest) → ∃ s, SpelledText s t ∧ u = s ++ '"' :: rest) :
    ∃ s', SpelledText s' t ∧ s ++ u = s' ++ '"' :: rest := by
  cases hread : characters fuel u with
  | error e =>
    rw [hread] at h
    cases h
  | ok r =>
    rw [hread] at h
    cases h
    obtain ⟨s', hs', rfl⟩ := hmore hread
    exact ⟨s ++ s', .cons hc hs', (List.append_assoc ..).symm⟩

/-- What is read of a string is spelled there. -/
theorem spelledText_of_characters {fuel : Nat} {t u rest : Text} (h : characters fuel u = .ok (t, rest)) :
    ∃ s, SpelledText s t ∧ u = s ++ '"' :: rest := by
  induction fuel generalizing t u with
  | zero => cases h
  | succ fuel ih =>
    cases u with
    | nil => cases h
    | cons c u =>
      by_cases hquote : c = '"'
      · subst hquote
        cases h
        exact ⟨[], .nil, rfl⟩
      · by_cases hslash : c = '\\'
        · subst hslash
          cases hescape : escapeSequence u with
          | error e =>
            simp only [characters, hescape] at h
            cases h
          | ok r =>
            obtain ⟨s, hs, hu⟩ := escapeSequence_eq_ok_iff.1 hescape
            simp only [characters, hescape] at h
            rw [hu]
            exact hs.spelledText h ih
        · rw [characters_other fuel u hquote hslash] at h
          split_ifs at h with hc
          exact (SpelledChar.plain (not_lt.1 hc) hquote hslash).spelledText h ih

theorem stringBody_eq_ok_iff {t u rest : Text} :
    stringBody u = .ok (t, rest) ↔ ∃ s, SpelledText s t ∧ u = s ++ '"' :: rest := by
  constructor
  · exact spelledText_of_characters
  · rintro ⟨s, hs, rfl⟩
    exact hs.characters_append (by simp) rest

end CanonicalText.Json
