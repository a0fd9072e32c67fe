import Mathlib
import CanonicalText.Json.Decode
import CanonicalText.Json.Value

/-!
# Numbers and strings as they are written

What is written of a number or a string is read back, whatever comes after it. A string ends with its quote.
A number ends where nothing can go on with it.

* `Blank` : gaps between the parts of a text;
* `EndsNumber` : what may come after a number;
* `unsignedNumber_decimal`, `number_written`, `word_decimal`, `integer_written` : numbers;
* `characters_written`, `stringBody_written`, `textual_written` : strings.
-/

namespace CanonicalText

theorem length_decimal_of_zero_first {n : Nat} {digits : Text} (h : decimal n = '0' :: digits) :
    digits = [] := by
  induction n using Nat.strong_induction_on generalizing digits with
  | _ n ih =>
    rcases Nat.lt_or_ge n 10 with hn | hn
    · rw [decimal, Nat.toDigits_of_lt_base hn] at h
      exact (List.cons.inj h).2.symm
    · rw [decimal, Nat.toDigits_of_base_le (by decide) hn] at h
      obtain ⟨c, ds, hcons⟩ := List.exists_cons_of_ne_nil (decimal_ne_nil (n / 10))
      have hquotient : Nat.toDigits 10 (n / 10) = c :: ds := hcons
      rw [hquotient, List.cons_append, List.cons.injEq] at h
      obtain ⟨rfl, -⟩ := h
      -- a quotient whose numeral is a zero is zero, and then the number has one digit
      have hds := ih (n / 10) (by omega) hcons
      rw [hds] at hcons
      have hzero : n / 10 = 0 := by
        rw [← ofDecimal_decimal (n / 10), hcons]
        rfl
      omega

namespace Json

/-! ## Numbers -/

/-- What may come after a number without going on with it. -/
def EndsNumber (rest : Text) : Prop :=
  ∀ c ∈ rest.head?, c.isDigit = false ∧ c ≠ '.' ∧ c ≠ 'e' ∧ c ≠ 'E'

theorem endsNumber_nil : EndsNumber [] := by
  intro c hc
  cases hc

theorem endsNumber_comma (t : Text) : EndsNumber (',' :: t) := by
  rintro c ⟨⟩
  decide

theorem endsNumber_bracket (t : Text) : EndsNumber (']' :: t) := by
  rintro c ⟨⟩
  decide

theorem endsNumber_brace (t : Text) : EndsNumber ('\x7d' :: t) := by
  rintro c ⟨⟩
  decide

theorem isBlank_of_isDigit {c : Char} (h : c.isDigit = true) : isBlank c = false := by
  rw [isBlank]
  by_contra hb
  simp only [Bool.not_eq_false, Bool.or_eq_true, beq_iff_eq] at hb
  rcases hb with ((rfl | rfl) | rfl) | rfl <;> exact absurd h (by decide)

theorem isBlank_of_number {c : Char} (h : c = '-' ∨ c.isDigit = true) : isBlank c = false := by
  rcases h with rfl | h
  · decide
  · exact isBlank_of_isDigit h

theorem skipBlank_of_not_isBlank {c : Char} (h : isBlank c = false) (t : Text) :
    skipBlank (c :: t) = c :: t := by
  rw [skipBlank, List.dropWhile_cons_of_neg (by simp [h])]

def Blank (gap : Text) : Prop := ∀ c ∈ gap, isBlank c = true

theorem blank_nil : Blank [] := by simp [Blank]

theorem Blank.append {gap tail : Text} (hgap : Blank gap) (htail : Blank tail) : Blank (gap ++ tail) := by
  intro c hc
  rcases List.mem_append.1 hc with hc | hc
  · exact hgap c hc
  · exact htail c hc

variable {gap rest : Text}

theorem skipBlank_append (h : Blank gap) (t : Text) : skipBlank (gap ++ t) = skipBlank t :=
  List.dropWhile_append_of_pos h

theorem EndsNumber.append (h : Blank gap) (hrest : EndsNumber rest) : EndsNumber (gap ++ rest) := by
  cases gap with
  | nil => exact hrest
  | cons b gap =>
    have hb := h b List.mem_cons_self
    rintro c ⟨⟩
    rw [isBlank] at hb
    simp only [Bool.or_eq_true, beq_iff_eq] at hb
    rcases hb with ((rfl | rfl) | rfl) | rfl <;> decide

theorem takeWhile_decimal (n : Nat) (hrest : EndsNumber rest) :
    (decimal n ++ rest).takeWhile Char.isDigit = decimal n ∧
      (decimal n ++ rest).dropWhile Char.isDigit = rest := by
  have hdigits : ∀ c ∈ decimal n, c.isDigit = true := fun c hc => isDigit_of_mem_decimal hc
  rw [List.takeWhile_append_of_pos hdigits, List.dropWhile_append_of_pos hdigits]
  cases rest with
  | nil => simp
  | cons c t =>
    have hc := (hrest c rfl).1
    simp [hc]

/-- **The numeral of a number** is read as it. -/
theorem unsignedNumber_decimal {negative : Bool} {n : Nat} {x : Number}
    (hx : integer? negative n = some x) (hrest : EndsNumber rest) :
    unsignedNumber negative (decimal n ++ rest) = .ok (x, rest) := by
  obtain ⟨htake, hdrop⟩ := takeWhile_decimal n hrest
  obtain ⟨c, digits, hcons⟩ := List.exists_cons_of_ne_nil (decimal_ne_nil n)
  have hvalid : ¬ (decimal n = [] ∨ c = '0' ∧ 1 < (decimal n).length) := by
    rintro (hnil | ⟨rfl, hlength⟩)
    · exact decimal_ne_nil n hnil
    · rw [hcons, length_decimal_of_zero_first hcons] at hlength
      exact absurd hlength (by decide)
  have hhead : decimal n ++ rest = c :: (digits ++ rest) := by
    rw [hcons, List.cons_append]
  unfold unsignedNumber
  rw [htake, hdrop, hhead]
  simp only [if_neg hvalid, ofDecimal_decimal, hx]
  cases rest with
  | nil => rfl
  | cons e t =>
    obtain ⟨-, hpoint, he, hE⟩ := hrest e rfl
    split
    · next heq => exact absurd (List.cons.inj heq).1 hpoint
    · next heq =>
      obtain ⟨rfl, rfl⟩ := List.cons.inj heq
      simp only [he, hE, or_self, if_false]
    · next heq => cases heq

theorem number_decimal {n : Nat} {x : Number} (hx : integer? false n = some x) (hrest : EndsNumber rest) :
    number (decimal n ++ rest) = .ok (x, rest) := by
  rw [← unsignedNumber_decimal hx hrest]
  unfold number
  split
  · next t heq =>
    obtain ⟨c, digits, hcons⟩ := List.exists_cons_of_ne_nil (decimal_ne_nil n)
    rw [hcons, List.cons_append, List.cons.injEq] at heq
    have hdigit : '-'.isDigit = true := isDigit_of_mem_decimal (n := n) (by
      rw [hcons, heq.1]
      exact List.mem_cons_self)
    exact absurd hdigit (by decide)
  · rfl

theorem numeric_of_number {α : Type} {expected : Expected} {ofNumber : Number → Except Mismatch α}
    {c : Char} {t : Text} {n : Number} {x : α} (hc : c = '-' ∨ c.isDigit = true)
    (hnumber : number (c :: t) = .ok (n, rest)) (hx : ofNumber n = .ok x) :
    numeric expected ofNumber (c :: t) = .ok (x, rest) := by
  unfold numeric
  simp only [skipBlank_of_not_isBlank (isBlank_of_number hc), if_pos hc, hnumber, hx]

/-- Numbers that are integers of 64 bits. No negative number stands for a natural one. -/
def Number.IsWhole : Number → Prop
  | natural _ => True
  | negative n => n < 0
  | floating _ => False

section Whole

variable {n : Number}

theorem Number.IsWhole.written_eq_cons (h : n.IsWhole) :
    ∃ c t, n.written = c :: t ∧ (c = '-' ∨ c.isDigit = true) := by
  cases n with
  | natural n =>
    obtain ⟨c, digits, hcons⟩ := List.exists_cons_of_ne_nil (decimal_ne_nil n.toNat)
    exact ⟨c, digits, hcons, .inr (isDigit_of_mem_decimal (hcons ▸ List.mem_cons_self))⟩
  | negative n =>
    have hlt : n.toInt < 0 := Int64.lt_iff_toInt_lt.1 h
    exact ⟨'-', decimal n.toInt.natAbs, by rw [written, signedDecimal, if_pos hlt], .inl rfl⟩
  | floating x => exact h.elim

/-- **What is written of an integer** is read as it. -/
theorem number_written (h : n.IsWhole) (hrest : EndsNumber rest) : number (n.written ++ rest) = .ok (n, rest) := by
  cases n with
  | natural n =>
    have hx : integer? false n.toNat = some (.natural n) := by
      simp [integer?, n.toNat_lt_size]
    exact number_decimal hx hrest
  | negative n =>
    have hlt : n.toInt < 0 := Int64.lt_iff_toInt_lt.1 h
    have habs : -(n.toInt.natAbs : Int) = n.toInt := by omega
    have hx : integer? true n.toInt.natAbs = some (.negative n) := by
      rw [integer?, if_pos rfl, habs, if_pos ⟨by omega, n.minValue_le_toInt⟩, Int64.ofInt_toInt n]
    rw [Number.written, signedDecimal, if_pos hlt, List.cons_append]
    exact unsignedNumber_decimal hx hrest
  | floating x => exact h.elim

theorem numeric_written {α : Type} {expected : Expected} {ofNumber : Number → Except Mismatch α} {x : α}
    (h : n.IsWhole) (hx : ofNumber n = .ok x) (hrest : EndsNumber rest) :
    numeric expected ofNumber (n.written ++ rest) = .ok (x, rest) := by
  have hnumber := number_written h hrest
  obtain ⟨c, t, hcons, hc⟩ := h.written_eq_cons
  rw [hcons, List.cons_append] at hnumber ⊢
  exact numeric_of_number hc hnumber hx

end Whole

theorem word_decimal (n : UInt64) (hrest : EndsNumber rest) :
    word (decimal n.toNat ++ rest) = .ok (n, rest) :=
  numeric_written (n := .natural n) trivial rfl hrest

def Number.ofInteger (n : Int64) : Number :=
  if n < 0 then .negative n else .natural (UInt64.ofNat n.toInt.toNat)

theorem Number.isWhole_ofInteger (n : Int64) : (Number.ofInteger n).IsWhole := by
  unfold ofInteger
  split
  · next hneg => exact hneg
  · trivial

theorem integer_written (n : Int64) (hrest : EndsNumber rest) :
    integer ((Number.ofInteger n).written ++ rest) = .ok (n, rest) := by
  have hmax : n.toInt ≤ Int64.maxValue.toInt := n.toInt_le
  refine numeric_written (Number.isWhole_ofInteger n) ?_ hrest
  by_cases hneg : n < 0
  · rw [Number.ofInteger, if_pos hneg]
  · rw [Number.ofInteger, if_neg hneg]
    have hle : 0 ≤ n.toInt := by
      have := mt Int64.lt_iff_toInt_lt.2 hneg
      exact Int.not_lt.1 this
    have hword : (UInt64.ofNat n.toInt.toNat).toNat = n.toInt.toNat :=
      UInt64.toNat_ofNat_of_lt' (by
        have : Int64.maxValue.toInt = 2 ^ 63 - 1 := rfl
        simp only [UInt64.size]
        omega)
    simp only [hword, Int.toNat_of_nonneg hle, if_pos hmax, Int64.ofInt_toInt]

/-! ## Strings -/

theorem zeroPadded_hexadecimal {n : Nat} (hn : n < 32) :
    zeroPadded 4 (hexadecimal n) = ['0', '0', Nat.digitChar (n / 16), Nat.digitChar (n % 16)] := by
  revert n
  decide

theorem hexValue?_digitChar {d : Nat} (hd : d < 16) : hexValue? (Nat.digitChar d) = some d := by
  revert d
  decide

theorem codePoint_control {n : Nat} (hn : n < 32) (t : Text) :
    codePoint (zeroPadded 4 (hexadecimal n) ++ t) = .ok (Char.ofNat n, t) := by
  have hquad : hexQuad (zeroPadded 4 (hexadecimal n) ++ t) = .ok (n, t) := by
    have hzero : hexValue? '0' = some 0 := rfl
    rw [zeroPadded_hexadecimal hn]
    simp only [List.cons_append, List.nil_append, hexQuad, hzero, hexValue?_digitChar (d := n / 16) (by omega),
      hexValue?_digitChar (d := n % 16) (by omega)]
    congr 2
    omega
  rw [codePoint, hquad]
  simp only
  rw [if_neg (by omega), if_neg (by omega)]

/-- **A character is read** as it is written inside a string. -/
theorem characters_writtenChar (fuel : Nat) (c : Char) (t : Text) :
    characters (fuel + 1) (writtenChar c ++ t) = (characters fuel t).map fun r => (c :: r.1, r.2) := by
  have hescape : ∀ {e : Char} {u : Text}, escapeSequence (e :: (u ++ t)) = .ok (c, t) →
      characters (fuel + 1) ('\\' :: e :: u ++ t) = (characters fuel t).map fun r => (c :: r.1, r.2) := by
    intro e u hsequence
    simp only [List.cons_append, characters, hsequence]
    show (characters fuel t >>= fun r => pure (c :: r.1, r.2)) = _
    cases characters fuel t <;> rfl
  unfold writtenChar
  split_ifs with h1 h2 h3 h4 h5 h6 h7 h8
  · exact hescape (by rw [h1]; rfl)
  · exact hescape (by rw [h2]; rfl)
  · exact hescape (by rw [h3]; rfl)
  · exact hescape (by rw [h4]; rfl)
  · exact hescape (by rw [h5]; rfl)
  · exact hescape (by rw [h6]; rfl)
  · exact hescape (by rw [h7]; rfl)
  · have hpoint := codePoint_control (n := c.toNat) h8 t
    rw [Char.ofNat_toNat] at hpoint
    exact hescape hpoint
  · rw [List.singleton_append, characters, if_neg h8]
    · show (characters fuel t >>= fun r => pure (c :: r.1, r.2)) = _
      cases characters fuel t <;> rfl
    · exact h1
    · exact h2

theorem characters_written {fuel : Nat} (t rest : Text) (hfuel : t.length < fuel) :
    characters fuel (t.flatMap writtenChar ++ '"' :: rest) = .ok (t, rest) := by
  induction t generalizing fuel with
  | nil =>
    obtain ⟨fuel, rfl⟩ := Nat.exists_eq_succ_of_ne_zero (Nat.ne_of_gt hfuel)
    rfl
  | cons c t ih =>
    obtain ⟨fuel, rfl⟩ := Nat.exists_eq_succ_of_ne_zero (Nat.ne_of_gt (Nat.zero_lt_of_lt hfuel))
    rw [List.flatMap_cons, List.append_assoc, characters_writtenChar, ih (Nat.lt_of_succ_lt_succ hfuel)]
    rfl

theorem length_le_written (t : Text) : t.length ≤ (t.flatMap writtenChar).length := by
  have hpos : ∀ c, 1 ≤ (writtenChar c).length := by
    intro c
    unfold writtenChar
    split_ifs <;> simp
  induction t with
  | nil => exact Nat.le_refl 0
  | cons c t ih =>
    have := hpos c
    rw [List.flatMap_cons, List.length_append, List.length_cons]
    omega

/-- **What is written of a text** is read up to its closing quote. -/
theorem stringBody_written (t rest : Text) :
    stringBody (t.flatMap writtenChar ++ '"' :: rest) = .ok (t, rest) := by
  refine characters_written t rest ?_
  have := length_le_written t
  rw [List.length_append]
  omega

theorem textual_written {α : Type} {expected : Expected} {ofText : Text → Except Mismatch α} {t : Text} {x : α}
    (hx : ofText t = .ok x) (rest : Text) :
    textual expected ofText (writtenText t ++ rest) = .ok (x, rest) := by
  have hwritten : writtenText t ++ rest = '"' :: (t.flatMap writtenChar ++ '"' :: rest) := by
    simp [writtenText]
  rw [hwritten, textual, skipBlank_of_not_isBlank (by decide)]
  simp only [stringBody_written, hx]

end Json

end CanonicalText
