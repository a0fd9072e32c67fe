import Mathlib
import CanonicalText.Json.Value
import CanonicalText.Proofs.Json.Spelling

/-!
# The grammar of JSON texts

A JSON text is a row of tokens with blanks around them, and the tokens are those of one value. The value can be told
from its tokens, and the tokens from the text, whatever blanks there are.

* `Token`, `Token.Spelled` : tokens, and what spells them;
* `Begins`, `Spaced` : texts that begin with tokens, and texts that hold nothing else;
* `SyntaxTree`, `SyntaxTree.tokens` : values of all kinds, and their tokens;
* `Spaced.eq` : the tokens of a text, if no numeral is among them;
* `SyntaxTree.tokens_inj` : the value of tokens.
-/

namespace CanonicalText.Json

/-! ## Tokens -/

def IsDigits (t : Text) : Prop := t ≠ [] ∧ ∀ c ∈ t, c.isDigit = true

/-- A numeral: a whole number without needless zeros, which may have a minus sign, a fraction and an exponent. -/
def IsNumeral (t : Text) : Prop :=
  ∃ whole fraction exponent : Text,
    (t = whole ++ (fraction ++ exponent) ∨ t = '-' :: (whole ++ (fraction ++ exponent))) ∧
    IsDigits whole ∧ (whole.head? = some '0' → whole = ['0']) ∧
    (fraction = [] ∨ ∃ digits, fraction = '.' :: digits ∧ IsDigits digits) ∧
    (exponent = [] ∨ ∃ e sign digits, exponent = e :: (sign ++ digits) ∧ (e = 'e' ∨ e = 'E') ∧
      (sign = [] ∨ sign = ['+'] ∨ sign = ['-']) ∧ IsDigits digits)

def marks : List Char := ['[', ']', '\x7b', '\x7d', ':', ',']

/-- A token of a JSON text. A string is told by the text that it stands for. -/
inductive Token where
  | mark (c : Char)
  | null
  | boolean (b : Bool)
  | numeral (digits : Text)
  | text (t : Text)

/-- What spells a token. Strings can be spelled in many ways. -/
inductive Token.Spelled : Token → Text → Prop
  | mark {c : Char} (h : c ∈ marks) : Spelled (mark c) [c]
  | null : Spelled null "null".toList
  | boolean (b : Bool) : Spelled (boolean b) (Value.writtenBoolean b)
  | numeral {digits : Text} (h : IsNumeral digits) : Spelled (numeral digits) digits
  | text {s t : Text} (h : SpelledText s t) : Spelled (text t) ('"' :: (s ++ ['"']))

/-- A text that begins with tokens, with blanks before each of them or without, and goes on with the rest. -/
inductive Begins : Text → List Token → Text → Prop
  | nil (t : Text) : Begins t [] t
  | cons {gap s t rest : Text} {k : Token} {ts : List Token} (hgap : Blank gap) (hk : k.Spelled s)
      (h : Begins t ts rest) : Begins (gap ++ (s ++ t)) (k :: ts) rest

/-- A text of tokens and blanks. -/
def Spaced (ts : List Token) (t : Text) : Prop := ∃ tail, Blank tail ∧ Begins t ts tail

/-! ## Values -/

/-- A JSON value of any kind. Numbers are told by their numerals. -/
inductive SyntaxTree where
  | null
  | boolean (b : Bool)
  | numeral (digits : Text)
  | text (t : Text)
  | array (items : List SyntaxTree)
  | object (members : List (Text × SyntaxTree))

/-- Parts with commas between them. -/
def listed : List (List Token) → List Token
  | [] => []
  | part :: parts => part ++ parts.flatMap (.mark ',' :: ·)

namespace SyntaxTree

mutual

def tokens : SyntaxTree → List Token
  | null => [.null]
  | boolean b => [.boolean b]
  | numeral digits => [.numeral digits]
  | text t => [.text t]
  | array items => .mark '[' :: (listed (itemTokens items) ++ [.mark ']'])
  | object members => .mark '\x7b' :: (listed (memberTokens members) ++ [.mark '\x7d'])

def itemTokens : List SyntaxTree → List (List Token)
  | [] => []
  | item :: items => item.tokens :: itemTokens items

def memberTokens : List (Text × SyntaxTree) → List (List Token)
  | [] => []
  | (name, value) :: members => (.text name :: .mark ':' :: value.tokens) :: memberTokens members

end

def ofMember (m : Text × SyntaxTree) : List Token := .text m.1 :: .mark ':' :: m.2.tokens

theorem itemTokens_eq_map (items : List SyntaxTree) : itemTokens items = items.map tokens := by
  induction items with
  | nil => rfl
  | cons item items ih => rw [itemTokens, ih, List.map_cons]

theorem memberTokens_eq_map (members : List (Text × SyntaxTree)) : memberTokens members = members.map ofMember := by
  induction members with
  | nil => rfl
  | cons m members ih => rw [memberTokens, ih, List.map_cons, ofMember]

theorem tokens_array (items : List SyntaxTree) :
    (array items).tokens = .mark '[' :: (listed (items.map tokens) ++ [.mark ']']) := by
  rw [tokens, itemTokens_eq_map]

theorem tokens_object (members : List (Text × SyntaxTree)) :
    (object members).tokens = .mark '\x7b' :: (listed (members.map ofMember) ++ [.mark '\x7d']) := by
  rw [tokens, memberTokens_eq_map]

end SyntaxTree

/-! ## Texts and their tokens -/

section Texts

variable {k k' : Token} {ts us : List Token} {s s' t u rest : Text}

theorem IsNumeral.eq_cons (h : IsNumeral s) : ∃ c u, s = c :: u ∧ (c = '-' ∨ c.isDigit = true) := by
  obtain ⟨whole, fraction, exponent, hs, ⟨hne, hdigits⟩, -⟩ := h
  obtain ⟨c, digits, rfl⟩ := List.exists_cons_of_ne_nil hne
  rcases hs with rfl | rfl
  · exact ⟨c, _, rfl, .inr (hdigits c List.mem_cons_self)⟩
  · exact ⟨'-', _, rfl, .inl rfl⟩

/-- What kind of token it is. Numerals are of one kind, and strings are. -/
def Token.kind : Token → Token
  | numeral _ => numeral []
  | text _ => text []
  | k => k

def kindOf (c : Char) : Token :=
  if c ∈ marks then .mark c
  else if c = 'n' then .null
  else if c = 't' then .boolean true
  else if c = 'f' then .boolean false
  else if c = '"' then .text []
  else .numeral []

theorem kindOf_of_number {c : Char} (h : c = '-' ∨ c.isDigit = true) : kindOf c = .numeral [] := by
  have hother : ∀ d : Char, d ≠ '-' → d.isDigit = false → c ≠ d := by
    rintro d hminus hdigit rfl
    simp [hminus, hdigit] at h
  have hmarks : c ∉ marks := by
    intro hc
    simp only [marks, List.mem_cons, List.not_mem_nil, or_false] at hc
    rcases hc with rfl | rfl | rfl | rfl | rfl | rfl <;> exact hother _ (by decide) (by decide) rfl
  unfold kindOf
  rw [if_neg hmarks, if_neg (hother 'n' (by decide) (by decide)), if_neg (hother 't' (by decide) (by decide)),
    if_neg (hother 'f' (by decide) (by decide)), if_neg (hother '"' (by decide) (by decide))]

theorem Token.Spelled.eq_cons (h : k.Spelled s) :
    ∃ c u, s = c :: u ∧ isBlank c = false ∧ kindOf c = k.kind := by
  cases h with
  | @mark c h =>
    have hblank : isBlank c = false := by
      simp only [marks, List.mem_cons, List.not_mem_nil, or_false] at h
      rcases h with rfl | rfl | rfl | rfl | rfl | rfl <;> decide
    exact ⟨c, [], rfl, hblank, if_pos h⟩
  | null => exact ⟨'n', _, rfl, by decide, rfl⟩
  | boolean b => cases b <;> exact ⟨_, _, rfl, by decide, rfl⟩
  | numeral h =>
    obtain ⟨c, u, hs, hc⟩ := h.eq_cons
    exact ⟨c, u, hs, isBlank_of_number hc, kindOf_of_number hc⟩
  | text h => exact ⟨'"', _, rfl, by decide, rfl⟩

theorem begins_nil_iff : Begins t [] rest ↔ t = rest := by
  constructor
  · rintro ⟨⟩
    rfl
  · rintro rfl
    exact .nil t

theorem begins_cons_iff :
    Begins t (k :: ts) rest ↔ ∃ s u, k.Spelled s ∧ skipBlank t = s ++ u ∧ Begins u ts rest := by
  constructor
  · rintro (_ | ⟨hgap, hk, h⟩)
    obtain ⟨c, u, rfl, hc, -⟩ := hk.eq_cons
    exact ⟨_, _, hk, by rw [skipBlank_append hgap, List.cons_append, skipBlank_of_not_isBlank hc], h⟩
  · rintro ⟨s, u, hk, hskip, h⟩
    have hgap : Blank (t.takeWhile isBlank) := fun c hc => List.mem_takeWhile_imp hc
    have ht : t = t.takeWhile isBlank ++ (s ++ u) := by
      rw [← hskip]
      exact List.takeWhile_append_dropWhile.symm
    rw [ht]
    exact .cons hgap hk h

theorem begins_append_iff : Begins t (ts ++ us) rest ↔ ∃ u, Begins t ts u ∧ Begins u us rest := by
  induction ts generalizing t with
  | nil => simp only [List.nil_append, begins_nil_iff, exists_eq_left']
  | cons k ts ih =>
    simp only [List.cons_append, begins_cons_iff, ih]
    constructor
    · rintro ⟨s, v, hk, hskip, u, hts, hus⟩
      exact ⟨u, ⟨s, v, hk, hskip, hts⟩, hus⟩
    · rintro ⟨u, ⟨s, v, hk, hskip, hts⟩, hus⟩
      exact ⟨s, v, hk, hskip, u, hts, hus⟩

theorem begins_skipBlank_iff : Begins (skipBlank t) (k :: ts) rest ↔ Begins t (k :: ts) rest := by
  have hskip : skipBlank (skipBlank t) = skipBlank t := List.dropWhile_idempotent _ t
  rw [begins_cons_iff, begins_cons_iff, hskip]

theorem begins_iff_of_spelled_iff (hk : ∀ u, k.Spelled u ↔ u = s) :
    Begins t (k :: ts) rest ↔ ∃ u, skipBlank t = s ++ u ∧ Begins u ts rest := by
  simp only [begins_cons_iff, hk, exists_eq_left, exists_and_left]

theorem begins_mark_iff {c : Char} (hc : c ∈ marks) :
    Begins t (.mark c :: ts) rest ↔ ∃ u, skipBlank t = c :: u ∧ Begins u ts rest := by
  refine begins_iff_of_spelled_iff (s := [c]) fun u => ⟨?_, ?_⟩
  · rintro ⟨⟩
    rfl
  · rintro rfl
    exact .mark hc

theorem begins_null_iff :
    Begins t (.null :: ts) rest ↔ ∃ u, skipBlank t = "null".toList ++ u ∧ Begins u ts rest := by
  refine begins_iff_of_spelled_iff fun u => ⟨?_, ?_⟩
  · rintro ⟨⟩
    rfl
  · rintro rfl
    exact .null

theorem begins_boolean_iff {b : Bool} :
    Begins t (.boolean b :: ts) rest ↔ ∃ u, skipBlank t = Value.writtenBoolean b ++ u ∧ Begins u ts rest := by
  refine begins_iff_of_spelled_iff fun u => ⟨?_, ?_⟩
  · rintro ⟨⟩
    rfl
  · rintro rfl
    exact .boolean b

theorem begins_text_iff {name : Text} :
    Begins t (.text name :: ts) rest ↔
      ∃ u v, skipBlank t = '"' :: u ∧ stringBody u = .ok (name, v) ∧ Begins v ts rest := by
  simp only [begins_cons_iff, stringBody_eq_ok_iff]
  constructor
  · rintro ⟨_, v, hk, hskip, h⟩
    cases hk with
    | @text s _ hs => exact ⟨s ++ '"' :: v, v, by simp [hskip], ⟨s, hs, rfl⟩, h⟩
  · rintro ⟨_, v, hskip, ⟨s, hs, rfl⟩, h⟩
    exact ⟨_, v, .text hs, by simp [hskip], h⟩

/-! ## Checking for tokens -/

/-- What comes after a token that a text begins with. Numerals are not looked for. -/
def Token.after? (t : Text) : Token → Option Text
  | mark c => if c ∈ marks then (skipBlank t).dropPrefix? [c] else none
  | null => (skipBlank t).dropPrefix? "null".toList
  | boolean b => (skipBlank t).dropPrefix? (Value.writtenBoolean b)
  | numeral _ => none
  | text name =>
    ((skipBlank t).dropPrefix? ['"']).bind fun u =>
      match stringBody u with
      | .ok (read, rest) => if read = name then some rest else none
      | .error _ => none

/-- Whether a text is seen to be made of tokens and blanks. -/
def isSpaced (ts : List Token) (t : Text) : Bool :=
  (ts.foldlM Token.after? t).any fun tail => tail.all isBlank

theorem eq_append_of_dropPrefix? (h : t.dropPrefix? s = some u) : t = s ++ u := by
  obtain ⟨p, rfl, hp⟩ := List.dropPrefix?_eq_some_iff.1 h
  rw [beq_iff_eq.1 hp]

theorem begins_of_after? (h : k.after? t = some u) (hu : Begins u ts rest) : Begins t (k :: ts) rest := by
  cases k with
  | mark c =>
    obtain ⟨hc, h⟩ := Option.ite_none_right_eq_some.1 h
    exact (begins_mark_iff hc).2 ⟨u, eq_append_of_dropPrefix? h, hu⟩
  | null => exact begins_null_iff.2 ⟨u, eq_append_of_dropPrefix? h, hu⟩
  | boolean b => exact begins_boolean_iff.2 ⟨u, eq_append_of_dropPrefix? h, hu⟩
  | numeral digits => cases h
  | text name =>
    obtain ⟨v, hv, h⟩ := Option.bind_eq_some_iff.1 h
    split at h
    · next read w hread =>
      obtain ⟨rfl, hw⟩ := Option.ite_none_right_eq_some.1 h
      obtain rfl := Option.some.inj hw
      exact begins_text_iff.2 ⟨v, w, eq_append_of_dropPrefix? hv, hread, hu⟩
    · cases h

theorem spaced_of_isSpaced (h : isSpaced ts t = true) : Spaced ts t := by
  obtain ⟨tail, hfold, htail⟩ := (Option.any_eq_true _ _).1 h
  refine ⟨tail, List.all_eq_true.1 htail, ?_⟩
  clear h
  induction ts generalizing t with
  | nil =>
    cases hfold
    exact .nil _
  | cons k ts ih =>
    obtain ⟨u, hu, hfold⟩ := Option.bind_eq_some_iff.1 hfold
    exact begins_of_after? hu (ih hfold)

/-! ## The tokens of a text -/

/-- Tokens without numerals. They can be told from each other where one text ends and another one begins. -/
def NumeralFree (ts : List Token) : Prop := ∀ k ∈ ts, ∀ digits, k ≠ .numeral digits

@[simp] theorem numeralFree_nil : NumeralFree [] := by
  simp [NumeralFree]

@[simp] theorem numeralFree_cons_iff :
    NumeralFree (k :: ts) ↔ (∀ digits, k ≠ .numeral digits) ∧ NumeralFree ts :=
  List.forall_mem_cons

@[simp] theorem numeralFree_append_iff : NumeralFree (ts ++ us) ↔ NumeralFree ts ∧ NumeralFree us :=
  List.forall_mem_append

@[simp] theorem numeralFree_listed_iff {parts : List (List Token)} :
    NumeralFree (listed parts) ↔ ∀ part ∈ parts, NumeralFree part := by
  have hmore : ∀ parts : List (List Token),
      NumeralFree (parts.flatMap (.mark ',' :: ·)) ↔ ∀ part ∈ parts, NumeralFree part := by
    intro parts
    induction parts with
    | nil => simp
    | cons part parts ih => simp [ih]
  cases parts with
  | nil => simp [listed]
  | cons part parts => simp [listed, hmore]

theorem numeralFree_array_iff {items : List SyntaxTree} :
    NumeralFree (SyntaxTree.array items).tokens ↔ ∀ v ∈ items, NumeralFree v.tokens := by
  simp [SyntaxTree.tokens_array]

theorem numeralFree_object_iff {members : List (Text × SyntaxTree)} :
    NumeralFree (SyntaxTree.object members).tokens ↔ ∀ m ∈ members, NumeralFree m.2.tokens := by
  have hmember : ∀ m, NumeralFree (SyntaxTree.ofMember m) ↔ NumeralFree m.2.tokens := by
    simp [SyntaxTree.ofMember]
  simp only [SyntaxTree.tokens_object, numeralFree_cons_iff, numeralFree_append_iff, numeralFree_listed_iff,
    List.forall_mem_map, hmember]
  simp

theorem Token.Spelled.append_inj (h : k.Spelled s) (h' : k'.Spelled s') (hk : ∀ digits, k ≠ .numeral digits)
    (heq : s ++ t = s' ++ u) : k = k' ∧ t = u := by
  have hkind : k.kind = k'.kind := by
    obtain ⟨c, v, rfl, -, hc⟩ := h.eq_cons
    obtain ⟨d, w, rfl, -, hd⟩ := h'.eq_cons
    rw [← hc, ← hd, (List.cons.inj heq).1]
  cases h with
  | mark =>
    cases h' <;> cases hkind
    exact ⟨rfl, (List.cons.inj heq).2⟩
  | null =>
    cases h' <;> cases hkind
    exact ⟨rfl, List.append_cancel_left heq⟩
  | boolean b =>
    cases h' <;> cases hkind
    exact ⟨rfl, List.append_cancel_left heq⟩
  | numeral => exact absurd rfl (hk _)
  | @text s name hs =>
    cases h' with
    | @text s' name' hs' =>
      -- both are what is read after the first quote
      have hread : stringBody (s ++ '"' :: t) = .ok (name, t) := stringBody_eq_ok_iff.2 ⟨s, hs, rfl⟩
      have hread' : stringBody (s' ++ '"' :: u) = .ok (name', u) := stringBody_eq_ok_iff.2 ⟨s', hs', rfl⟩
      have heq : s ++ '"' :: t = s' ++ '"' :: u := by simpa using heq
      rw [heq, hread'] at hread
      cases hread
      exact ⟨rfl, rfl⟩
    | _ => cases hkind

/-- **A text tells its tokens**, if there are no numerals among them. -/
theorem Spaced.eq (hfree : NumeralFree ts) (h : Spaced ts t) (h' : Spaced us t) : ts = us := by
  obtain ⟨tail, htail, h⟩ := h
  obtain ⟨tail', htail', h'⟩ := h'
  have hblank : ∀ {tail : Text} {k : Token} {ts : List Token} {rest : Text}, Blank tail →
      ¬ Begins tail (k :: ts) rest := by
    intro tail k ts rest htail hbegins
    obtain ⟨s, u, hk, hskip, -⟩ := begins_cons_iff.1 hbegins
    obtain ⟨c, v, rfl, -⟩ := hk.eq_cons
    rw [skipBlank, List.dropWhile_eq_nil_iff.2 htail] at hskip
    cases hskip
  induction ts generalizing t us with
  | nil =>
    cases us with
    | nil => rfl
    | cons k us =>
      rw [begins_nil_iff] at h
      exact absurd (h ▸ h') (hblank htail)
  | cons k ts ih =>
    cases us with
    | nil =>
      rw [begins_nil_iff] at h'
      exact absurd (h' ▸ h) (hblank htail')
    | cons k' us =>
      obtain ⟨s, u, hk, hskip, h⟩ := begins_cons_iff.1 h
      obtain ⟨s', u', hk', hskip', h'⟩ := begins_cons_iff.1 h'
      obtain ⟨rfl, rfl⟩ := hk.append_inj hk' (hfree k List.mem_cons_self) (hskip.symm.trans hskip')
      rw [ih (fun k hk => hfree k (List.mem_cons_of_mem _ hk)) h h']

end Texts

/-! ## The value of tokens -/

namespace SyntaxTree

variable {α : Type} {part : α → List Token} {last : Char}

/-- Parts that can be told from the tokens that begin with theirs. -/
def Told (part : α → List Token) (x : α) : Prop :=
  ∀ y rest rest', part x ++ rest = part y ++ rest' → x = y ∧ rest = rest'

theorem flatMap_comma_inj {xs ys : List α} {rest rest' : List Token} (hlast : last ≠ ',')
    (hpart : ∀ x ∈ xs, Told part x)
    (h : xs.flatMap (fun x => .mark ',' :: part x) ++ .mark last :: rest =
      ys.flatMap (fun y => .mark ',' :: part y) ++ .mark last :: rest') : xs = ys ∧ rest = rest' := by
  induction xs generalizing ys with
  | nil =>
    cases ys with
    | nil => exact ⟨rfl, (List.cons.inj h).2⟩
    | cons y ys =>
      cases h
      exact absurd rfl hlast
  | cons x xs ih =>
    cases ys with
    | nil =>
      cases h
      exact absurd rfl hlast
    | cons y ys =>
      simp only [List.flatMap_cons, List.cons_append, List.append_assoc, List.cons.injEq, true_and] at h
      obtain ⟨rfl, hmore⟩ := hpart x List.mem_cons_self y _ _ h
      obtain ⟨rfl, hrest⟩ := ih (fun x hx => hpart x (List.mem_cons_of_mem _ hx)) hmore
      exact ⟨rfl, hrest⟩

/-- Parts with commas between them, up to a mark that no part begins with. -/
theorem listed_inj {xs ys : List α} {rest rest' : List Token} (hlast : last ≠ ',')
    (hopen : ∀ x rest rest', part x ++ rest ≠ .mark last :: rest') (hpart : ∀ x ∈ xs, Told part x)
    (h : listed (xs.map part) ++ .mark last :: rest = listed (ys.map part) ++ .mark last :: rest') :
    xs = ys ∧ rest = rest' := by
  cases xs with
  | nil =>
    cases ys with
    | nil => exact ⟨rfl, (List.cons.inj h).2⟩
    | cons y ys =>
      simp only [List.map_cons, listed, List.append_assoc] at h
      exact absurd h.symm (hopen y _ _)
  | cons x xs =>
    cases ys with
    | nil =>
      simp only [List.map_cons, listed, List.append_assoc] at h
      exact absurd h (hopen x _ _)
    | cons y ys =>
      simp only [List.map_cons, listed, List.append_assoc, List.flatMap_map] at h
      obtain ⟨rfl, hmore⟩ := hpart x List.mem_cons_self y _ _ h
      obtain ⟨rfl, hrest⟩ := flatMap_comma_inj hlast (fun x hx => hpart x (List.mem_cons_of_mem _ hx)) hmore
      exact ⟨rfl, hrest⟩

theorem tokens_append_ne (v : SyntaxTree) (rest rest' : List Token) : v.tokens ++ rest ≠ .mark ']' :: rest' := by
  cases v <;> simp [tokens]

theorem ofMember_append_ne (m : Text × SyntaxTree) (rest rest' : List Token) :
    ofMember m ++ rest ≠ .mark '\x7d' :: rest' := by
  simp [ofMember]

theorem told_ofMember {m : Text × SyntaxTree} (h : Told tokens m.2) : Told ofMember m := by
  rintro ⟨name, v⟩ rest rest' heq
  simp only [ofMember, List.cons_append, List.cons.injEq, Token.text.injEq, true_and] at heq
  obtain ⟨hname, heq⟩ := heq
  obtain ⟨hvalue, hrest⟩ := h v _ _ heq
  exact ⟨Prod.ext hname hvalue, hrest⟩

theorem sizeOf_item_lt {v : SyntaxTree} {items : List SyntaxTree} (h : v ∈ items) :
    sizeOf v < sizeOf (array items) := by
  have hv := List.sizeOf_lt_of_mem h
  rw [array.sizeOf_spec]
  omega

theorem sizeOf_value_lt {m : Text × SyntaxTree} {members : List (Text × SyntaxTree)} (h : m ∈ members) :
    sizeOf m.2 < sizeOf (object members) := by
  have hm := List.sizeOf_lt_of_mem h
  obtain ⟨name, v⟩ := m
  simp only [Prod.mk.sizeOf_spec, object.sizeOf_spec] at hm ⊢
  omega

theorem told_tokens : ∀ v, Told tokens v
  | null => by
    intro w rest rest' h
    cases w <;> simp_all [tokens]
  | boolean b => by
    intro w rest rest' h
    cases w <;> simp_all [tokens]
  | numeral digits => by
    intro w rest rest' h
    cases w <;> simp_all [tokens]
  | text t => by
    intro w rest rest' h
    cases w <;> simp_all [tokens]
  | array items => by
    intro w rest rest' h
    cases w with
    | array items' =>
      simp only [tokens_array, List.cons_append, List.append_assoc, List.cons.injEq, true_and] at h
      obtain ⟨rfl, hrest⟩ := listed_inj (by decide) tokens_append_ne (fun v hv => told_tokens v) h
      exact ⟨rfl, hrest⟩
    | _ => simp [tokens] at h
  | object members => by
    intro w rest rest' h
    cases w with
    | object members' =>
      simp only [tokens_object, List.cons_append, List.append_assoc, List.cons.injEq, true_and] at h
      obtain ⟨rfl, hrest⟩ := listed_inj (by decide) ofMember_append_ne
        (fun m hm => told_ofMember (told_tokens m.2)) h
      exact ⟨rfl, hrest⟩
    | _ => simp [tokens] at h
termination_by v => v
decreasing_by
  · exact sizeOf_item_lt hv
  · exact sizeOf_value_lt hm

/-- **Tokens tell their value.** -/
theorem tokens_inj {v w : SyntaxTree} (h : v.tokens = w.tokens) : v = w :=
  (told_tokens v w [] [] (by rw [h])).1

end SyntaxTree

end CanonicalText.Json
