import Mathlib
import CanonicalText.Json.Decode
import CanonicalText.Proofs.Json.Grammar
import CanonicalText.Proofs.Results

/-!
# Values that are read

A decoder reads the tokens of the values that mean something to it, and it reads nothing else. This holds of the
decoders of scalars without numbers, of variants, and of records that refuse unknown keys.

* `Reads` : decoders that read values by what they mean;
* `null_reads`, `boolean_reads`, `option_reads`, `variant_reads` : values by themselves;
* `members_eq_ok_iff` : the members of an object, one after another;
* `RecordOf`, `record_reads` : records, from objects and from arrays;
* `Reads.decodeText_eq_ok_iff` : whole texts.
-/

namespace CanonicalText.Json

/-! ## Marks and literals -/

section Scanners

variable {t u rest : Text} {first : Bool}

theorem literal_eq_ok_iff {es : Text} : literal es t = .ok u ↔ t = es ++ u := by
  induction es generalizing t with
  | nil => simp [literal]
  | cons e es ih =>
    cases t with
    | nil => simp [literal]
    | cons c t =>
      unfold literal
      by_cases hc : c = e
      · simp [hc, ih]
      · simp [hc]

theorem mark_eq_ok_iff {d : Char} : mark d t = .ok u ↔ skipBlank t = d :: u := by
  unfold mark
  cases skipBlank t with
  | nil => simp
  | cons c t =>
    by_cases hc : c = d
    · simp [hc]
    · simp [hc]

theorem colon_eq_ok_iff : colon t = .ok u ↔ skipBlank t = ':' :: u := by
  rw [colon_eq_mark, mark_eq_ok_iff]

theorem closeArray_eq_ok_iff : closeArray t = .ok u ↔ skipBlank t = ']' :: u := by
  rw [closeArray_eq_mark, mark_eq_ok_iff]

theorem closeObject_eq_ok_iff : closeObject t = .ok u ↔ skipBlank t = '\x7d' :: u := by
  rw [closeObject_eq_mark, mark_eq_ok_iff]

end Scanners

/-! ## Parts of arrays and objects -/

section Parts

variable {t u v w rest name : Text} {first : Bool}

/-- What stands before a part: a comma, unless it is the first. -/
def lead (first : Bool) : List Token := if first then [] else [.mark ',']

/-- Parts with what stands before them, and the mark that ends them. -/
def partsTo (last : Char) : Bool → List (List Token) → List Token
  | _, [] => [.mark last]
  | first, part :: parts => lead first ++ (part ++ partsTo last false parts)

theorem listed_append_mark (last : Char) (parts : List (List Token)) :
    listed parts ++ [.mark last] = partsTo last true parts := by
  have hmore : ∀ parts : List (List Token),
      parts.flatMap (.mark ',' :: ·) ++ [.mark last] = partsTo last false parts := by
    intro parts
    induction parts with
    | nil => rfl
    | cons part parts ih => simp [partsTo, lead, ← ih]
  cases parts with
  | nil => rfl
  | cons part parts => simp [listed, partsTo, lead, ← hmore]

theorem begins_array_iff {vs : List SyntaxTree} :
    Begins t (SyntaxTree.array vs).tokens rest ↔
      ∃ u, skipBlank t = '[' :: u ∧ Begins u (partsTo ']' true (vs.map SyntaxTree.tokens)) rest := by
  rw [SyntaxTree.tokens_array, listed_append_mark, begins_mark_iff (by simp [marks])]

theorem begins_object_iff {ms : List (Text × SyntaxTree)} :
    Begins t (SyntaxTree.object ms).tokens rest ↔
      ∃ u, skipBlank t = '\x7b' :: u ∧ Begins u (partsTo '\x7d' true (ms.map SyntaxTree.ofMember)) rest := by
  rw [SyntaxTree.tokens_object, listed_append_mark, begins_mark_iff (by simp [marks])]

theorem begins_partsTo_nil_iff {last : Char} (hlast : last ∈ marks) :
    Begins t (partsTo last first []) rest ↔ skipBlank t = last :: rest := by
  rw [partsTo, begins_mark_iff hlast]
  simp only [begins_nil_iff, exists_eq_right]

theorem begins_lead_iff :
    Begins t (lead first) rest ↔ if first then t = rest else skipBlank t = ',' :: rest := by
  cases first with
  | true => exact begins_nil_iff
  | false =>
    rw [lead, if_neg Bool.false_ne_true, if_neg Bool.false_ne_true, begins_mark_iff (by simp [marks])]
    simp only [begins_nil_iff, exists_eq_right]

theorem nextKey_eq_none_iff : nextKey first t = .ok none ↔ ∃ u, skipBlank t = '\x7d' :: u := by
  unfold nextKey
  cases skipBlank t with
  | nil => simp
  | cons c s =>
    by_cases hend : c = '\x7d'
    · simp [hend]
    · cases first with
      | true => by_cases hquote : c = '"' <;> simp [hend, hquote]
      | false =>
        simp only [Bool.false_eq_true, if_false]
        split_ifs
        · split <;> simp [hend]
        · simp [hend]

theorem nextKey_eq_some_iff :
    nextKey first t = .ok (some u) ↔ ∃ s, Begins t (lead first) s ∧ skipBlank s = '"' :: u := by
  simp only [begins_lead_iff]
  unfold nextKey
  cases first with
  | true =>
    cases hskip : skipBlank t with
    | nil => simp [hskip]
    | cons c s =>
      by_cases hend : c = '\x7d'
      · simp [hskip, hend]
      · by_cases hquote : c = '"' <;> simp [hskip, hquote]
  | false =>
    cases skipBlank t with
    | nil => simp
    | cons c s =>
      by_cases hcomma : c = ','
      · subst hcomma
        cases hskip : skipBlank s with
        | nil => simp [hskip]
        | cons d v => by_cases hquote : d = '"' <;> simp [hskip, hquote]
      · by_cases hend : c = '\x7d' <;> simp [hend, hcomma]

theorem nextItem_eq_none_iff : nextItem first t = .ok none ↔ ∃ u, skipBlank t = ']' :: u := by
  unfold nextItem
  cases skipBlank t with
  | nil => simp
  | cons c s =>
    by_cases hend : c = ']'
    · simp [hend]
    · cases first with
      | true => simp [hend]
      | false =>
        simp only [Bool.false_eq_true, if_false]
        split_ifs
        · split <;> simp [hend]
        · simp [hend]

theorem nextItem_eq_some_iff :
    nextItem first t = .ok (some u) ↔
      ∃ s c v, Begins t (lead first) s ∧ skipBlank s = c :: v ∧ c ≠ ']' ∧ u = c :: v := by
  simp only [begins_lead_iff]
  unfold nextItem
  cases first with
  | true =>
    cases hskip : skipBlank t with
    | nil => simp [hskip]
    | cons c s => by_cases hend : c = ']' <;> simp [hskip, hend, eq_comm]
  | false =>
    cases skipBlank t with
    | nil => simp
    | cons c s =>
      by_cases hcomma : c = ','
      · subst hcomma
        cases hskip : skipBlank s with
        | nil => simp [hskip]
        | cons d v => by_cases hend : d = ']' <;> simp [hskip, hend, eq_comm]
      · by_cases hend : c = ']' <;> simp [hend, hcomma]

theorem begins_ofMember_iff {m : Text × SyntaxTree} {ts : List Token} :
    Begins t (lead first ++ (SyntaxTree.ofMember m ++ ts)) rest ↔
      ∃ u v w, nextKey first t = .ok (some u) ∧ stringBody u = .ok (m.1, v) ∧
        Begins v (.mark ':' :: m.2.tokens) w ∧ Begins w ts rest := by
  simp only [SyntaxTree.ofMember, List.cons_append, nextKey_eq_some_iff, begins_append_iff, begins_text_iff]
  rw [← List.cons_append]
  simp only [begins_append_iff]
  constructor
  · rintro ⟨s, hlead, u, v, hquote, hbody, w, hvalue, h⟩
    exact ⟨u, v, w, ⟨s, hlead, hquote⟩, hbody, hvalue, h⟩
  · rintro ⟨u, v, w, ⟨s, hlead, hquote⟩, hbody, hvalue, h⟩
    exact ⟨s, hlead, u, v, hquote, hbody, w, hvalue, h⟩

end Parts

/-! ## Values by themselves -/

variable {α β : Type}

/-- A decoder that reads the values that mean something to it, as what they mean, and nothing else. -/
def Reads (decode : Decoder α) (Means : SyntaxTree → α → Prop) : Prop :=
  ∀ t x rest, decode t = .ok (x, rest) ↔ ∃ v, Means v x ∧ Begins t v.tokens rest

def SyntaxTree.kind : SyntaxTree → Token
  | null => .null
  | boolean b => .boolean b
  | numeral _ => .numeral []
  | text _ => .text []
  | array _ => .mark '['
  | object _ => .mark '\x7b'

theorem SyntaxTree.tokens_eq_cons (v : SyntaxTree) : ∃ k ts, v.tokens = k :: ts ∧ k.kind = v.kind := by
  cases v <;> exact ⟨_, _, by rw [tokens], rfl⟩

theorem Begins.kindOf_eq {t rest : Text} {v : SyntaxTree} (h : Begins t v.tokens rest) :
    ∃ c u, skipBlank t = c :: u ∧ kindOf c = v.kind := by
  obtain ⟨k, ts, hv, hkind⟩ := v.tokens_eq_cons
  obtain ⟨s, u, hk, hskip, -⟩ := begins_cons_iff.1 (hv ▸ h)
  obtain ⟨c, w, rfl, -, hc⟩ := hk.eq_cons
  exact ⟨c, w ++ u, hskip, hc.trans hkind⟩

theorem begins_skipBlank_tokens_iff {t rest : Text} {v : SyntaxTree} :
    Begins (skipBlank t) v.tokens rest ↔ Begins t v.tokens rest := by
  obtain ⟨k, ts, hv, -⟩ := v.tokens_eq_cons
  rw [hv, begins_skipBlank_iff]

theorem null_reads : Reads null fun v _ => v = .null := by
  intro t x rest
  simp only [exists_eq_left, SyntaxTree.tokens, begins_null_iff, begins_nil_iff, exists_eq_right]
  unfold null
  split
  · next hskip => simp [hskip]
  · next u hskip => simp [hskip, map_eq_ok_iff, literal_eq_ok_iff]
  · next hother =>
    simp only [reduceCtorEq, false_iff]
    exact hother _

theorem boolean_reads : Reads boolean fun v b => v = .boolean b := by
  intro t b rest
  simp only [exists_eq_left, SyntaxTree.tokens, begins_boolean_iff, begins_nil_iff, exists_eq_right]
  unfold boolean
  split
  · next hskip => cases b <;> simp [hskip, Value.writtenBoolean]
  · next u hskip => cases b <;> simp [hskip, map_eq_ok_iff, literal_eq_ok_iff, Value.writtenBoolean]
  · next u hskip => cases b <;> simp [hskip, map_eq_ok_iff, literal_eq_ok_iff, Value.writtenBoolean]
  · next htrue hfalse =>
    simp only [reduceCtorEq, false_iff]
    cases b
    · exact hfalse _
    · exact htrue _

/-- Null means nothing, and all else means what it means. -/
inductive OrNull (Means : SyntaxTree → α → Prop) : SyntaxTree → Option α → Prop
  | null : OrNull Means .null none
  | value {v : SyntaxTree} {x : α} (h : Means v x) : OrNull Means v (some x)

theorem Begins.eq_null {t u rest : Text} {v : SyntaxTree} (h : Begins t v.tokens rest)
    (hskip : skipBlank t = 'n' :: u) : v = .null := by
  obtain ⟨c, w, hskip', hkind⟩ := h.kindOf_eq
  obtain ⟨rfl, -⟩ := List.cons.inj (hskip.symm.trans hskip')
  cases v <;> first | rfl | cases hkind

theorem option_reads {decode : Decoder α} {Means : SyntaxTree → α → Prop} (h : Reads decode Means)
    (hnull : ∀ x, ¬ Means .null x) : Reads (option decode) (OrNull Means) := by
  intro t x rest
  unfold option
  split
  · next u hskip =>
    simp only [map_eq_ok_iff, literal_eq_ok_iff, Prod.mk.injEq]
    constructor
    · rintro ⟨_, rfl, rfl, rfl⟩
      refine ⟨.null, .null, ?_⟩
      rw [SyntaxTree.tokens, begins_null_iff]
      exact ⟨_, hskip, .nil _⟩
    · rintro ⟨v, hv, hbegins⟩
      obtain rfl := hbegins.eq_null hskip
      cases hv with
      | null =>
        rw [SyntaxTree.tokens, begins_null_iff] at hbegins
        obtain ⟨_, hskip', ⟨⟩⟩ := hbegins
        exact ⟨rest, (List.cons.inj (hskip.symm.trans hskip')).2, rfl, rfl⟩
      | value hv => exact absurd hv (hnull _)
  · next hother =>
    simp only [map_eq_ok_iff, Prod.exists, Prod.mk.injEq, h _ _ _, begins_skipBlank_tokens_iff]
    constructor
    · rintro ⟨x, _, ⟨v, hv, hbegins⟩, rfl, rfl⟩
      exact ⟨v, .value hv, hbegins⟩
    · rintro ⟨v, hv, hbegins⟩
      cases hv with
      | null =>
        rw [SyntaxTree.tokens, begins_null_iff] at hbegins
        obtain ⟨_, hskip, -⟩ := hbegins
        exact absurd hskip (hother _)
      | value hv => exact ⟨_, rest, ⟨v, hv, hbegins⟩, rfl, rfl⟩

/-! ## Variants -/

def Named (variants : List (String × α)) (name : Text) (x : α) : Prop :=
  ∃ v, variants.find? (·.1.toList == name) = some v ∧ v.2 = x

/-- A variant by its name, or as the only key of an object, for null. -/
inductive Variant (variants : List (String × α)) : SyntaxTree → α → Prop
  | name {name : Text} {x : α} (h : Named variants name x) : Variant variants (.text name) x
  | key {name : Text} {x : α} (h : Named variants name x) : Variant variants (.object [(name, .null)]) x

theorem variantName_eq_ok_iff {variants : List (String × α)} {t rest : Text} {x : α} :
    variantName variants t = .ok (x, rest) ↔ ∃ name, stringBody t = .ok (name, rest) ∧ Named variants name x := by
  unfold variantName
  simp only [bind_eq_ok_iff, Prod.exists]
  refine exists_congr fun name => ?_
  constructor
  · rintro ⟨u, hbody, h⟩
    split at h
    · next v hv =>
      cases h
      exact ⟨hbody, v, hv, rfl⟩
    · cases h
  · rintro ⟨hbody, v, hv, rfl⟩
    exact ⟨rest, hbody, by rw [hv]; rfl⟩

theorem begins_key_iff {t rest name : Text} :
    Begins t (SyntaxTree.object [(name, .null)]).tokens rest ↔
      ∃ u v w s z, skipBlank t = '\x7b' :: u ∧ nextKey true u = .ok (some v) ∧ stringBody v = .ok (name, w) ∧
        colon w = .ok s ∧ null s = .ok ((), z) ∧ closeObject z = .ok rest := by
  simp only [begins_object_iff, List.map_cons, List.map_nil, partsTo, begins_ofMember_iff,
    begins_mark_iff (c := ':') (by simp [marks]), begins_mark_iff (c := '\x7d') (by simp [marks]),
    begins_nil_iff, exists_eq_right, colon_eq_ok_iff, closeObject_eq_ok_iff, null_reads _ _ _, exists_eq_left]
  constructor
  · rintro ⟨u, hbrace, v, w, z, hkey, hbody, ⟨s, hcolon, hnull⟩, hclose⟩
    exact ⟨u, v, w, s, z, hbrace, hkey, hbody, hcolon, hnull, hclose⟩
  · rintro ⟨u, v, w, s, z, hbrace, hkey, hbody, hcolon, hnull, hclose⟩
    exact ⟨u, hbrace, v, w, z, hkey, hbody, ⟨s, hcolon, hnull⟩, hclose⟩

theorem begins_name_iff {t rest name : Text} :
    Begins t (SyntaxTree.text name).tokens rest ↔
      ∃ u, skipBlank t = '"' :: u ∧ stringBody u = .ok (name, rest) := by
  simp only [SyntaxTree.tokens, begins_text_iff, begins_nil_iff, exists_eq_right_right]

theorem variant_eq_ok_iff {variants : List (String × α)} {t rest : Text} {x : α} :
    variant variants t = .ok (x, rest) ↔
      (∃ u, skipBlank t = '"' :: u ∧ variantName variants u = .ok (x, rest)) ∨
      ∃ u v w s z, skipBlank t = '\x7b' :: u ∧ nextKey true u = .ok (some v) ∧
        variantName variants v = .ok (x, w) ∧ colon w = .ok s ∧ null s = .ok ((), z) ∧ closeObject z = .ok rest := by
  unfold variant
  split
  · next hskip => simp [hskip]
  · next u hskip => simp [hskip]
  · next u hskip =>
    constructor
    · intro h
      obtain ⟨_ | v, hkey, h⟩ := bind_eq_ok_iff.1 h
      · cases h
      · obtain ⟨⟨x, w⟩, hname, h⟩ := bind_eq_ok_iff.1 h
        obtain ⟨s, hcolon, h⟩ := bind_eq_ok_iff.1 h
        obtain ⟨⟨⟨⟩, z⟩, hnull, h⟩ := bind_eq_ok_iff.1 h
        obtain ⟨_, hclose, ⟨⟩⟩ := bind_eq_ok_iff.1 h
        exact .inr ⟨u, v, w, s, z, hskip, hkey, hname, hcolon, hnull, hclose⟩
    · rintro (⟨u, hskip', -⟩ | ⟨_, v, w, s, z, hskip', hkey, hname, hcolon, hnull, hclose⟩)
      · cases hskip.symm.trans hskip'
      · cases hskip.symm.trans hskip'
        refine bind_eq_ok_iff.2 ⟨some v, hkey, ?_⟩
        refine bind_eq_ok_iff.2 ⟨(x, w), hname, ?_⟩
        refine bind_eq_ok_iff.2 ⟨s, hcolon, ?_⟩
        refine bind_eq_ok_iff.2 ⟨((), z), hnull, ?_⟩
        exact bind_eq_ok_iff.2 ⟨rest, hclose, rfl⟩
  · next hquote hbrace =>
    simp only [reduceCtorEq, false_iff]
    rintro (⟨u, hskip, -⟩ | ⟨u, v, w, s, z, hskip, -⟩)
    · exact hquote u hskip
    · exact hbrace u hskip

theorem variant_reads (variants : List (String × α)) : Reads (variant variants) (Variant variants) := by
  intro t x rest
  rw [variant_eq_ok_iff]
  simp only [variantName_eq_ok_iff]
  constructor
  · rintro (⟨u, hskip, name, hbody, hname⟩ | ⟨u, v, w, s, z, hskip, hkey, ⟨name, hbody, hname⟩, h⟩)
    · exact ⟨_, .name hname, begins_name_iff.2 ⟨u, hskip, hbody⟩⟩
    · exact ⟨_, .key hname, begins_key_iff.2 ⟨u, v, w, s, z, hskip, hkey, hbody, h⟩⟩
  · rintro ⟨_, hname | hname, h⟩
    · obtain ⟨u, hskip, hbody⟩ := begins_name_iff.1 h
      exact .inl ⟨u, hskip, _, hbody, hname⟩
    · obtain ⟨u, v, w, s, z, hskip, hkey, hbody, h⟩ := begins_key_iff.1 h
      exact .inr ⟨u, v, w, s, z, hskip, hkey, ⟨_, hbody, hname⟩, h⟩

/-! ## Objects -/

theorem Begins.length_le {t rest : Text} {ts : List Token} (h : Begins t ts rest) :
    rest.length + ts.length ≤ t.length := by
  induction h with
  | nil => simp
  | cons hgap hk h ih =>
    obtain ⟨c, u, rfl, -⟩ := hk.eq_cons
    simp only [List.length_cons, List.length_append]
    omega

/-- Members that are gathered into two fields, one after another. No field is given twice. -/
inductive Gathered (f g : Text) (Means : SyntaxTree → α → Prop) (Means' : SyntaxTree → β → Prop) :
    Option α → Option β → List (Text × SyntaxTree) → Option α × Option β → Prop
  | nil (x : Option α) (y : Option β) : Gathered f g Means Means' x y [] (x, y)
  | left {v : SyntaxTree} {a : α} {y : Option β} {ms : List (Text × SyntaxTree)} {r : Option α × Option β}
      (hv : Means v a) (h : Gathered f g Means Means' (some a) y ms r) :
      Gathered f g Means Means' none y ((f, v) :: ms) r
  | right {v : SyntaxTree} {b : β} {x : Option α} {ms : List (Text × SyntaxTree)} {r : Option α × Option β}
      (hv : Means' v b) (h : Gathered f g Means Means' x (some b) ms r) :
      Gathered f g Means Means' x none ((g, v) :: ms) r

section Members

variable {shape : RecordShape} {f : Field α} {g : Field β} {Means : SyntaxTree → α → Prop}
  {Means' : SyntaxTree → β → Prop} {fuel : Nat} {first : Bool} {x : Option α} {y : Option β} {t rest : Text}
  {r : Option α × Option β}

theorem readMember_eq_ok_iff (hf : Reads f.decode Means) {a : α} :
    f.readMember x t = .ok (a, rest) ↔
      x = none ∧ ∃ v, Means v a ∧ Begins t (.mark ':' :: v.tokens) rest := by
  cases x with
  | some x => simp [Field.readMember]
  | none =>
    simp only [Field.readMember, bind_eq_ok_iff, colon_eq_ok_iff, hf _ _ _, true_and,
      begins_mark_iff (c := ':') (by simp [marks])]
    constructor
    · rintro ⟨u, hskip, v, hv, h⟩
      exact ⟨v, hv, u, hskip, h⟩
    · rintro ⟨v, hv, u, hskip, h⟩
      exact ⟨u, hskip, v, hv, h⟩

theorem members_succ_eq_ok_iff (hstrict : shape.strict = true) (hne : f.name.toList ≠ g.name.toList) :
    members shape f g (fuel + 1) first x y t = .ok (r, rest) ↔
      (r = (x, y) ∧ closeObject t = .ok rest) ∨
      ∃ u v w,
        (nextKey first t = .ok (some u) ∧ stringBody u = .ok (f.name.toList, v) ∧
          ∃ a, f.readMember x v = .ok (a, w) ∧ members shape f g fuel false (some a) y w = .ok (r, rest)) ∨
        (nextKey first t = .ok (some u) ∧ stringBody u = .ok (g.name.toList, v) ∧
          ∃ b, g.readMember y v = .ok (b, w) ∧ members shape f g fuel false x (some b) w = .ok (r, rest)) := by
  rw [members]
  constructor
  · intro h
    obtain ⟨_ | u, hkey, h⟩ := bind_eq_ok_iff.1 h
    · obtain ⟨_, hclose, ⟨⟩⟩ := bind_eq_ok_iff.1 h
      exact .inl ⟨rfl, hclose⟩
    · obtain ⟨⟨key, v⟩, hbody, h⟩ := bind_eq_ok_iff.1 h
      refine .inr ⟨u, v, ?_⟩
      dsimp only at h
      split_ifs at h with hf hg
      · obtain ⟨⟨a, w⟩, ha, h⟩ := bind_eq_ok_iff.1 h
        exact ⟨w, .inl ⟨hkey, hf ▸ hbody, a, ha, h⟩⟩
      · obtain ⟨⟨b, w⟩, hb, h⟩ := bind_eq_ok_iff.1 h
        exact ⟨w, .inr ⟨hkey, hg ▸ hbody, b, hb, h⟩⟩
  · rintro (⟨rfl, hclose⟩ | ⟨u, v, w, ⟨hkey, hbody, a, ha, h⟩ | ⟨hkey, hbody, b, hb, h⟩⟩)
    · refine bind_eq_ok_iff.2 ⟨none, nextKey_eq_none_iff.2 ⟨rest, closeObject_eq_ok_iff.1 hclose⟩, ?_⟩
      exact bind_eq_ok_iff.2 ⟨rest, hclose, rfl⟩
    · refine bind_eq_ok_iff.2 ⟨some u, hkey, bind_eq_ok_iff.2 ⟨_, hbody, ?_⟩⟩
      dsimp only
      rw [if_pos rfl]
      exact bind_eq_ok_iff.2 ⟨(a, w), ha, h⟩
    · refine bind_eq_ok_iff.2 ⟨some u, hkey, bind_eq_ok_iff.2 ⟨_, hbody, ?_⟩⟩
      dsimp only
      rw [if_neg hne.symm, if_pos rfl]
      exact bind_eq_ok_iff.2 ⟨(b, w), hb, h⟩

theorem length_lt_of_member {u v w name : Text} {value : SyntaxTree} (hkey : nextKey first t = .ok (some u))
    (hbody : stringBody u = .ok (name, v)) (hvalue : Begins v (.mark ':' :: value.tokens) w) :
    w.length < t.length := by
  have h : Begins t (lead first ++ (SyntaxTree.ofMember (name, value) ++ [])) w :=
    begins_ofMember_iff.2 ⟨u, v, w, hkey, hbody, hvalue, .nil w⟩
  have hlength := h.length_le
  simp only [SyntaxTree.ofMember, List.length_append, List.length_cons] at hlength
  omega

/-- What is gathered from an object, from the members that are left in it. -/
theorem members_eq_ok_iff (hf : Reads f.decode Means) (hg : Reads g.decode Means') (hstrict : shape.strict = true)
    (hne : f.name.toList ≠ g.name.toList) (hfuel : t.length < fuel) :
    members shape f g fuel first x y t = .ok (r, rest) ↔
      ∃ ms, Gathered f.name.toList g.name.toList Means Means' x y ms r ∧
        Begins t (partsTo '\x7d' first (ms.map SyntaxTree.ofMember)) rest := by
  -- on the fuel, which lasts as every member makes the text shorter
  induction fuel generalizing first x y t with
  | zero => omega
  | succ fuel ih =>
    rw [members_succ_eq_ok_iff hstrict hne]
    constructor
    · rintro (⟨rfl, hclose⟩ | ⟨u, v, w, ⟨hkey, hbody, a, ha, h⟩ | ⟨hkey, hbody, b, hb, h⟩⟩)
      · exact ⟨[], .nil x y, (begins_partsTo_nil_iff (by simp [marks])).2 (closeObject_eq_ok_iff.1 hclose)⟩
      · obtain ⟨rfl, value, ha, hvalue⟩ := (readMember_eq_ok_iff hf).1 ha
        have hlength := length_lt_of_member hkey hbody hvalue
        obtain ⟨ms, hms, h⟩ := (ih (by omega)).1 h
        exact ⟨_, .left ha hms, begins_ofMember_iff.2 ⟨u, v, w, hkey, hbody, hvalue, h⟩⟩
      · obtain ⟨rfl, value, hb, hvalue⟩ := (readMember_eq_ok_iff hg).1 hb
        have hlength := length_lt_of_member hkey hbody hvalue
        obtain ⟨ms, hms, h⟩ := (ih (by omega)).1 h
        exact ⟨_, .right hb hms, begins_ofMember_iff.2 ⟨u, v, w, hkey, hbody, hvalue, h⟩⟩
    · rintro ⟨_, hms | ⟨ha, hms⟩ | ⟨hb, hms⟩, h⟩
      · have hclose := (begins_partsTo_nil_iff (by simp [marks])).1 h
        exact .inl ⟨rfl, closeObject_eq_ok_iff.2 hclose⟩
      · obtain ⟨u, v, w, hkey, hbody, hvalue, h⟩ := begins_ofMember_iff.1 h
        have hlength := length_lt_of_member hkey hbody hvalue
        exact .inr ⟨u, v, w, .inl ⟨hkey, hbody, _, (readMember_eq_ok_iff hf).2 ⟨rfl, _, ha, hvalue⟩,
          (ih (by omega)).2 ⟨_, hms, h⟩⟩⟩
      · obtain ⟨u, v, w, hkey, hbody, hvalue, h⟩ := begins_ofMember_iff.1 h
        have hlength := length_lt_of_member hkey hbody hvalue
        exact .inr ⟨u, v, w, .inr ⟨hkey, hbody, _, (readMember_eq_ok_iff hg).2 ⟨rfl, _, hb, hvalue⟩,
          (ih (by omega)).2 ⟨_, hms, h⟩⟩⟩

/-- What a field is after an object: what it was if no member has its name, or else what this member means. -/
inductive Filled (Means : SyntaxTree → α → Prop) (name : Text) (ms : List (Text × SyntaxTree)) :
    Option α → Option α → Prop
  | kept {x : Option α} (h : ∀ v, (name, v) ∉ ms) : Filled Means name ms x x
  | taken {v : SyntaxTree} {a : α} (h : (name, v) ∈ ms) (hv : Means v a) : Filled Means name ms none (some a)

theorem Filled.cons_of_ne_iff {name key : Text} {v : SyntaxTree} {ms : List (Text × SyntaxTree)} {x' : Option α}
    (hkey : name ≠ key) : Filled Means name ((key, v) :: ms) x x' ↔ Filled Means name ms x x' := by
  have hmem : ∀ w, (name, w) ∈ (key, v) :: ms ↔ (name, w) ∈ ms := by
    intro w
    simp [hkey]
  constructor
  · rintro (h | ⟨h, hv⟩)
    · exact .kept fun w hw => h w ((hmem w).2 hw)
    · exact .taken ((hmem _).1 h) hv
  · rintro (h | ⟨h, hv⟩)
    · exact .kept fun w hw => h w ((hmem w).1 hw)
    · exact .taken ((hmem _).2 h) hv

theorem Filled.cons_self_iff {name : Text} {v : SyntaxTree} {ms : List (Text × SyntaxTree)} {x' : Option α}
    (hms : ∀ w, (name, w) ∉ ms) :
    Filled Means name ((name, v) :: ms) x x' ↔ x = none ∧ ∃ a, Means v a ∧ x' = some a := by
  constructor
  · rintro (h | ⟨h, hv⟩)
    · exact absurd List.mem_cons_self (h v)
    · rcases List.mem_cons.1 h with heq | h
      · cases heq
        exact ⟨rfl, _, hv, rfl⟩
      · exact absurd h (hms _)
  · rintro ⟨rfl, a, hv, rfl⟩
    exact .taken List.mem_cons_self hv

theorem Filled.some_iff {name : Text} {ms : List (Text × SyntaxTree)} {a : α} {x' : Option α} :
    Filled Means name ms (some a) x' ↔ x' = some a ∧ ∀ v, (name, v) ∉ ms := by
  constructor
  · rintro ⟨h⟩
    exact ⟨rfl, h⟩
  · rintro ⟨rfl, h⟩
    exact .kept h

/-- Members can be gathered if no key is twice among them and all are names of fields. Their order does not
matter. -/
theorem gathered_iff {left right : Text} (hne : left ≠ right) {ms : List (Text × SyntaxTree)} {x' : Option α}
    {y' : Option β} :
    Gathered left right Means Means' x y ms (x', y') ↔
      (ms.map Prod.fst).Nodup ∧ (∀ m ∈ ms, m.1 = left ∨ m.1 = right) ∧ Filled Means left ms x x' ∧
        Filled Means' right ms y y' := by
  have hkeys : ∀ {key : Text} {ms : List (Text × SyntaxTree)},
      key ∉ ms.map Prod.fst ↔ ∀ v, (key, v) ∉ ms := by simp
  induction ms generalizing x y with
  | nil =>
    constructor
    · rintro ⟨⟩
      exact ⟨.nil, by simp, .kept (by simp), .kept (by simp)⟩
    · rintro ⟨-, -, hx | ⟨h, -⟩, hy | ⟨h', -⟩⟩
      · exact .nil _ _
      · cases h'
      all_goals cases h
  | cons m ms ih =>
    rw [List.map_cons, List.nodup_cons, List.forall_mem_cons]
    constructor
    · rintro (_ | ⟨hv, h⟩ | ⟨hv, h⟩)
      · obtain ⟨hnodup, hnames, hx, hy⟩ := ih.1 h
        obtain ⟨rfl, hleft⟩ := Filled.some_iff.1 hx
        exact ⟨⟨hkeys.2 hleft, hnodup⟩, ⟨.inl rfl, hnames⟩, (Filled.cons_self_iff hleft).2 ⟨rfl, _, hv, rfl⟩,
          (Filled.cons_of_ne_iff hne.symm).2 hy⟩
      · obtain ⟨hnodup, hnames, hx, hy⟩ := ih.1 h
        obtain ⟨rfl, hright⟩ := Filled.some_iff.1 hy
        exact ⟨⟨hkeys.2 hright, hnodup⟩, ⟨.inr rfl, hnames⟩, (Filled.cons_of_ne_iff hne).2 hx,
          (Filled.cons_self_iff hright).2 ⟨rfl, _, hv, rfl⟩⟩
    · obtain ⟨key, v⟩ := m
      rintro ⟨⟨hkey, hnodup⟩, ⟨rfl | rfl, hnames⟩, hx, hy⟩
      · obtain ⟨rfl, a, hv, rfl⟩ := (Filled.cons_self_iff (hkeys.1 hkey)).1 hx
        exact .left hv (ih.2 ⟨hnodup, hnames, .kept (hkeys.1 hkey), (Filled.cons_of_ne_iff hne.symm).1 hy⟩)
      · obtain ⟨rfl, b, hv, rfl⟩ := (Filled.cons_self_iff (hkeys.1 hkey)).1 hy
        exact .right hv (ih.2 ⟨hnodup, hnames, (Filled.cons_of_ne_iff hne).1 hx, .kept (hkeys.1 hkey)⟩)

/-- What a field of a record comes to: what the value given for it means, or else what it is when it is absent. -/
inductive Says (Means : SyntaxTree → α → Prop) (absent : Option α) (Given : SyntaxTree → Prop) : α → Prop
  | given {v : SyntaxTree} {a : α} (h : Given v) (hv : Means v a) : Says Means absent Given a
  | absent {a : α} (h : ∀ v, ¬ Given v) (ha : absent = some a) : Says Means absent Given a

theorem Says.means {absent : Option α} {Given : SyntaxTree → Prop} {a : α} (h : Says Means absent Given a)
    (hunique : ∀ v w, Given v → Given w → v = w) {v : SyntaxTree} (hv : Given v) : Means v a := by
  obtain ⟨hw, hmeans⟩ | ⟨hnone, -⟩ := h
  · exact hunique _ _ hv hw ▸ hmeans
  · exact absurd hv (hnone v)

theorem says_member_iff {ms : List (Text × SyntaxTree)} {a : α} :
    Says Means f.absent (fun v => (f.name.toList, v) ∈ ms) a ↔
      ∃ x, Filled Means f.name.toList ms none x ∧ f.valueOf x = .ok a := by
  constructor
  · rintro (⟨h, hv⟩ | ⟨h, ha⟩)
    · exact ⟨_, .taken h hv, rfl⟩
    · exact ⟨none, .kept h, by rw [Field.valueOf, ha]; rfl⟩
  · rintro ⟨_, h | ⟨h, hv⟩, hx⟩
    · refine .absent h ?_
      cases habsent : f.absent <;> simp_all [Field.valueOf]
    · cases hx
      exact .given h hv

/-- What a record comes to: an object with its fields in any order, each at most once, and no other keys, or an array
of at most two items in the order of the fields. -/
inductive RecordOf (f : Field α) (g : Field β) (Means : SyntaxTree → α → Prop) (Means' : SyntaxTree → β → Prop) :
    SyntaxTree → α × β → Prop
  | object {ms : List (Text × SyntaxTree)} {a : α} {b : β} (hnodup : (ms.map Prod.fst).Nodup)
      (hnames : ∀ m ∈ ms, m.1 = f.name.toList ∨ m.1 = g.name.toList)
      (ha : Says Means f.absent (fun v => (f.name.toList, v) ∈ ms) a)
      (hb : Says Means' g.absent (fun v => (g.name.toList, v) ∈ ms) b) : RecordOf f g Means Means' (.object ms) (a, b)
  | array {vs : List SyntaxTree} {a : α} {b : β} (hlength : vs.length ≤ 2)
      (ha : Says Means f.absent (fun v => vs[0]? = some v) a)
      (hb : Says Means' g.absent (fun v => vs[1]? = some v) b) : RecordOf f g Means Means' (.array vs) (a, b)

theorem Begins.ne_closeArray {v : SyntaxTree} (h : Begins t v.tokens rest) :
    ∃ c u, skipBlank t = c :: u ∧ c ≠ ']' := by
  obtain ⟨c, u, hskip, hkind⟩ := h.kindOf_eq
  refine ⟨c, u, hskip, ?_⟩
  rintro rfl
  cases v <;> cases hkind

/-- An item of an array, or the end of the array where the item may be absent. -/
theorem readItem_eq_ok_iff (hf : Reads f.decode Means) {place : Nat} {a : α} :
    f.readItem shape place t = .ok (a, rest) ↔
      (∃ v, Means v a ∧ Begins t (lead (place = 0) ++ v.tokens) rest) ∨
        (∃ u, skipBlank t = ']' :: u) ∧ f.absent = some a ∧ rest = t := by
  unfold Field.readItem
  simp only [begins_append_iff]
  constructor
  · intro h
    obtain ⟨_ | u, hitem, h⟩ := bind_eq_ok_iff.1 h
    · dsimp only at h
      split at h
      · next habsent =>
        cases h
        exact .inr ⟨nextItem_eq_none_iff.1 hitem, habsent, rfl⟩
      · cases h
    · obtain ⟨s, c, w, hlead, hskip, -, rfl⟩ := nextItem_eq_some_iff.1 hitem
      obtain ⟨v, hv, h⟩ := (hf _ _ _).1 h
      exact .inl ⟨v, hv, s, hlead, begins_skipBlank_tokens_iff.1 (hskip ▸ h)⟩
  · rintro (⟨v, hv, s, hlead, h⟩ | ⟨hclose, habsent, rfl⟩)
    · obtain ⟨c, u, hskip, hc⟩ := h.ne_closeArray
      exact bind_eq_ok_iff.2 ⟨some (c :: u), nextItem_eq_some_iff.2 ⟨s, c, u, hlead, hskip, hc, rfl⟩,
        (hf _ _ _).2 ⟨v, hv, hskip ▸ begins_skipBlank_tokens_iff.2 h⟩⟩
    · refine bind_eq_ok_iff.2 ⟨none, nextItem_eq_none_iff.2 hclose, ?_⟩
      dsimp only
      rw [habsent]
      rfl

theorem record_object_iff (hf : Reads f.decode Means) (hg : Reads g.decode Means') (hstrict : shape.strict = true)
    (hne : f.name.toList ≠ g.name.toList) {u : Text} (hskip : skipBlank t = '\x7b' :: u) {a : α} {b : β} :
    record shape f g t = .ok ((a, b), rest) ↔
      ∃ ms, RecordOf f g Means Means' (.object ms) (a, b) ∧
        Begins u (partsTo '\x7d' true (ms.map SyntaxTree.ofMember)) rest := by
  unfold record
  rw [hskip]
  dsimp only
  constructor
  · intro h
    obtain ⟨⟨⟨x, y⟩, w⟩, hmembers, h⟩ := bind_eq_ok_iff.1 h
    obtain ⟨a, ha, h⟩ := bind_eq_ok_iff.1 h
    obtain ⟨b, hb, h⟩ := bind_eq_ok_iff.1 h
    cases h
    obtain ⟨ms, hms, hbegins⟩ := (members_eq_ok_iff hf hg hstrict hne (by omega)).1 hmembers
    obtain ⟨hnodup, hnames, hx, hy⟩ := (gathered_iff hne).1 hms
    exact ⟨ms, .object hnodup hnames (says_member_iff.2 ⟨x, hx, ha⟩) (says_member_iff.2 ⟨y, hy, hb⟩), hbegins⟩
  · rintro ⟨ms, ⟨hnodup, hnames, ha, hb⟩, hbegins⟩
    obtain ⟨x, hx, ha⟩ := says_member_iff.1 ha
    obtain ⟨y, hy, hb⟩ := says_member_iff.1 hb
    have hms := (gathered_iff hne).2 ⟨hnodup, hnames, hx, hy⟩
    refine bind_eq_ok_iff.2 ⟨((x, y), rest), (members_eq_ok_iff hf hg hstrict hne (by omega)).2 ⟨ms, hms, hbegins⟩, ?_⟩
    exact bind_eq_ok_iff.2 ⟨a, ha, bind_eq_ok_iff.2 ⟨b, hb, rfl⟩⟩

theorem readItem_partsTo_iff (hf : Reads f.decode Means) (place : Nat) {a : α} {ws : List SyntaxTree} :
    (∃ s, f.readItem shape place t = .ok (a, s) ∧ Begins s (partsTo ']' false (ws.map SyntaxTree.tokens)) rest) ↔
      ∃ vs : List SyntaxTree, vs.tail = ws ∧ Says Means f.absent (fun v => vs.head? = some v) a ∧
        Begins t (partsTo ']' (place = 0) (vs.map SyntaxTree.tokens)) rest := by
  have hmark : ']' ∈ marks := by simp [marks]
  simp only [readItem_eq_ok_iff hf]
  constructor
  · rintro ⟨s, ⟨v, hv, hitem⟩ | ⟨⟨u, hskip⟩, habsent, rfl⟩, h⟩
    · refine ⟨v :: ws, rfl, .given rfl hv, ?_⟩
      rw [List.map_cons, partsTo, ← List.append_assoc]
      exact begins_append_iff.2 ⟨s, hitem, h⟩
    · cases ws with
      | nil =>
        rw [List.map_nil, begins_partsTo_nil_iff hmark] at h
        exact ⟨[], rfl, .absent (by simp) habsent, (begins_partsTo_nil_iff hmark).2 h⟩
      | cons w ws =>
        -- the array has ended, and no comma is left
        obtain ⟨_, hlead, -⟩ := begins_append_iff.1 h
        cases hskip.symm.trans (begins_lead_iff.1 hlead)
  · rintro ⟨vs, rfl, ha, h⟩
    cases vs with
    | nil =>
      obtain ⟨⟨⟩⟩ | ⟨-, habsent⟩ := ha
      have hskip := (begins_partsTo_nil_iff hmark).1 h
      exact ⟨t, .inr ⟨⟨rest, hskip⟩, habsent, rfl⟩, (begins_partsTo_nil_iff hmark).2 hskip⟩
    | cons v vs =>
      obtain ⟨⟨⟩, hv⟩ | ⟨hnone, -⟩ := ha
      · rw [List.map_cons, partsTo, ← List.append_assoc] at h
        obtain ⟨s, hitem, h⟩ := begins_append_iff.1 h
        exact ⟨s, .inl ⟨_, hv, hitem⟩, h⟩
      · exact absurd rfl (hnone v)

theorem recordOf_array_iff {vs : List SyntaxTree} {a : α} {b : β} :
    RecordOf f g Means Means' (.array vs) (a, b) ↔
      vs.tail.tail = [] ∧ Says Means f.absent (fun v => vs.head? = some v) a ∧
        Says Means' g.absent (fun v => vs.tail.head? = some v) b := by
  have hlength : vs.tail.tail = [] ↔ vs.length ≤ 2 := by
    rw [← List.length_eq_zero_iff, List.length_tail, List.length_tail]
    omega
  rw [hlength, List.head?_eq_getElem?, List.head?_tail]
  constructor
  · rintro ⟨⟩
    exact ⟨‹_›, ‹_›, ‹_›⟩
  · rintro ⟨hlength, ha, hb⟩
    exact .array hlength ha hb

theorem record_array_iff (hf : Reads f.decode Means) (hg : Reads g.decode Means') {u : Text}
    (hskip : skipBlank t = '[' :: u) {a : α} {b : β} :
    record shape f g t = .ok ((a, b), rest) ↔
      ∃ vs, RecordOf f g Means Means' (.array vs) (a, b) ∧
        Begins u (partsTo ']' true (vs.map SyntaxTree.tokens)) rest := by
  have hend : ∀ w, closeArray w = .ok rest ↔ Begins w (partsTo ']' false ([].map SyntaxTree.tokens)) rest := by
    intro w
    rw [closeArray_eq_ok_iff, List.map_nil, begins_partsTo_nil_iff (by simp [marks])]
  unfold record
  rw [hskip]
  dsimp only
  constructor
  · intro h
    obtain ⟨⟨a, s⟩, ha, h⟩ := bind_eq_ok_iff.1 h
    obtain ⟨⟨b, w⟩, hb, h⟩ := bind_eq_ok_iff.1 h
    obtain ⟨_, hclose, h⟩ := bind_eq_ok_iff.1 h
    cases h
    obtain ⟨ws, hws, hb, h⟩ := (readItem_partsTo_iff hg 1).1 ⟨w, hb, (hend w).1 hclose⟩
    obtain ⟨vs, rfl, ha, h⟩ := (readItem_partsTo_iff hf 0).1 ⟨s, ha, h⟩
    exact ⟨vs, recordOf_array_iff.2 ⟨hws, ha, hb⟩, h⟩
  · rintro ⟨vs, hvs, h⟩
    obtain ⟨hws, ha, hb⟩ := recordOf_array_iff.1 hvs
    obtain ⟨s, ha, h⟩ := (readItem_partsTo_iff hf 0).2 ⟨vs, rfl, ha, h⟩
    obtain ⟨w, hb, h⟩ := (readItem_partsTo_iff hg 1).2 ⟨vs.tail, hws, hb, h⟩
    exact bind_eq_ok_iff.2 ⟨_, ha, bind_eq_ok_iff.2 ⟨_, hb, bind_eq_ok_iff.2 ⟨rest, (hend w).2 h, rfl⟩⟩⟩

theorem record_reads (hf : Reads f.decode Means) (hg : Reads g.decode Means') (hstrict : shape.strict = true)
    (hne : f.name.toList ≠ g.name.toList) : Reads (record shape f g) (RecordOf f g Means Means') := by
  rintro t ⟨a, b⟩ rest
  constructor
  · intro h
    by_cases hbrace : ∃ u, skipBlank t = '\x7b' :: u
    · obtain ⟨u, hskip⟩ := hbrace
      obtain ⟨ms, hms, h⟩ := (record_object_iff hf hg hstrict hne hskip).1 h
      exact ⟨_, hms, begins_object_iff.2 ⟨u, hskip, h⟩⟩
    · by_cases hbracket : ∃ u, skipBlank t = '[' :: u
      · obtain ⟨u, hskip⟩ := hbracket
        obtain ⟨vs, hvs, h⟩ := (record_array_iff hf hg hskip).1 h
        exact ⟨_, hvs, begins_array_iff.2 ⟨u, hskip, h⟩⟩
      · unfold record at h
        split at h
        · cases h
        · next u hskip => exact absurd ⟨u, hskip⟩ hbracket
        · next u hskip => exact absurd ⟨u, hskip⟩ hbrace
        · cases h
  · rintro ⟨_, hv, h⟩
    cases hv with
    | object hnodup hnames ha hb =>
      obtain ⟨u, hskip, h⟩ := begins_object_iff.1 h
      exact (record_object_iff hf hg hstrict hne hskip).2 ⟨_, .object hnodup hnames ha hb, h⟩
    | array hlength ha hb =>
      obtain ⟨u, hskip, h⟩ := begins_array_iff.1 h
      exact (record_array_iff hf hg hskip).2 ⟨_, .array hlength ha hb, h⟩

end Members

/-! ## Whole texts -/

/-- What is read from a whole text: what its only value means. -/
theorem Reads.decodeText_eq_ok_iff {decode : Decoder α} {Means : SyntaxTree → α → Prop} (h : Reads decode Means)
    {t : Text} {x : α} : decodeText decode t = .ok x ↔ ∃ v, Means v x ∧ Spaced v.tokens t := by
  unfold decodeText
  constructor
  · intro hread
    obtain ⟨⟨y, rest⟩, hvalue, hread⟩ := bind_eq_ok_iff.1 hread
    dsimp only at hread
    split_ifs at hread with hrest
    cases hread
    obtain ⟨v, hv, hbegins⟩ := (h _ _ _).1 hvalue
    exact ⟨v, hv, rest, List.dropWhile_eq_nil_iff.1 hrest, hbegins⟩
  · rintro ⟨v, hv, rest, hrest, hbegins⟩
    refine bind_eq_ok_iff.2 ⟨(x, rest), (h _ _ _).2 ⟨v, hv, hbegins⟩, ?_⟩
    exact if_pos (List.dropWhile_eq_nil_iff.2 hrest)

end CanonicalText.Json
