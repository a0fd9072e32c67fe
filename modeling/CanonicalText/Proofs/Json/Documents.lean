import Mathlib
import CanonicalText.Json.Document
import CanonicalText.Proofs.Json.RoundTrip

/-!
# Documents read back

A document that is written on lines is read back as it is, if its numbers are integers and its brackets do not nest
too deep. The blanks that indent it are passed over: the reader skips them before every part.

* `readsParts_memberList` : the members of objects are read;
* `Value.Exact` : the documents that can be read back;
* `spells_pretty` : what they are read back from.
-/

namespace CanonicalText.Json

/-! ## Objects -/

/-- A text of a name and of a value that a decoder reads, whatever comes after them. -/
def SpellsMember (member : Decoder Value) (part : Text) (x : Text × Value) : Prop :=
  ∃ value, part = writtenText x.1 ++ ':' :: value ∧
    ∀ rest, EndsNumber rest → member (value ++ rest) = .ok (x.2, rest)

theorem nextKey_quote {gap : Text} (hgap : Blank gap) (t : Text) :
    nextKey true (gap ++ '"' :: t) = .ok (some t) ∧ nextKey false (',' :: (gap ++ '"' :: t)) = .ok (some t) := by
  have hskip : skipBlank (gap ++ '"' :: t) = '"' :: t := by
    rw [skipBlank_append hgap, skipBlank_of_not_isBlank (by decide)]
  have hcomma : skipBlank (',' :: (gap ++ '"' :: t)) = ',' :: (gap ++ '"' :: t) := rfl
  constructor
  · unfold nextKey
    rw [hskip]
    rfl
  · unfold nextKey
    rw [hcomma]
    split
    · next heq => cases heq
    · next heq => exact absurd (List.cons.inj heq).1 (by decide)
    · next heq =>
      obtain ⟨rfl, rfl⟩ := List.cons.inj heq
      rw [if_neg Bool.false_ne_true, if_pos rfl, hskip]
      rfl

theorem readsParts_memberList (member : Decoder Value) :
    ReadsParts (memberList member) (SpellsMember member) '\x7d' where
  endsNumber := endsNumber_brace
  close {tail} htail rest fuel first := by
    have hskip : skipBlank (tail ++ '\x7d' :: rest) = '\x7d' :: rest := by
      rw [skipBlank_append htail, skipBlank_of_not_isBlank (by decide)]
    have hnext : nextKey first (tail ++ '\x7d' :: rest) = .ok none := by
      unfold nextKey
      rw [hskip]
      rfl
    have hclose : closeObject (tail ++ '\x7d' :: rest) = .ok rest := by
      unfold closeObject
      rw [hskip]
      rfl
    rw [memberList, hnext]
    simp only [bind, Except.bind, hclose]
    rfl
  part {gap part more rest x xs fuel} hgap hx hmore hxs := by
    obtain ⟨value, rfl, hvalue⟩ := hx
    have hquote : writtenText x.1 ++ ':' :: value ++ more =
        '"' :: (x.1.flatMap writtenChar ++ '"' :: ':' :: (value ++ more)) := by
      simp [writtenText]
    have hmember : ∀ {first t},
        nextKey first t = .ok (some (x.1.flatMap writtenChar ++ '"' :: ':' :: (value ++ more))) →
        memberList member (fuel + 1) first t = .ok (x :: xs, rest) := by
      intro first t hnext
      rw [memberList, hnext]
      simp only [bind, Except.bind, stringBody_written, colon_colon, hvalue more hmore, hxs]
      rfl
    rw [hquote]
    exact ⟨hmember (nextKey_quote hgap _).1, hmember (nextKey_quote hgap _).2⟩

/-! ## Documents -/

namespace Value

/-- Documents that can be read back: their numbers are integers, and no value stands inside more brackets than
`depth` says. -/
inductive Exact : Nat → Value → Prop
  | null {depth : Nat} : Exact depth null
  | boolean {depth : Nat} (b : Bool) : Exact depth (boolean b)
  | number {depth : Nat} {n : Number} (h : n.IsWhole) : Exact depth (number n)
  | text {depth : Nat} (t : Text) : Exact depth (text t)
  | array {depth : Nat} {xs : List Value} (h : ∀ x ∈ xs, Exact depth x) : Exact (depth + 1) (array xs)
  | object {depth : Nat} {xs : List (Text × Value)} (h : ∀ x ∈ xs, Exact depth x.2) : Exact (depth + 1) (object xs)

theorem prettyItems_eq_map (depth : Nat) (xs : List Value) : prettyItems depth xs = xs.map (prettyAt depth) := by
  induction xs with
  | nil => rfl
  | cons x xs ih => rw [prettyItems, ih, List.map_cons]

theorem prettyMembers_eq_map (depth : Nat) (xs : List (Text × Value)) :
    prettyMembers depth xs = xs.map fun x => writtenText x.1 ++ ':' :: ' ' :: prettyAt depth x.2 := by
  induction xs with
  | nil => rfl
  | cons x xs ih => rw [prettyMembers, ih, List.map_cons]

end Value

section Documents

variable {depth k : Nat} {gap : Text} {c : Char} {t : Text}

theorem valueWithin_append (h : Blank gap) (depth : Nat) (t : Text) :
    valueWithin depth (gap ++ t) = valueWithin depth t := by
  cases depth with
  | zero => rfl
  | succ depth =>
    unfold valueWithin
    rw [skipBlank_append h]

theorem valueWithin_number (hc : c = '-' ∨ c.isDigit = true) :
    valueWithin (depth + 1) (c :: t) = (number (c :: t)).map fun r => (.number r.1, r.2) := by
  unfold valueWithin
  rw [skipBlank_of_not_isBlank (isBlank_of_number hc)]
  have hof : ∀ {e : Char} {u : Text}, c :: t = e :: u → e = '-' ∨ e.isDigit = true := by
    rintro e u ⟨⟩
    exact hc
  split
  · next heq => cases heq
  · next heq => exact absurd (hof heq) (by decide)
  · next heq => exact absurd (hof heq) (by decide)
  · next heq => exact absurd (hof heq) (by decide)
  · next heq => exact absurd (hof heq) (by decide)
  · next heq => exact absurd (hof heq) (by decide)
  · next heq => exact absurd (hof heq) (by decide)
  · next heq => rw [if_pos (hof heq), heq]

theorem blank_indent (k : Nat) : Blank ('\n' :: List.replicate k ' ') := by
  intro c hc
  rcases List.mem_cons.1 hc with rfl | hc
  · decide
  · rw [(List.mem_replicate.1 hc).2]
    decide

/-- What is written on lines has blanks before each part and before the end, or nothing in it. -/
theorem enclosedLines_eq (first last : Char) (depth : Nat) (parts : List Text) :
    ∃ gap tail, Blank gap ∧ Blank tail ∧
      enclosedLines first last depth parts = first :: (gap ++ (commaSeparated gap parts ++ (tail ++ [last]))) := by
  cases parts with
  | nil => exact ⟨[], [], blank_nil, blank_nil, rfl⟩
  | cons part parts =>
    refine ⟨_, _, blank_indent (2 * (depth + 1)), blank_indent (2 * depth), ?_⟩
    rw [enclosedLines]
    · simp only [List.append_assoc]
    · simp

/-! The kinds of documents, one by one. -/

theorem spells_boolean (depth k : Nat) (b : Bool) :
    Spells (valueWithin (depth + 1)) ((Value.boolean b).prettyAt k) (.boolean b) := by
  cases b with
  | true => exact ⟨⟨'t', _, rfl, by decide, by decide⟩, fun rest _ => rfl⟩
  | false => exact ⟨⟨'f', _, rfl, by decide, by decide⟩, fun rest _ => rfl⟩

theorem spells_number {n : Number} (hn : n.IsWhole) (depth k : Nat) :
    Spells (valueWithin (depth + 1)) ((Value.number n).prettyAt k) (.number n) := by
  obtain ⟨c, t, hcons, hc⟩ := hn.written_eq_cons
  rw [Value.prettyAt]
  refine ⟨⟨c, t, hcons, isBlank_of_number hc, ?_⟩, fun rest hrest => ?_⟩
  · rintro rfl
    exact absurd hc (by decide)
  · have hread := number_written hn hrest
    rw [hcons, List.cons_append] at hread ⊢
    rw [valueWithin_number hc, hread]
    rfl

theorem spells_text (depth k : Nat) (t : Text) :
    Spells (valueWithin (depth + 1)) ((Value.text t).prettyAt k) (.text t) := by
  refine ⟨⟨'"', _, rfl, by decide, by decide⟩, fun rest _ => ?_⟩
  have hquote : (Value.text t).prettyAt k ++ rest = '"' :: (t.flatMap writtenChar ++ '"' :: rest) := by
    simp [Value.prettyAt, writtenText]
  have hread : ∀ t, valueWithin (depth + 1) ('"' :: t) = (stringBody t).map fun r => (.text r.1, r.2) :=
    fun _ => rfl
  rw [hquote, hread, stringBody_written]
  rfl

theorem spells_array {xs : List Value}
    (h : ∀ x ∈ xs, Spells (valueWithin depth) (x.prettyAt (k + 1)) x) :
    Spells (valueWithin (depth + 1)) ((Value.array xs).prettyAt k) (.array xs) := by
  have hparts : List.Forall₂ (Spells (valueWithin depth)) (xs.map (Value.prettyAt (k + 1))) xs := by
    rw [List.forall₂_map_left_iff]
    exact List.forall₂_same.2 h
  obtain ⟨gap, tail, hgap, htail, hlines⟩ := enclosedLines_eq '[' ']' k (xs.map (Value.prettyAt (k + 1)))
  rw [Value.prettyAt, Value.prettyItems_eq_map, hlines]
  refine ⟨⟨'[', _, rfl, by decide, by decide⟩, fun rest _ => ?_⟩
  have hread : ∀ t, valueWithin (depth + 1) ('[' :: t) =
    (items (valueWithin depth) (t.length + 1) true t).map fun r => (.array r.1, r.2) := fun _ => rfl
  have hitems := (readsParts_items _).read_commaSeparated hgap htail hparts rest
  simp only [List.cons_append, List.append_assoc, List.nil_append]
  rw [hread, hitems]
  rfl

theorem spells_object {xs : List (Text × Value)}
    (h : ∀ x ∈ xs, Spells (valueWithin depth) (x.2.prettyAt (k + 1)) x.2) :
    Spells (valueWithin (depth + 1)) ((Value.object xs).prettyAt k) (.object xs) := by
  have hblank : Blank [' '] := by simp [Blank, isBlank]
  have hparts : List.Forall₂ (SpellsMember (valueWithin depth))
      (xs.map fun x => writtenText x.1 ++ ':' :: ' ' :: x.2.prettyAt (k + 1)) xs := by
    rw [List.forall₂_map_left_iff]
    refine List.forall₂_same.2 fun x hx => ⟨_, rfl, fun rest hrest => ?_⟩
    exact (valueWithin_append hblank depth _).trans ((h x hx).reads rest hrest)
  obtain ⟨gap, tail, hgap, htail, hlines⟩ := enclosedLines_eq '\x7b' '\x7d' k
    (xs.map fun x => writtenText x.1 ++ ':' :: ' ' :: x.2.prettyAt (k + 1))
  rw [Value.prettyAt, Value.prettyMembers_eq_map, hlines]
  refine ⟨⟨'\x7b', _, rfl, by decide, by decide⟩, fun rest _ => ?_⟩
  have hread : ∀ t, valueWithin (depth + 1) ('\x7b' :: t) =
    (memberList (valueWithin depth) (t.length + 1) true t).map fun r => (.object r.1, r.2) := fun _ => rfl
  have hmembers := (readsParts_memberList _).read_commaSeparated hgap htail hparts rest
  simp only [List.cons_append, List.append_assoc, List.nil_append]
  rw [hread, hmembers]
  rfl

end Documents

/-- **A document is read back** from what is written of it on lines, however far it is indented. -/
theorem spells_pretty {depth : Nat} {v : Value} (h : v.Exact depth) (k : Nat) :
    Spells (valueWithin (depth + 1)) (v.prettyAt k) v := by
  induction h generalizing k with
  | null => exact ⟨⟨'n', _, rfl, by decide, by decide⟩, fun rest _ => rfl⟩
  | boolean b => exact spells_boolean _ k b
  | number hn => exact spells_number hn _ k
  | text t => exact spells_text _ k t
  | array _ ih => exact spells_array fun x hx => ih x hx (k + 1)
  | object _ ih => exact spells_object fun x hx => ih x hx (k + 1)

end CanonicalText.Json
