import Mathlib
import CanonicalText.Proofs.Json.Written
import CanonicalText.View.Element

/-!
# Values read back

An array is read item by item and a record member by member, so what is written of either is read back if what is
written of its parts is. This holds of coordinates and of the elements of views.

* `Spells` : a text that a decoder reads as a value, whatever comes after it;
* `ReadsBack` : a decoder reads what is written of values;
* `ReadsParts` : a reader of parts between commas, with or without blanks before them;
* `array_written`, `record_written` : arrays and records of values that are read back;
* `readsBack_position`, `readsBack_location` : coordinates;
* `decodeText_written` : a text that holds nothing but what is written of a value.
-/

namespace CanonicalText.Json

/-- A text that a decoder reads as a value, whatever comes after it. It begins with a character that is neither
blank nor the end of an array. -/
structure Spells {α : Type} (decode : Decoder α) (t : Text) (x : α) : Prop where
  opens : ∃ c u, t = c :: u ∧ isBlank c = false ∧ c ≠ ']'
  reads : ∀ rest, EndsNumber rest → decode (t ++ rest) = .ok (x, rest)

/-- What is written of values is read back. It begins with a character that is neither blank nor the end of an
array. -/
structure ReadsBack {α : Type} (decode : Decoder α) (write : α → Text) : Prop where
  opens : ∀ x, ∃ c t, write x = c :: t ∧ isBlank c = false ∧ c ≠ ']'
  reads : ∀ x rest, EndsNumber rest → decode (write x ++ rest) = .ok (x, rest)

/-- A text that holds nothing but a value is read as it. -/
theorem ReadsBack.decodeText_written {α : Type} {decode : Decoder α} {write : α → Text}
    (h : ReadsBack decode write) (x : α) : decodeText decode (write x) = .ok x := by
  have hread := h.reads x [] endsNumber_nil
  rw [List.append_nil] at hread
  rw [decodeText, hread]
  rfl

/-! ## Parts between commas -/

theorem commaSeparated_cons (gap part : Text) (parts : List Text) :
    commaSeparated gap (part :: parts) = part ++ parts.flatMap fun part => ',' :: (gap ++ part) := by
  induction parts generalizing part with
  | nil => simp [commaSeparated]
  | cons next parts ih =>
    rw [commaSeparated, ih next, List.flatMap_cons]
    · simp
    · simp

theorem length_le_commaSeparated (gap : Text) (parts : List Text) :
    parts.length ≤ (commaSeparated gap parts).length + 1 := by
  cases parts with
  | nil => exact Nat.zero_le _
  | cons part parts =>
    have hparts := List.length_le_sum_of_one_le (parts.map fun part => (',' :: (gap ++ part)).length) (by simp)
    rw [List.length_map, ← List.length_flatMap] at hparts
    rw [commaSeparated_cons, List.length_append, List.length_cons]
    omega

/-- A reader of the parts of an array or an object, one after another, up to the bracket at the end. A part begins
after a gap, or after a comma and a gap if it is not the first. -/
structure ReadsParts {β : Type} (read : Nat → Bool → Decoder (List β)) (spells : Text → β → Prop)
    (last : Char) : Prop where
  endsNumber : ∀ rest, EndsNumber (last :: rest)
  close : ∀ {tail : Text}, Blank tail → ∀ rest fuel first,
    read (fuel + 1) first (tail ++ last :: rest) = .ok ([], rest)
  part : ∀ {gap part more rest : Text} {x : β} {xs : List β} {fuel : Nat}, Blank gap → spells part x →
    EndsNumber more → read fuel false more = .ok (xs, rest) →
    read (fuel + 1) true (gap ++ (part ++ more)) = .ok (x :: xs, rest) ∧
      read (fuel + 1) false (',' :: (gap ++ (part ++ more))) = .ok (x :: xs, rest)

namespace ReadsParts

variable {β : Type} {read : Nat → Bool → Decoder (List β)} {spells : Text → β → Prop} {last : Char}
  {gap tail rest : Text} {parts : List Text} {xs : List β} (h : ReadsParts read spells last)

include h

theorem endsNumber_parts (htail : Blank tail) (parts : List Text) :
    EndsNumber ((parts.flatMap fun part => ',' :: (gap ++ part)) ++ (tail ++ last :: rest)) := by
  cases parts with
  | nil =>
    show EndsNumber (tail ++ last :: rest)
    exact (h.endsNumber rest).append htail
  | cons part parts => exact endsNumber_comma _

/-- **Parts are read** one after another. -/
theorem read_spaced (hgap : Blank gap) (htail : Blank tail) (hparts : List.Forall₂ spells parts xs) {fuel : Nat}
    (hfuel : parts.length < fuel) :
    read fuel false ((parts.flatMap fun part => ',' :: (gap ++ part)) ++ (tail ++ last :: rest)) =
      .ok (xs, rest) := by
  induction hparts generalizing fuel with
  | nil =>
    obtain ⟨fuel, rfl⟩ := Nat.exists_eq_succ_of_ne_zero (Nat.ne_of_gt hfuel)
    exact h.close htail rest fuel false
  | @cons part x parts xs hx _ ih =>
    obtain ⟨fuel, rfl⟩ := Nat.exists_eq_succ_of_ne_zero (Nat.ne_of_gt (Nat.zero_lt_of_lt hfuel))
    rw [List.flatMap_cons, List.append_assoc, List.cons_append, List.append_assoc]
    exact (h.part hgap hx (h.endsNumber_parts htail parts) (ih (Nat.lt_of_succ_lt_succ hfuel))).2

/-- **All parts are read**, with blanks before each of them and before the end. -/
theorem read_commaSeparated (hgap : Blank gap) (htail : Blank tail) (hparts : List.Forall₂ spells parts xs)
    (rest : Text) :
    let t := gap ++ (commaSeparated gap parts ++ (tail ++ last :: rest))
    read (t.length + 1) true t = .ok (xs, rest) := by
  intro t
  have hfuel : parts.length < t.length + 1 := by
    have := length_le_commaSeparated gap parts
    simp only [t, List.length_append, List.length_cons]
    omega
  cases hparts with
  | nil =>
    have ht : t = gap ++ tail ++ last :: rest := by simp [t, commaSeparated]
    rw [ht]
    exact h.close (hgap.append htail) rest _ true
  | @cons part x parts xs hx hxs =>
    have ht : t = gap ++
        (part ++ ((parts.flatMap fun part => ',' :: (gap ++ part)) ++ (tail ++ last :: rest))) := by
      simp only [t, commaSeparated_cons, List.append_assoc]
    have hmore : read t.length false ((parts.flatMap fun part => ',' :: (gap ++ part)) ++
        (tail ++ last :: rest)) = .ok (xs, rest) :=
      h.read_spaced hgap htail hxs (Nat.lt_of_succ_lt_succ hfuel)
    generalize t.length = fuel at hmore
    rw [ht]
    exact (h.part hgap hx (h.endsNumber_parts htail parts) hmore).1

end ReadsParts

/-! ## Arrays -/

section Arrays

variable {α : Type} {item : Decoder α} {gap part : Text} {x : α}

theorem nextItem_part (hgap : Blank gap) (h : Spells item part x) (t : Text) :
    nextItem true (gap ++ (part ++ t)) = .ok (some (part ++ t)) ∧
      nextItem false (',' :: (gap ++ (part ++ t))) = .ok (some (part ++ t)) := by
  obtain ⟨c, u, rfl, hblank, hc⟩ := h.opens
  have hskip : skipBlank (gap ++ (c :: u ++ t)) = c :: (u ++ t) := by
    rw [skipBlank_append hgap, List.cons_append, skipBlank_of_not_isBlank hblank]
  have hcomma : ∀ s, skipBlank (',' :: s) = ',' :: s := fun _ => rfl
  constructor
  · unfold nextItem
    rw [hskip]
    split
    · next heq => cases heq
    · next heq => exact absurd (List.cons.inj heq).1 hc
    · next heq => rw [← heq, if_pos rfl, List.cons_append]
  · unfold nextItem
    rw [hcomma]
    split
    · next heq => cases heq
    · next heq => exact absurd (List.cons.inj heq).1 (by decide)
    · next heq =>
      obtain ⟨rfl, rfl⟩ := List.cons.inj heq
      rw [if_neg Bool.false_ne_true, if_pos rfl, hskip]
      split
      · next heq => cases heq
      · next heq => exact absurd (List.cons.inj heq).1 hc
      · rfl

theorem readsParts_items (item : Decoder α) : ReadsParts (items item) (Spells item) ']' where
  endsNumber := endsNumber_bracket
  close {tail} htail rest fuel first := by
    have hskip : skipBlank (tail ++ ']' :: rest) = ']' :: rest := by
      rw [skipBlank_append htail, skipBlank_of_not_isBlank (by decide)]
    have hnext : nextItem first (tail ++ ']' :: rest) = .ok none := by
      unfold nextItem
      rw [hskip]
      rfl
    have hclose : closeArray (tail ++ ']' :: rest) = .ok rest := by
      unfold closeArray
      rw [hskip]
      rfl
    rw [items, hnext]
    simp only [bind, Except.bind, hclose]
    rfl
  part {gap part more rest x xs fuel} hgap hx hmore hxs := by
    have hitem : ∀ {first t}, nextItem first t = .ok (some (part ++ more)) →
        items item (fuel + 1) first t = .ok (x :: xs, rest) := by
      intro first t hnext
      rw [items, hnext]
      simp only [bind, Except.bind, hx.reads more hmore, hxs]
      rfl
    exact ⟨hitem (nextItem_part hgap hx more).1, hitem (nextItem_part hgap hx more).2⟩

/-- **An array is read back** if its items are. -/
theorem array_written {write : α → Text} (h : ReadsBack item write) (xs : List α) (rest : Text) :
    array item (enclosed '[' ']' (xs.map write) ++ rest) = .ok (xs, rest) := by
  have hitems : List.Forall₂ (Spells item) (xs.map write) xs := by
    rw [List.forall₂_map_left_iff]
    exact List.forall₂_same.2 fun x _ => ⟨h.opens x, h.reads x⟩
  have hread := (readsParts_items item).read_commaSeparated blank_nil blank_nil hitems rest
  have hskip : ∀ t, skipBlank ('[' :: t) = '[' :: t := skipBlank_of_not_isBlank (by decide)
  rw [enclosed, List.cons_append, List.append_assoc, array, hskip]
  exact hread

end Arrays

/-! ## Records -/

section Records

variable {α β : Type} (shape : RecordShape) (f : Field α) (g : Field β)

theorem colon_colon (t : Text) : colon (':' :: t) = .ok t := rfl

theorem nextKey_brace (first : Bool) (t : Text) : nextKey first ('\x7d' :: t) = .ok none := rfl

theorem nextKey_first (t : Text) : nextKey true ('"' :: t) = .ok (some t) := rfl

theorem nextKey_comma (t : Text) : nextKey false (',' :: '"' :: t) = .ok (some t) := rfl

def afterQuote (name : String) (value : Text) : Text :=
  name.toList.flatMap writtenChar ++ '"' :: ':' :: value

section Members

variable {fuel : Nat} {first : Bool} {t value rest : Text}

theorem members_of_first {y : Option β} {a : α} (hkey : nextKey first t = .ok (some (afterQuote f.name value)))
    (ha : f.decode value = .ok (a, rest)) :
    members shape f g (fuel + 1) first none y t = members shape f g fuel false (some a) y rest := by
  rw [members, hkey]
  simp only [bind, Except.bind, afterQuote, stringBody_written, if_true, Field.readMember, colon_colon, ha]

theorem members_of_second {x : Option α} {b : β} (hne : g.name.toList ≠ f.name.toList)
    (hkey : nextKey first t = .ok (some (afterQuote g.name value))) (hb : g.decode value = .ok (b, rest)) :
    members shape f g (fuel + 1) first x none t = members shape f g fuel false x (some b) rest := by
  rw [members, hkey]
  simp only [bind, Except.bind, afterQuote, stringBody_written, if_neg hne, if_true, Field.readMember,
    colon_colon, hb]

theorem members_of_brace {x : Option α} {y : Option β} :
    members shape f g (fuel + 1) first x y ('\x7d' :: rest) = .ok ((x, y), rest) := by
  rw [members, nextKey_brace]
  rfl

end Members

/-- **A record is read back** from an object if its fields are. -/
theorem record_written {a : α} {b : β} {x y : Value} (hne : g.name.toList ≠ f.name.toList)
    (ha : ∀ rest, EndsNumber rest → f.decode (x.compact ++ rest) = .ok (a, rest))
    (hb : ∀ rest, EndsNumber rest → g.decode (y.compact ++ rest) = .ok (b, rest)) (rest : Text) :
    record shape f g ((Value.object [(f.name.toList, x), (g.name.toList, y)]).compact ++ rest) =
      .ok ((a, b), rest) := by
  let last := y.compact ++ '\x7d' :: rest
  let middle := x.compact ++ ',' :: '"' :: afterQuote g.name last
  have htext : (Value.object [(f.name.toList, x), (g.name.toList, y)]).compact ++ rest =
      '\x7b' :: '"' :: afterQuote f.name middle := by
    simp [Value.compact, Value.compactMembers, enclosed, commaSeparated, writtenText, afterQuote, middle, last]
  have hrecord : ∀ t, record shape f g ('\x7b' :: t) =
      members shape f g (t.length + 1) true none none t >>= fun r =>
        f.valueOf r.1.1 >>= fun a => g.valueOf r.1.2 >>= fun b => pure ((a, b), r.2) := fun _ => rfl
  -- the two members and the end of the object are read in three steps
  obtain ⟨fuel, hfuel⟩ : ∃ fuel, ('"' :: afterQuote f.name middle).length + 1 = fuel + 3 :=
    ⟨(afterQuote f.name middle).length - 1, by
      have : 2 ≤ (afterQuote f.name middle).length := by simp [afterQuote]; omega
      rw [List.length_cons]
      omega⟩
  have hmiddle := ha _ (endsNumber_comma ('"' :: afterQuote g.name last))
  rw [htext, hrecord, hfuel, members_of_first shape f g (nextKey_first _) hmiddle,
    members_of_second shape f g hne (nextKey_comma _) (hb _ (endsNumber_brace rest)),
    members_of_brace]
  rfl

end Records

end Json

/-! ## Coordinates -/

theorem readsBack_position : Json.ReadsBack Position.ofJson fun p => p.toJson.compact where
  opens p := by
    refine ⟨'\x7b', _, rfl, ?_, ?_⟩ <;> decide
  reads p rest _ := by
    have hword : ∀ (n : UInt64) (rest : Text), Json.EndsNumber rest →
        Json.word ((Json.Value.number (.natural n)).compact ++ rest) = .ok (n, rest) := fun n _ =>
      Json.word_decimal n
    have hrecord := Json.record_written ⟨"Position", false⟩ ⟨"line", Json.word, none⟩
      ⟨"column", Json.word, none⟩ (by decide) (hword p.line) (hword p.column) rest
    exact congrArg (Except.map _) hrecord

theorem readsBack_location : Json.ReadsBack Location.ofJson fun a => a.toJson.compact where
  opens a := by
    refine ⟨'\x7b', _, rfl, ?_, ?_⟩ <;> decide
  reads a rest _ := by
    have hrecord := Json.record_written ⟨"Location", false⟩ ⟨"from", Position.ofJson, none⟩
      ⟨"to", Position.ofJson, none⟩ (by decide) (readsBack_position.reads a.start)
      (readsBack_position.reads a.stop) rest
    exact congrArg (Except.map _) hrecord

/-! ## Elements -/

namespace Element

/-- The JSON forms of the elements of a type are read back. -/
abbrev ReadsBack (α : Type) [Element α] : Prop :=
  Json.ReadsBack (ofJson : Json.Decoder α) fun x => (toJson x).compact

theorem readsBack_int64 : ReadsBack Int64 where
  opens n := by
    obtain ⟨c, t, hcons, hc⟩ := (Json.Number.isWhole_ofInteger n).written_eq_cons
    refine ⟨c, t, hcons, Json.isBlank_of_number hc, ?_⟩
    rintro rfl
    exact absurd hc (by decide)
  reads n rest := Json.integer_written n

theorem readsBack_char : ReadsBack Char where
  opens c := by
    refine ⟨'"', _, rfl, ?_, ?_⟩ <;> decide
  reads c rest _ := by
    show Json.character (Json.writtenText [c] ++ rest) = _
    exact Json.textual_written (by rfl) rest

theorem readsBack_string : ReadsBack String where
  opens s := by
    refine ⟨'"', _, rfl, ?_, ?_⟩ <;> decide
  reads s rest _ := by
    have htext : Json.text (Json.writtenText s.toList ++ rest) = .ok (s.toList, rest) :=
      Json.textual_written rfl rest
    show (Json.text (Json.writtenText s.toList ++ rest)).map (fun r => (String.ofList r.1, r.2)) = _
    rw [htext, Except.map, String.ofList_toList]

variable {α : Type} [Element α]

theorem encodeList_eq_enclosed (xs : List α) :
    encodeList xs = Json.enclosed '[' ']' (xs.map fun x => (toJson x).compact) := by
  have hitems : ∀ xs : List α, Json.Value.compactItems (xs.map toJson) = xs.map fun x => (toJson x).compact := by
    intro xs
    induction xs with
    | nil => rfl
    | cons x xs ih => rw [List.map_cons, Json.Value.compactItems, ih, List.map_cons]
  rw [encodeList, Json.Value.compact, hitems]

/-- **A list of elements is read back** from its JSON text. -/
theorem decodeText_encodeList (h : ReadsBack α) (xs : List α) :
    Json.decodeText (Json.array ofJson) (encodeList xs) = .ok xs := by
  have hread := Json.array_written h xs []
  rw [List.append_nil, ← encodeList_eq_enclosed] at hread
  rw [Json.decodeText, hread]
  rfl

end Element

end CanonicalText
