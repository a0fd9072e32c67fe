import Mathlib
import CanonicalText.Proofs.Command.Rows
import CanonicalText.Proofs.Json.Documents

/-!
# Printed documents

The JSON format prints one document for characters and their positions, and a line break after it. From the document
the characters can be told, and the positions if they are wanted.

* `value_printed` : the document is read back, with the line break or without it;
* `json_loses_nothing` : what is printed, and what can be told from it.
-/

namespace CanonicalText

open Json (Value)

theorem exact_position (depth : Nat) (p : Position) : p.toJson.Exact (depth + 1) := by
  refine .object fun x hx => ?_
  simp only [List.mem_cons, List.not_mem_nil, or_false] at hx
  rcases hx with rfl | rfl
  · exact .number trivial
  · exact .number trivial

/-- Nothing in a document stands inside more than three brackets. -/
theorem exact_document (depth : Nat) (withPositions : Bool) (ps : List Position) (cs : Text) :
    (document withPositions ps cs).Exact (depth + 3) := by
  have hpositions : (Value.array (ps.map Position.toJson)).Exact (depth + 2) := by
    refine .array fun x hx => ?_
    obtain ⟨p, -, rfl⟩ := List.mem_map.1 hx
    exact exact_position depth p
  refine .object fun x hx => ?_
  rcases List.mem_cons.1 hx with rfl | hx
  · exact .text cs
  · cases withPositions with
    | false => exact absurd hx List.not_mem_nil
    | true =>
      rw [if_pos rfl, List.mem_singleton] at hx
      rw [hx]
      exact hpositions

section Printed

variable (withPositions : Bool) (ps : List Position) (cs : Text)

/-- **A document is told** from what is printed, and nothing is left but the line break. -/
theorem value_printed {rest : Text} (hrest : Json.EndsNumber rest) :
    Json.value ((document withPositions ps cs).pretty ++ rest) = .ok (document withPositions ps cs, rest) :=
  (Json.spells_pretty (exact_document 124 withPositions ps cs) 0).reads rest hrest

theorem decodeText_printed :
    Json.decodeText Json.value ((document withPositions ps cs).pretty ++ ['\n']) =
      .ok (document withPositions ps cs) := by
  have hends : Json.EndsNumber ['\n'] := by
    rintro c ⟨⟩
    decide
  rw [Json.decodeText, value_printed withPositions ps cs hends]
  rfl

theorem getLast?_pretty : (document withPositions ps cs).pretty.getLast? = some '\x7d' := by
  obtain ⟨gap, tail, -, -, hlines⟩ := Json.enclosedLines_eq '\x7b' '\x7d' 0
    (Json.Value.prettyMembers 1 (("text".toList, Value.text cs) ::
      if withPositions then [("positions".toList, .array (ps.map Position.toJson))] else []))
  rw [Json.Value.pretty, document, Json.Value.prettyAt, hlines]
  rw [← List.append_assoc, ← List.append_assoc, ← List.cons_append, List.getLast?_concat]

end Printed

/-- **Documents lose nothing.** The JSON format prints one document and a line break for buffers that belong
together. Its members are the text and, just if positions are wanted, the positions; both decode to what the buffers
show. -/
theorem json_loses_nothing {positions : Buffer Position} {chars : Buffer Char} (h : Paired positions chars)
    (withPositions : Bool) :
    ∃ body members,
      (Formatter.mk .json withPositions).printed positions chars = .ok (body ++ ['\n']) ∧
      body.getLast? = some '\x7d' ∧
      Json.value body = .ok (.object members, []) ∧
      Json.decodeText Json.value (body ++ ['\n']) = .ok (.object members) ∧
      members.map (·.1) = "text".toList :: (if withPositions then ["positions".toList] else []) ∧
      members.lookup "text".toList = some (.text chars.elements) ∧
      (members.lookup "positions".toList).isSome = withPositions ∧
      (∀ v, members.lookup "positions".toList = some v →
        Json.decodeText (Json.array Position.ofJson) v.compact = .ok positions.elements) ∧
      positions.elements.length = chars.elements.length := by
  refine ⟨(document withPositions positions.elements chars.elements).pretty, _, h.printed_eq_ok _,
    getLast?_pretty _ _ _, ?_, decodeText_printed _ _ _, ?_, ?_, ?_, ?_, h.length_elements⟩
  · have hread := value_printed withPositions positions.elements chars.elements Json.endsNumber_nil
    rw [List.append_nil] at hread
    exact hread
  · cases withPositions <;> rfl
  · rfl
  · cases withPositions <;> rfl
  · intro v hv
    cases withPositions with
    | false => cases hv
    | true =>
      obtain rfl : Value.array (positions.elements.map Position.toJson) = v := Option.some.inj hv
      exact Element.decodeText_encodeList readsBack_position positions.elements

/-- A quote and a line break, both of which are escaped, with their positions. -/
theorem json_loses_nothing_of_escapes :
    let printed := ["\x7b", "  \"text\": \"\\\"\\n\",", "  \"positions\": [", "    \x7b", "      \"line\": 0,",
      "      \"column\": 0", "    \x7d,", "    \x7b", "      \"line\": 0,", "      \"column\": 1", "    \x7d", "  ]",
      "\x7d"].flatMap fun line => line.toList ++ ['\n']
    let (positions, chars) := readSplit ['"', '\r', '\n']
    Paired positions chars ∧ (Formatter.mk .json true).printed positions chars = .ok printed ∧
      ∃ members v, Json.decodeText Json.value printed = .ok (.object members) ∧
        members.map (·.1) = ["text".toList, "positions".toList] ∧
        members.lookup "text".toList = some (.text ['"', '\n']) ∧ members.lookup "positions".toList = some v ∧
        Json.decodeText (Json.array Position.ofJson) v.compact = .ok [⟨0, 0⟩, ⟨0, 1⟩] := by
  have hpaired := paired_readSplit ['"', '\r', '\n']
  obtain ⟨body, members, hprinted, -, -, hread, hnames, htext, hsome, hpositions, -⟩ :=
    json_loses_nothing hpaired true
  obtain ⟨v, hv⟩ := Option.isSome_iff_exists.1 hsome
  intro printed
  have hwhole : (Formatter.mk .json true).printed (readSplit ['"', '\r', '\n']).1
      (readSplit ['"', '\r', '\n']).2 = .ok printed := by
    decide +kernel +revert
  rw [Except.ok.inj (hprinted.symm.trans hwhole)] at hread
  exact ⟨hpaired, hwhole, members, v, hread, hnames, htext, hv, hpositions v hv⟩

end CanonicalText
