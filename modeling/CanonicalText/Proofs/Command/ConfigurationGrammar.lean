import Mathlib
import CanonicalText.Proofs.Command.Configuration
import CanonicalText.Proofs.Json.Reading

/-!
# The grammar of configurations

A text is a configuration if it is one JSON value of a certain shape, with blanks around its tokens or without, and
then the configuration is what this value says. Nothing else can be parsed.

* `Config.OutputSaid`, `Config.Said` : what values say;
* `Config.decode_reads` : the decoder of configurations reads these values;
* `Config.parse_grammar` : which texts are configurations, and that neither blanks nor the order of keys matter.
-/

namespace CanonicalText

namespace Config

open Json

/-! ## What values say -/

/-- The output that a value asks for: null asks for none, and the name of a format for this format, by itself or as
the only key of an object, for null. -/
inductive OutputSaid : SyntaxTree → Option OutputFormat → Prop
  | nothing : OutputSaid .null none
  | name (o : OutputFormat) : OutputSaid (.text o.spelled) (some o)
  | key (o : OutputFormat) : OutputSaid (.object [(o.spelled, .null)]) (some o)

def PositionsSaid (v : SyntaxTree) (positions : Bool) : Prop := v = .boolean positions

/-- The configuration that a value is: an object that has no keys but the output and the positions, and each of them
at most once, or an array of at most two items, the output and the positions. What is absent is the default. -/
inductive Said : SyntaxTree → Config → Prop
  | object {members : List (Text × SyntaxTree)} {c : Config} (hnodup : (members.map Prod.fst).Nodup)
      (hkeys : ∀ m ∈ members, m.1 = "output".toList ∨ m.1 = "positions".toList)
      (houtput : Says OutputSaid (some none) (fun v => ("output".toList, v) ∈ members) c.output)
      (hpositions : Says PositionsSaid (some false) (fun v => ("positions".toList, v) ∈ members) c.positions) :
      Said (.object members) c
  | array {items : List SyntaxTree} {c : Config} (hlength : items.length ≤ 2)
      (houtput : Says OutputSaid (some none) (fun v => items[0]? = some v) c.output)
      (hpositions : Says PositionsSaid (some false) (fun v => items[1]? = some v) c.positions) :
      Said (.array items) c

theorem named_iff {name : Text} {o : OutputFormat} : Named OutputFormat.names name o ↔ name = o.spelled := by
  constructor
  · rintro ⟨v, hfind, rfl⟩
    have hname : v.1.toList = name := by simpa using List.find?_some hfind
    have hmem := List.mem_of_find?_eq_some hfind
    simp only [OutputFormat.names, List.mem_cons, List.not_mem_nil, or_false] at hmem
    rcases hmem with rfl | rfl | rfl <;> exact hname.symm
  · rintro rfl
    cases o <;> exact ⟨_, rfl, rfl⟩

theorem output_reads : Reads (option (variant OutputFormat.names)) OutputSaid := by
  have hmeans : OutputSaid = OrNull (Variant OutputFormat.names) := by
    funext v o
    refine propext ⟨?_, ?_⟩
    · rintro (_ | o | o)
      · exact .null
      · exact .value (.name (named_iff.2 rfl))
      · exact .value (.key (named_iff.2 rfl))
    · rintro (_ | ⟨h | h⟩)
      · exact .nothing
      · exact named_iff.1 h ▸ .name _
      · exact named_iff.1 h ▸ .key _
  rw [hmeans]
  exact option_reads (variant_reads _) (by rintro o ⟨⟩)

/-- Configurations are read as what they say. -/
theorem decode_reads : Reads decode Said := by
  intro t c rest
  have hread : Reads (record ⟨"CbreadConfig", true⟩ _ _) _ :=
    record_reads (f := ⟨"output", option (variant OutputFormat.names), some none⟩)
      (g := ⟨"positions", boolean, some false⟩) output_reads boolean_reads rfl (by decide)
  unfold decode
  rw [map_eq_ok_iff]
  constructor
  · rintro ⟨⟨⟨o, b⟩, rest⟩, hrecord, ⟨⟩⟩
    obtain ⟨v, hv, hbegins⟩ := (hread _ _ _).1 hrecord
    refine ⟨v, ?_, hbegins⟩
    cases hv with
    | object hnodup hnames ho hb => exact .object hnodup hnames ho hb
    | array hlength ho hb => exact .array hlength ho hb
  · rintro ⟨v, hv, hbegins⟩
    refine ⟨((c.output, c.positions), rest), (hread _ _ _).2 ⟨v, ?_, hbegins⟩, rfl⟩
    cases hv with
    | object hnodup hnames ho hb => exact .object hnodup hnames ho hb
    | array hlength ho hb => exact .array hlength ho hb

/-! ## Blanks and the order of keys -/

theorem OutputSaid.numeralFree {v : SyntaxTree} {o : Option OutputFormat} (h : OutputSaid v o) :
    NumeralFree v.tokens := by
  cases h with
  | nothing => simp [SyntaxTree.tokens]
  | name o => simp [SyntaxTree.tokens]
  | key o =>
    rw [numeralFree_object_iff]
    simp [SyntaxTree.tokens]

theorem PositionsSaid.numeralFree {v : SyntaxTree} {b : Bool} (h : PositionsSaid v b) : NumeralFree v.tokens := by
  rw [h]
  simp [SyntaxTree.tokens]

theorem Said.numeralFree {v : SyntaxTree} {c : Config} (h : Said v c) : NumeralFree v.tokens := by
  cases h with
  | object hnodup hkeys houtput hpositions =>
    have hunique : ∀ key v w, (key, v) ∈ _ → (key, w) ∈ _ → v = w := fun key v w hv hw =>
      (Prod.ext_iff.1 (List.inj_on_of_nodup_map hnodup hv hw rfl)).2
    rw [numeralFree_object_iff]
    rintro ⟨key, v⟩ hv
    rcases hkeys _ hv with rfl | rfl
    · exact (houtput.means (hunique _) hv).numeralFree
    · exact (hpositions.means (hunique _) hv).numeralFree
  | @array items _ hlength houtput hpositions =>
    rw [numeralFree_array_iff]
    intro v hv
    obtain ⟨i, hi, rfl⟩ := List.getElem_of_mem hv
    have hunique : ∀ (i : Nat) (v w : SyntaxTree), items[i]? = some v → items[i]? = some w → v = w :=
      fun i v w hv hw => Option.some.inj (hv.symm.trans hw)
    have hplace : i = 0 ∨ i = 1 := by omega
    rcases hplace with rfl | rfl
    · exact (houtput.means (hunique 0) (List.getElem?_eq_getElem hi)).numeralFree
    · exact (hpositions.means (hunique 1) (List.getElem?_eq_getElem hi)).numeralFree

theorem Said.perm {members members' : List (Text × SyntaxTree)} {c : Config} (hperm : members.Perm members')
    (h : Said (.object members) c) : Said (.object members') c := by
  cases h with
  | object hnodup hkeys houtput hpositions =>
    refine .object ((hperm.map _).nodup_iff.1 hnodup) (fun m hm => hkeys m (hperm.mem_iff.2 hm)) ?_ ?_
    · simpa only [hperm.mem_iff] using houtput
    · simpa only [hperm.mem_iff] using hpositions

theorem parse_eq_ok_iff {t : Text} {c : Config} : parse t = .ok c ↔ ∃ v, Said v c ∧ Spaced v.tokens t :=
  decode_reads.decodeText_eq_ok_iff

theorem parse_of_spaced {ts : List Token} {t u : Text} {c : Config} (ht : Spaced ts t) (hu : Spaced ts u)
    (h : parse t = .ok c) : parse u = .ok c := by
  obtain ⟨v, hv, hspaced⟩ := parse_eq_ok_iff.1 h
  obtain rfl := hspaced.eq hv.numeralFree ht
  exact parse_eq_ok_iff.2 ⟨v, hv, hu⟩

theorem parse_of_perm {members members' : List (Text × SyntaxTree)} {t u : Text} {c : Config}
    (hperm : members.Perm members') (ht : Spaced (SyntaxTree.object members).tokens t)
    (hu : Spaced (SyntaxTree.object members').tokens u) (h : parse t = .ok c) : parse u = .ok c := by
  obtain ⟨v, hv, hspaced⟩ := parse_eq_ok_iff.1 h
  obtain rfl := SyntaxTree.tokens_inj (hspaced.eq hv.numeralFree ht)
  exact parse_eq_ok_iff.2 ⟨_, hv.perm hperm, hu⟩

/-- **The grammar of configurations.** A text is parsed as a configuration if and only if it holds the tokens of one
value, with blanks around them or without, and the value says this configuration. Neither the blanks matter nor the
order of keys. -/
theorem parse_grammar :
    (∀ t c, parse t = .ok c ↔ ∃ v, Said v c ∧ Spaced v.tokens t) ∧
      (∀ ts t u, Spaced ts t → Spaced ts u → ∀ c, parse t = .ok c ↔ parse u = .ok c) ∧
      ∀ members members' t u, members.Perm members' → Spaced (SyntaxTree.object members).tokens t →
        Spaced (SyntaxTree.object members').tokens u → ∀ c, parse t = .ok c ↔ parse u = .ok c := by
  refine ⟨fun t c => parse_eq_ok_iff, fun ts t u ht hu c => ⟨?_, ?_⟩,
    fun members members' t u hperm ht hu c => ⟨?_, ?_⟩⟩
  · exact parse_of_spaced ht hu
  · exact parse_of_spaced hu ht
  · exact parse_of_perm hperm ht hu
  · exact parse_of_perm hperm.symm hu ht

/-- An array with blanks and without, and an object with its keys in either order, one of them with an escape. -/
theorem parse_output_and_positions :
    parse "[\"json\",true]".toList = .ok ⟨some .json, true⟩ ∧
      (∀ c, parse "[\"json\",true]".toList = .ok c ↔ parse " [ \"json\" , true ]\n".toList = .ok c) ∧
      ∀ c, parse "\x7b\"output\":\"json\",\"positions\":true\x7d".toList = .ok c ↔
        parse "\x7b \"positions\" : true, \"out\\u0070ut\": \"json\" \x7d".toList = .ok c := by
  have hspaced : Spaced (SyntaxTree.array [.text "json".toList, .boolean true]).tokens
      "[\"json\",true]".toList := spaced_of_isSpaced (by decide)
  have hspaced' : Spaced (SyntaxTree.array [.text "json".toList, .boolean true]).tokens
      " [ \"json\" , true ]\n".toList := spaced_of_isSpaced (by decide)
  have hobject : Spaced (SyntaxTree.object [("output".toList, .text "json".toList),
      ("positions".toList, .boolean true)]).tokens "\x7b\"output\":\"json\",\"positions\":true\x7d".toList :=
    spaced_of_isSpaced (by decide)
  have hobject' : Spaced (SyntaxTree.object [("positions".toList, .boolean true),
      ("output".toList, .text "json".toList)]).tokens
      "\x7b \"positions\" : true, \"out\\u0070ut\": \"json\" \x7d".toList := spaced_of_isSpaced (by decide)
  refine ⟨(parse_grammar.1 _ _).2 ⟨_, ?_, hspaced⟩, parse_grammar.2.1 _ _ _ hspaced hspaced',
    parse_grammar.2.2 _ _ _ _ (.swap _ _ _) hobject hobject'⟩
  exact .array (by decide) (.given rfl (.name .json)) (.given rfl rfl)

end Config

end CanonicalText
