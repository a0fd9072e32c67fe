import Mathlib
import CanonicalText.Proofs.Command.LineOption
import CanonicalText.Proofs.Command.Selection

/-!
# Lines put together

A run that is asked for one line prints what the formatter makes of the pairs on that line. Most formats print
characters one by one, so what the runs for all lines print is what the run without that option prints.

* `Formatter.render_eq_flatMap` : the formats that print characters one by one;
* `run_eq_printText` : a run on standard input without a configuration;
* `printText_of_line`, `printText_of_lt` : what it prints for a line, and for one that is missing;
* `flatMap_shown_pairsOn` : what is printed for all lines;
* `lines_partition_output` : the runs for all lines, and for all others.
-/

namespace CanonicalText

/-! ## Formats -/

theorem rows_map (row : Position → Char → Text) (items : List (Position × Char)) :
    rows row (items.map (·.1)) (items.map (·.2)) = items.flatMap fun r => row r.1 r.2 ++ ['\n'] := by
  rw [rows, List.zip_map', List.map_id']

namespace Formatter

variable {f : Formatter}

/-- What is printed of one character, in the formats that print them one by one. -/
def item (f : Formatter) (r : Position × Char) : Text :=
  match f.format with
  | .human => if f.withPositions then humanRow r.1 r.2 ++ ['\n'] else [r.2]
  | .machine => machineRow r.1 r.2 ++ ['\n']
  | .json => []

def shown (f : Formatter) (items : List (Position × Char)) : Text :=
  f.render (items.map (·.1)) (items.map (·.2))

/-- **Characters are printed one by one** in all formats but one. -/
theorem shown_eq_flatMap (hf : f.format ≠ .json) (items : List (Position × Char)) :
    f.shown items = items.flatMap f.item := by
  unfold shown render item
  cases hformat : f.format with
  | human =>
    cases f.withPositions with
    | true => exact rows_map humanRow items
    | false => exact List.map_eq_flatMap
  | machine => exact rows_map machineRow items
  | json => exact absurd hformat hf

theorem shown_of_json (hf : f.format = .json) (items : List (Position × Char)) :
    f.shown items =
      (document f.withPositions (items.map (·.1)) (items.map (·.2))).pretty ++ ['\n'] := by
  simp only [shown, render, hf]

theorem printed_eq_shown {positions : Buffer Position} {chars : Buffer Char} {items : List (Position × Char)}
    (hlength : chars.length = positions.length) (hpositions : positions.elements = items.map (·.1))
    (hchars : chars.elements = items.map (·.2)) : f.printed positions chars = .ok (f.shown items) := by
  rw [printed, if_pos hlength, hpositions, hchars, shown]

end Formatter

/-! ## Runs on standard input -/

/-- **A run on standard input** that finds no configuration prints the text as its arguments say. -/
theorem run_eq_printText {args : List Text} {a : Arguments} {world : World} {filter : Log.Filter} {text : Text}
    (hargs : Arguments.parse args = .ok a) (hinput : a.readsStandardInput = true)
    (hconfig : world.entry (configPath a) = .missing) (hfilter : logFilter world = .ok filter)
    (htext : textOfBytes? world.standardInput = some text) :
    (run args world).outcome = printText ⟨a.output.getD .human, a.positions, a.line⟩ text := by
  have hload : (loadConfig world (configPath a)).1 = .default := by
    simp only [loadConfig, hconfig]
  have hworld : world.afterReading (configPath a) = world := by
    simp only [World.afterReading, hconfig]
  have hread : readInput world a = some text := by
    rw [readInput, if_pos hinput, htext]
  have hsettings : Settings.resolve a .default = ⟨a.output.getD .human, a.positions, a.line⟩ := by
    rw [Settings.resolve, Config.default, Bool.or_false]
    cases a.output <;> rfl
  simp only [run, hfilter, hargs, runWith, runLoaded, hload, hworld, hread, hsettings]

section Lines

variable {text : Text} (h : (canonicalize text).length + 1 < UInt64.size) (format : OutputFormat)
  (withPositions : Bool)

include h

theorem printText_of_none :
    printText ⟨format, withPositions, none⟩ text =
      .printed ((Formatter.mk format withPositions).shown (pairs text)) := by
  obtain ⟨hpositions, hchars⟩ := elements_readSplit h
  simp only [printText]
  rw [Formatter.printed_eq_shown (length_readSplit h).2 hpositions hchars]

theorem printText_of_line {line : UInt64} (hline : line.toNat ≤ lineBreaks (canonicalize text)) :
    printText ⟨format, withPositions, some line⟩ text =
      .printed ((Formatter.mk format withPositions).shown (pairsOn text line.toNat)) := by
  obtain ⟨ps, cs, hselect, hlength, hpositions, hchars⟩ := selectLine_readSplit h hline
  simp only [printText, hselect]
  rw [Formatter.printed_eq_shown hlength hpositions hchars]

theorem printText_of_lt {line : UInt64} (hline : lineBreaks (canonicalize text) < line.toNat) :
    printText ⟨format, withPositions, some line⟩ text =
      .failed (.lineOutOfRange line (UInt64.ofNat (lineBreaks (canonicalize text) + 1))) := by
  simp only [printText, selectLine_readSplit_of_lt h hline]

/-- What is printed for the lines, one after another, is what is printed for all of the text. -/
theorem flatMap_shown_pairsOn {f : Formatter} (hf : f.format ≠ .json) :
    (List.range (lineBreaks (canonicalize text) + 1)).flatMap (fun k => f.shown (pairsOn text k)) =
      f.shown (pairs text) := by
  simp only [Formatter.shown_eq_flatMap hf]
  rw [← List.flatMap_assoc, flatMap_pairsOn h]

end Lines

namespace RunError

theorem message_lineOutOfRange {k : Nat} (hk : k < UInt64.size) (count : UInt64) :
    (lineOutOfRange (UInt64.ofNat k) count).message =
      "line ".toList ++ decimal k ++ " out of range".toList := by
  show "line ".toList ++ decimal (UInt64.ofNat k).toNat ++ " out of range".toList = _
  rw [UInt64.toNat_ofNat_of_lt' hk]

theorem help?_lineOutOfRange {n : Nat} (hn : n < UInt64.size) (line : UInt64) :
    (lineOutOfRange line (UInt64.ofNat n)).help? =
      some ("the canonical buffer has ".toList ++ decimal n ++ " lines, numbered from 0".toList) := by
  show some ("the canonical buffer has ".toList ++ decimal (UInt64.ofNat n).toNat ++
    " lines, numbered from 0".toList) = _
  rw [UInt64.toNat_ofNat_of_lt' hn]

end RunError

/-- **The runs for single lines** print the parts of what the run without a line prints, if there is no
configuration and the log has a filter: one after the other, or in JSON in the texts and positions of the documents.
For any other line the run fails, and names the line and how many there are. -/
theorem lines_partition_output {args : List Text} {a : Arguments} {world : World} {filter : Log.Filter}
    {text : Text} (hargs : Arguments.parse args = .ok a) (hline : a.line = none)
    (hinput : a.readsStandardInput = true) (hconfig : world.entry (configPath a) = .missing)
    (hfilter : logFilter world = .ok filter) (htext : textOfBytes? world.standardInput = some text)
    (hlength : text.length < 2 ^ 63) :
    let n := lineBreaks (canonicalize text) + 1
    let f := Formatter.mk (a.output.getD .human) a.positions
    let whole := (run args world).outcome
    let single (k : Nat) := (run ("--line".toList :: decimal k :: args) world).outcome
    whole = .printed (f.shown (pairs text)) ∧ whole.exitStatus = 0 ∧
    (∀ k < n, single k = .printed (f.shown (pairsOn text k)) ∧ (single k).exitStatus = 0) ∧
    (f.format ≠ .json →
      (List.range n).flatMap (fun k => (single k).standardOutput) = whole.standardOutput) ∧
    (f.format = .json →
      whole.standardOutput =
        (document a.positions ((pairs text).map (·.1)) (canonicalize text)).pretty ++ ['\n'] ∧
      (∀ k < n, (single k).standardOutput =
        (document a.positions ((pairsOn text k).map (·.1)) ((pairsOn text k).map (·.2))).pretty ++ ['\n']) ∧
      (List.range n).flatMap (fun k => (pairsOn text k).map (·.2)) = canonicalize text ∧
      (List.range n).flatMap (fun k => (pairsOn text k).map (·.1)) = (pairs text).map (·.1)) ∧
    ∀ k, n ≤ k → k < UInt64.size →
      ∃ e, single k = .failed e ∧ (single k).exitStatus = 1 ∧ (single k).standardOutput = [] ∧
        e.code = "cbread::line_out_of_range".toList ∧
        e.message = "line ".toList ++ decimal k ++ " out of range".toList ∧
        e.help? = some ("the canonical buffer has ".toList ++ decimal n ++
          " lines, numbered from 0".toList) := by
  intro n f whole single
  have hcanonical := length_canonicalize text
  have hpairs := length_pairs_le text
  have hshort : (canonicalize text).length + 1 < UInt64.size := by
    simp only [UInt64.size]
    omega
  have hn : n ≤ (canonicalize text).length + 1 := Nat.succ_le_succ (lineBreaks_le_length _)
  have hparts : (List.range n).flatMap (pairsOn text) = pairs text := flatMap_pairsOn hshort
  have hwhole : whole = .printed (f.shown (pairs text)) := by
    have hrun : whole = _ := run_eq_printText hargs hinput hconfig hfilter htext
    rw [hrun, hline, printText_of_none hshort]
  have hrun : ∀ k < UInt64.size, single k =
      printText ⟨a.output.getD .human, a.positions, some (UInt64.ofNat k)⟩ text := fun k hk =>
    run_eq_printText (Arguments.parse_line_cons hargs hline hk) hinput hconfig hfilter htext
  have hsingle : ∀ k < n, single k = .printed (f.shown (pairsOn text k)) := by
    intro k hk
    have hword : (UInt64.ofNat k).toNat = k := UInt64.toNat_ofNat_of_lt' (by omega)
    rw [hrun k (by omega), printText_of_line hshort _ _ (by omega), hword]
  refine ⟨hwhole, ?_, fun k hk => ⟨hsingle k hk, ?_⟩, ?_, ?_, ?_⟩
  · rw [hwhole]
    rfl
  · rw [hsingle k hk]
    rfl
  · intro hformat
    have houtputs : ∀ k ∈ List.range n, (single k).standardOutput = f.shown (pairsOn text k) := by
      intro k hk
      rw [hsingle k (List.mem_range.1 hk)]
      rfl
    rw [List.flatMap_congr houtputs, hwhole]
    exact flatMap_shown_pairsOn hshort hformat
  · intro hformat
    refine ⟨?_, fun k hk => ?_, ?_, ?_⟩
    · rw [hwhole]
      exact Formatter.shown_of_json hformat (pairs text)
    · rw [hsingle k hk]
      exact Formatter.shown_of_json hformat (pairsOn text k)
    · rw [← List.map_flatMap, hparts, canonicalize]
    · rw [← List.map_flatMap, hparts]
  · intro k hk hword
    have hline : (UInt64.ofNat k).toNat = k := UInt64.toNat_ofNat_of_lt' hword
    have hfailed : single k = .failed (.lineOutOfRange (UInt64.ofNat k) (UInt64.ofNat n)) := by
      rw [hrun k hword, printText_of_lt hshort _ _ (by omega)]
    refine ⟨_, hfailed, ?_, ?_, rfl, RunError.message_lineOutOfRange hword _,
      RunError.help?_lineOutOfRange (by omega) _⟩
    · rw [hfailed]
      rfl
    · rw [hfailed]
      rfl

/-- A text of two lines and an empty third one, with breaks of two kinds. The runs for the three lines print
the rows of all characters; the greatest word is the number of no line. -/
theorem lines_partition_output_of_mixed_breaks :
    let world : World := .ofEntries [] ⟨#[97, 13, 10, 98, 13]⟩ []
    let args := ["--output".toList, "machine".toList]
    let single (k : Nat) := (run ("--line".toList :: decimal k :: args) world).outcome
    (run args world).outcome.standardOutput = "0:0:U+0061\n0:1:U+000A\n1:0:U+0062\n1:1:U+000A\n".toList ∧
      (List.range 3).flatMap (fun k => (single k).standardOutput) =
        (run args world).outcome.standardOutput ∧
      (single 1).standardOutput = "1:0:U+0062\n1:1:U+000A\n".toList ∧ single 2 = .printed [] ∧
      ∃ e, single (2 ^ 64 - 1) = .failed e ∧
        e.help? = some "the canonical buffer has 3 lines, numbered from 0".toList := by
  intro world args single
  let a : Arguments := ⟨['-'], some .machine, false, none, none⟩
  have hargs : Arguments.parse args = .ok a := by decide
  have hfilter : logFilter world = .ok .default := rfl
  have htext : textOfBytes? world.standardInput = some ['a', '\r', '\n', 'b', '\r'] := by decide
  obtain ⟨hwhole, -, hsingle, hrows, -, hmissing⟩ :=
    lines_partition_output hargs rfl (by decide) rfl hfilter htext (by decide)
  obtain ⟨e, hfailed, -, -, -, -, hhelp⟩ := hmissing (2 ^ 64 - 1) (by decide) (by decide)
  have hempty : single 2 = .printed [] := (hsingle 2 (by decide)).1.trans (by decide)
  refine ⟨?_, hrows (by decide), ?_, hempty, e, hfailed, hhelp.trans (by decide)⟩
  · exact (congrArg Outcome.standardOutput hwhole).trans (by decide)
  · exact (congrArg Outcome.standardOutput (hsingle 1 (by decide)).1).trans (by decide)

end CanonicalText
