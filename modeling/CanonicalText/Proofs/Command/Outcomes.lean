import Mathlib
import CanonicalText.Proofs.Command.Input
import CanonicalText.Proofs.Command.Partition

/-!
# How runs end

A run ends in one of six ways, and which one it is can be told without running it: from the command line, then
from the input, then from the number of its lines. Nothing is printed unless the run ends well.

* `lineCount`, `HasLine`, `pairsAt` : the lines of a text, and the pairs that a run prints;
* `printText_of_hasLine`, `printText_of_not_hasLine` : what printing comes to;
* `Ends` : the ways in which runs end;
* `outcome_eq_iff_ends` : a run ends as these say;
* `run_ends_in_one_way` : the exit status, the error code and the output.
-/

namespace CanonicalText

/-! ## The line that is printed -/

def lineCount (text : Text) : Nat := lineBreaks (canonicalize text) + 1

/-- Whether a text has the line that is asked for, if there is one. -/
def HasLine (text : Text) (line : Option UInt64) : Prop := ∀ k ∈ line, k.toNat < lineCount text

/-- The pairs on the line that is asked for, or all of them. -/
def pairsAt (text : Text) : Option UInt64 → List (Position × Char)
  | none => pairs text
  | some line => pairsOn text line.toNat

section Print

variable {text : Text} (h : text.length < 2 ^ 63) (settings : Settings)

include h

theorem printText_of_hasLine (hline : HasLine text settings.line) :
    printText settings text =
      .printed ((Formatter.mk settings.output settings.positions).shown (pairsAt text settings.line)) := by
  obtain ⟨output, positions, line⟩ := settings
  cases line with
  | none => exact printText_of_none (length_canonicalize_lt h) output positions
  | some k =>
    have hk : k.toNat < lineCount text := hline k rfl
    exact printText_of_line (length_canonicalize_lt h) output positions (Nat.le_of_lt_succ hk)

theorem printText_of_not_hasLine {k : UInt64} (hk : settings.line = some k) (hline : lineCount text ≤ k.toNat) :
    printText settings text = .failed (.lineOutOfRange k (UInt64.ofNat (lineCount text))) := by
  obtain ⟨output, positions, line⟩ := settings
  obtain rfl : line = some k := hk
  exact printText_of_lt (length_canonicalize_lt h) output positions hline

end Print

/-! ## Runs by their arguments -/

section Runs

variable {args : List Text} {a : Arguments} {world : World} {filter : Log.Filter}

theorem entry_afterReading (w : World) (path : Text) : (w.afterReading path).entry = w.entry := by
  unfold World.afterReading
  split <;> rfl

/-- What a run goes by: its command line, and the configuration that it finds. -/
def settingsOf (world : World) (a : Arguments) : Settings :=
  Settings.resolve a (loadConfig world (configPath a)).1

/-- Whether there is no input for a run. The configuration is read first, so nothing is left of standard input
if that was the configuration. -/
def Arguments.LacksInput (a : Arguments) (world : World) : Prop :=
  (world.afterReading (configPath a)).Refuses (inputEntry world a)

/-- Whether a text is the input of a run. -/
def Arguments.Reads (a : Arguments) (world : World) (text : Text) : Prop :=
  (world.afterReading (configPath a)).Holds (inputEntry world a) text

theorem inputEntry_afterReading (path : Text) : inputEntry (world.afterReading path) a = inputEntry world a := by
  rw [inputEntry, inputEntry, entry_afterReading]

theorem readInput_eq_none_iff_lacksInput :
    readInput (world.afterReading (configPath a)) a = none ↔ a.LacksInput world := by
  rw [readInput_eq_none_iff, inputEntry_afterReading, Arguments.LacksInput]

theorem readInput_eq_some_iff_reads {text : Text} :
    readInput (world.afterReading (configPath a)) a = some text ↔ a.Reads world text := by
  rw [readInput_eq_some_iff, inputEntry_afterReading, Arguments.Reads]

theorem Arguments.lacksInput_or_reads (a : Arguments) (world : World) :
    a.LacksInput world ∨ ∃ text, a.Reads world text := by
  cases h : readInput (world.afterReading (configPath a)) a with
  | none => exact .inl (readInput_eq_none_iff_lacksInput.1 h)
  | some text => exact .inr ⟨text, readInput_eq_some_iff_reads.1 h⟩

theorem Arguments.Reads.length_lt {text : Text} (h : a.Reads world text) (hworld : world.Bounded) :
    text.length < 2 ^ 63 := by
  rw [Arguments.Reads, ← inputEntry_afterReading (configPath a)] at h
  exact (hworld.afterReading (configPath a)).length_lt h

variable (hfilter : logFilter world = .ok filter)

include hfilter

theorem outcome_of_lacksInput (hargs : Arguments.parse args = .ok a) (h : a.LacksInput world) :
    (run args world).outcome = .failed (.unreadableInput a.input) := by
  simp only [run, hfilter, hargs, runWith, runLoaded, readInput_eq_none_iff_lacksInput.2 h]

theorem outcome_of_reads {text : Text} (hargs : Arguments.parse args = .ok a) (h : a.Reads world text) :
    (run args world).outcome = printText (settingsOf world a) text := by
  simp only [run, hfilter, hargs, runWith, runLoaded, readInput_eq_some_iff_reads.2 h, settingsOf]

end Runs

/-! ## The ways in which runs end -/

/-- How a run ends. The command line decides first, then the input, and the lines of the input at last. -/
inductive Ends (args : List Text) (world : World) : Outcome → Prop where
  | help (h : Arguments.parse args = .error .help) : Ends args world .help
  | version (h : Arguments.parse args = .error .version) : Ends args world .version
  | usage {e : UsageError} (h : Arguments.parse args = .error (.usage e)) : Ends args world (.usage e)
  | unreadableInput {a : Arguments} (h : Arguments.parse args = .ok a) (hinput : a.LacksInput world) :
      Ends args world (.failed (.unreadableInput a.input))
  | lineOutOfRange {a : Arguments} {text : Text} {k : UInt64} (h : Arguments.parse args = .ok a)
      (hinput : a.Reads world text) (hk : a.line = some k) (hline : lineCount text ≤ k.toNat) :
      Ends args world (.failed (.lineOutOfRange k (UInt64.ofNat (lineCount text))))
  | printed {a : Arguments} {text : Text} (h : Arguments.parse args = .ok a) (hinput : a.Reads world text)
      (hline : HasLine text a.line) :
      Ends args world (.printed ((Formatter.mk (settingsOf world a).output (settingsOf world a).positions).shown
        (pairsAt text a.line)))

section Ways

variable {args : List Text} {world : World} {filter : Log.Filter} {o : Outcome}
  (hfilter : logFilter world = .ok filter) (hworld : world.Bounded)

include hfilter hworld

theorem Ends.outcome_eq (h : Ends args world o) : (run args world).outcome = o := by
  cases h with
  | help h => simp only [run, hfilter, h]
  | version h => simp only [run, hfilter, h]
  | usage h => simp only [run, hfilter, h]
  | unreadableInput h hinput => exact outcome_of_lacksInput hfilter h hinput
  | lineOutOfRange h hinput hk hline =>
    rw [outcome_of_reads hfilter h hinput]
    exact printText_of_not_hasLine (hinput.length_lt hworld) _ hk hline
  | printed h hinput hline =>
    rw [outcome_of_reads hfilter h hinput]
    exact printText_of_hasLine (hinput.length_lt hworld) _ hline

theorem ends_outcome (args : List Text) : Ends args world (run args world).outcome := by
  obtain ⟨o, h⟩ : ∃ o, Ends args world o := by
    cases hargs : Arguments.parse args with
    | error stop =>
      cases stop with
      | help => exact ⟨_, .help hargs⟩
      | version => exact ⟨_, .version hargs⟩
      | usage e => exact ⟨_, .usage hargs⟩
    | ok a =>
      rcases a.lacksInput_or_reads world with hinput | ⟨text, hinput⟩
      · exact ⟨_, .unreadableInput hargs hinput⟩
      · by_cases hline : HasLine text a.line
        · exact ⟨_, .printed hargs hinput hline⟩
        · unfold HasLine at hline
          push Not at hline
          obtain ⟨k, hk, hcount⟩ := hline
          exact ⟨_, .lineOutOfRange hargs hinput hk hcount⟩
  rw [h.outcome_eq hfilter hworld]
  exact h

/-- **A run ends in one way**, the one that its arguments and its input call for. -/
theorem outcome_eq_iff_ends : (run args world).outcome = o ↔ Ends args world o := by
  constructor
  · rintro rfl
    exact ends_outcome hfilter hworld args
  · exact Ends.outcome_eq hfilter hworld

end Ways

def Outcome.errorCode? : Outcome → Option Text
  | failed e => some e.code
  | _ => none

theorem code_ne : "cbread::read_input".toList ≠ "cbread::line_out_of_range".toList := by decide

namespace Ends

variable {args : List Text} {world : World} {o : Outcome} (h : Ends args world o)

include h

theorem exitStatus_cases : o.exitStatus = 0 ∨ o.exitStatus = 1 ∨ o.exitStatus = 2 := by
  cases h with
  | help => exact .inl rfl
  | version => exact .inl rfl
  | usage => exact .inr (.inr rfl)
  | unreadableInput => exact .inr (.inl rfl)
  | lineOutOfRange => exact .inr (.inl rfl)
  | printed => exact .inl rfl

theorem exitStatus_eq_zero_iff : o.exitStatus = 0 ↔ o = .help ∨ o = .version ∨ ∃ text, o = .printed text := by
  cases h with
  | help => exact ⟨fun _ => .inl rfl, fun _ => rfl⟩
  | version => exact ⟨fun _ => .inr (.inl rfl), fun _ => rfl⟩
  | printed => exact ⟨fun _ => .inr (.inr ⟨_, rfl⟩), fun _ => rfl⟩
  | _ => simp [Outcome.exitStatus]

theorem parse_of_help (ho : o = .help) : Arguments.parse args = .error .help := by
  cases h with
  | help h => exact h
  | _ => cases ho

theorem parse_of_version (ho : o = .version) : Arguments.parse args = .error .version := by
  cases h with
  | version h => exact h
  | _ => cases ho

theorem usage_of_exitStatus (hstatus : o.exitStatus = 2) : ∃ e, Arguments.parse args = .error (.usage e) := by
  cases h with
  | usage h => exact ⟨_, h⟩
  | _ => cases hstatus

theorem lacksInput_of_errorCode? (hcode : o.errorCode? = some "cbread::read_input".toList) :
    ∃ a, Arguments.parse args = .ok a ∧ a.LacksInput world := by
  cases h with
  | unreadableInput h hinput => exact ⟨_, h, hinput⟩
  | lineOutOfRange => exact absurd (Option.some.inj hcode).symm code_ne
  | _ => cases hcode

theorem line_of_errorCode? (hcode : o.errorCode? = some "cbread::line_out_of_range".toList) :
    ∃ a text k, Arguments.parse args = .ok a ∧ a.Reads world text ∧ a.line = some k ∧
      lineCount text ≤ k.toNat := by
  cases h with
  | unreadableInput => exact absurd (Option.some.inj hcode) code_ne
  | lineOutOfRange h hinput hk hline => exact ⟨_, _, _, h, hinput, hk, hline⟩
  | _ => cases hcode

theorem exitStatus_eq_one_iff : o.exitStatus = 1 ↔
    o.errorCode? = some "cbread::read_input".toList ∨
      o.errorCode? = some "cbread::line_out_of_range".toList := by
  cases h with
  | unreadableInput => exact ⟨fun _ => .inl rfl, fun _ => rfl⟩
  | lineOutOfRange => exact ⟨fun _ => .inr rfl, fun _ => rfl⟩
  | _ => simp [Outcome.exitStatus, Outcome.errorCode?]

theorem standardOutput_eq_nil (hstatus : o.exitStatus ≠ 0) : o.standardOutput = [] := by
  cases h with
  | usage => rfl
  | unreadableInput => rfl
  | lineOutOfRange => rfl
  | _ => exact absurd rfl hstatus

end Ends

/-- **A run ends in one of six ways** when the log has a filter, and never breaks off: with its help, its version, a
refusal of the command line, a failure for its input or for its line, in this order, or else with what the formatter
makes of the pairs on the line. What fails prints nothing. -/
theorem run_ends_in_one_way {world : World} {filter : Log.Filter} (hfilter : logFilter world = .ok filter)
    (hworld : world.Bounded) (args : List Text) :
    let o := (run args world).outcome
    (∀ way, Ends args world way ↔ o = way) ∧
    (o.exitStatus = 0 ∨ o.exitStatus = 1 ∨ o.exitStatus = 2) ∧
    (o.exitStatus = 0 ↔ o = .help ∨ o = .version ∨ ∃ text, o = .printed text) ∧
    (o = .help ↔ Arguments.parse args = .error .help) ∧
    (o = .version ↔ Arguments.parse args = .error .version) ∧
    (o.exitStatus = 2 ↔ ∃ e, Arguments.parse args = .error (.usage e)) ∧
    (o.exitStatus = 1 ↔ o.errorCode? = some "cbread::read_input".toList ∨
      o.errorCode? = some "cbread::line_out_of_range".toList) ∧
    (o.errorCode? = some "cbread::read_input".toList ↔
      ∃ a, Arguments.parse args = .ok a ∧ a.LacksInput world) ∧
    (o.errorCode? = some "cbread::line_out_of_range".toList ↔
      ∃ a text k, Arguments.parse args = .ok a ∧ a.Reads world text ∧ a.line = some k ∧
        lineCount text ≤ k.toNat) ∧
    (∀ a text, Arguments.parse args = .ok a → a.Reads world text → HasLine text a.line →
      let settings := settingsOf world a
      o = .printed ((Formatter.mk settings.output settings.positions).shown (pairsAt text settings.line))) ∧
    (o.exitStatus ≠ 0 → o.standardOutput = []) := by
  intro o
  have hends : Ends args world o := ends_outcome hfilter hworld args
  have heq : ∀ {way : Outcome}, Ends args world way → o = way := fun h => h.outcome_eq hfilter hworld
  refine ⟨fun way => (outcome_eq_iff_ends hfilter hworld).symm, hends.exitStatus_cases,
    hends.exitStatus_eq_zero_iff, ⟨hends.parse_of_help, fun h => heq (.help h)⟩,
    ⟨hends.parse_of_version, fun h => heq (.version h)⟩, ⟨hends.usage_of_exitStatus, ?_⟩,
    hends.exitStatus_eq_one_iff, ⟨hends.lacksInput_of_errorCode?, ?_⟩, ⟨hends.line_of_errorCode?, ?_⟩,
    fun a text h hinput hline => heq (.printed h hinput hline), hends.standardOutput_eq_nil⟩
  · rintro ⟨e, h⟩
    rw [heq (.usage h)]
    rfl
  · rintro ⟨a, h, hinput⟩
    rw [heq (.unreadableInput h hinput)]
    rfl
  · rintro ⟨a, text, k, h, hinput, hk, hline⟩
    rw [heq (.lineOutOfRange h hinput hk hline)]
    rfl

/-- A line of a text with breaks of two kinds, under a configuration that asks for positions; a line that the text
does not have; and a file that is missing, which decides before the line does. -/
theorem run_ends_in_one_way_of_second_line :
    let config : ByteArray := bytesOf "\x7b\"positions\":true\x7d".toList
    let world : World := .ofEntries [("c".toList, .file config)] ⟨#[97, 13, 10, 98, 13]⟩ []
    let second := (run ["--config".toList, "c".toList, "--line".toList, "1".toList] world).outcome
    let missing := (run ["--line".toList, "18446744073709551615".toList] world).outcome
    let absent := (run ["--line".toList, "7".toList, "d".toList] world).outcome
    second = .printed "1:0 'b'\n1:1 '\\n'\n".toList ∧
      missing.errorCode? = some "cbread::line_out_of_range".toList ∧ missing.standardOutput = [] ∧
      absent.errorCode? = some "cbread::read_input".toList ∧ absent.standardOutput = [] := by
  intro config world second missing absent
  have hfilter : logFilter world = .ok .default := rfl
  have hworld : world.Bounded := by
    refine ⟨by decide, fun path content h => ?_⟩
    have hentry : world.entry path = if path == "c".toList then .file config else .missing := by
      show (List.lookup path [("c".toList, Entry.file config)]).getD .missing = _
      rw [List.lookup_cons]
      cases path == "c".toList <;> rfl
    rw [hentry] at h
    split at h
    · cases h
      decide
    · cases h
  let text : Text := ['a', '\r', '\n', 'b', '\r']
  have htext : world.standardInput = bytesOf text := textOfBytes?_eq_some_iff.1 (by decide)
  have hargs : Arguments.parse ["--config".toList, "c".toList, "--line".toList, "1".toList] =
      .ok ⟨['-'], none, false, some 1, some ['c']⟩ := by decide
  have hargs' : Arguments.parse ["--line".toList, "18446744073709551615".toList] =
      .ok ⟨['-'], none, false, some 18446744073709551615, none⟩ := by decide
  have hargs'' : Arguments.parse ["--line".toList, "7".toList, "d".toList] =
      .ok ⟨['d'], none, false, some 7, none⟩ := by decide
  have hline : HasLine text (some 1) := by
    rintro k ⟨⟩
    decide
  obtain ⟨-, -, -, -, -, -, -, -, -, hprinted, -⟩ := run_ends_in_one_way hfilter hworld
    ["--config".toList, "c".toList, "--line".toList, "1".toList]
  obtain ⟨-, -, -, -, -, -, hfailed, -, hline', -, hempty⟩ := run_ends_in_one_way hfilter hworld
    ["--line".toList, "18446744073709551615".toList]
  obtain ⟨-, -, -, -, -, -, hfailed', hinput, -, -, hempty'⟩ := run_ends_in_one_way hfilter hworld
    ["--line".toList, "7".toList, "d".toList]
  have hcode : missing.errorCode? = some "cbread::line_out_of_range".toList :=
    hline'.2 ⟨_, text, _, hargs', congrArg some htext, rfl, by decide⟩
  have hcode' : absent.errorCode? = some "cbread::read_input".toList := hinput.2 ⟨_, hargs'', .inl rfl⟩
  refine ⟨?_, hcode, hempty ?_, hcode', hempty' ?_⟩
  · exact (hprinted _ text hargs (congrArg some htext) hline).trans (by decide +kernel)
  · rw [hfailed.2 (.inr hcode)]
    decide
  · rw [hfailed'.2 (.inl hcode')]
    decide

/-- Two runs that end otherwise than all of their input and their arguments call for. One reads its standard input
as a configuration first, so that it does not find the bytes there that are no text. The other is broken off by
the text of a log filter, before it refuses its arguments. -/
theorem runs_that_end_otherwise :
    let world : World := .ofEntries [("c".toList, .standardInput)] ⟨#[255, 254]⟩ []
    let world' : World := .ofEntries [] .empty [("RUST_LOG", "x, \u00DF=info".toList)]
    let args := ["--config".toList, "c".toList]
    (∃ a, Arguments.parse args = .ok a ∧ a.readsStandardInput = true) ∧ ¬ world.standardInput.IsValidUTF8 ∧
      (run args world).outcome = .printed [] ∧ (run args world).outcome.exitStatus = 0 ∧
      (∃ e, Arguments.parse ["--nope".toList] = .error (.usage e)) ∧
      (run ["--nope".toList] world').outcome = .broken (.insideCharacter 2) ∧
      (run ["--nope".toList] world').outcome.exitStatus = 101 := by
  intro world world' args
  have hprinted : (run args world).outcome = .printed [] := by decide +kernel
  refine ⟨⟨⟨['-'], none, false, none, some ['c']⟩, by decide, rfl⟩, ?_, hprinted, ?_, ?_, rfl, rfl⟩
  · decide
  · rw [hprinted]
    rfl
  · exact ⟨.unknownArgument, by decide⟩

end CanonicalText
