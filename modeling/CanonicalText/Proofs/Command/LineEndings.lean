import Mathlib
import CanonicalText.Proofs.Command.Input
import CanonicalText.Proofs.Command.LogFilter
import CanonicalText.Proofs.Command.Partition
import CanonicalText.Proofs.Json.LineBreaks

/-!
# Runs and the line endings of their input

A run takes standard input apart from its canonical text in one way only. What is printed and what fails depends on
the canonical text alone, and so does a configuration that is read from standard input. Where such a configuration
is refused, the log gives the reason in the words of the JSON library, with the place in the text as it came.

* `Alike.readSplit_eq`, `Alike.endPosition_eq` : what texts that are alike have in common;
* `World.Alike` : worlds that differ at most in the line breaks of standard input;
* `Report.Alike` : reports that differ at most in the reasons that the log gives;
* `run_alike`, `run_eq_of_alike` : runs in worlds that are alike;
* `line_endings_do_not_matter` : what follows for all inputs.
-/

namespace CanonicalText

/-! ## Texts that are alike -/

namespace Alike

variable {t u : Text} (h : Alike t u)

include h

theorem pairs_eq : pairs t = pairs u := by
  rw [pairs_eq_placed, pairs_eq_placed, h]

theorem readSplit_eq : readSplit t = readSplit u := by
  rw [readSplit, readSplit, h.pairs_eq]

theorem endPosition_eq : endPosition t = endPosition u := by
  rw [endPosition_eq_past, endPosition_eq_past, h]

theorem printText_eq (settings : Settings) : printText settings t = printText settings u := by
  rw [printText, printText, h.readSplit_eq]

theorem readingEvents_eq (args : Arguments) : readingEvents args t = readingEvents args u := by
  rw [readingEvents, readingEvents, h.readSplit_eq, h.endPosition_eq]

end Alike

/-! ## Worlds that are alike -/

/-- Two worlds that have all in common but the line breaks of the texts on standard input. -/
structure World.Alike (w v : World) : Prop where
  entry : v.entry = w.entry
  environment : v.environment = w.environment
  wording : v.wording = w.wording
  input : ∃ t u, textOfBytes? w.standardInput = some t ∧ textOfBytes? v.standardInput = some u ∧
    CanonicalText.Alike t u

/-- Two reports that have all in common but the reasons that their logs give. -/
structure Report.Alike (r s : Report) : Prop where
  outcome : r.outcome = s.outcome
  log : r.log.map Log.Event.withoutReason = s.log.map Log.Event.withoutReason

/-- Whether no configuration that is to be read from standard input is refused. -/
def World.AcceptsInputAt (w : World) (path : Text) : Prop :=
  w.entry path = .standardInput → ∃ text c, textOfBytes? w.standardInput = some text ∧ Config.parse text = .ok c

namespace World.Alike

variable {w v : World} (h : w.Alike v)

include h

theorem afterReading (path : Text) : (w.afterReading path).Alike (v.afterReading path) := by
  unfold World.afterReading
  rw [h.entry]
  split
  · exact ⟨rfl, h.environment, h.wording, [], [], rfl, rfl, rfl⟩
  · exact h

theorem text?_eq {path : Text} (hpath : w.entry path ≠ .standardInput) : w.text? path = v.text? path := by
  unfold World.text?
  rw [h.entry]
  split
  · rfl
  · next hentry => exact absurd hentry hpath
  · rfl

theorem text? (path : Text) : Option.Rel CanonicalText.Alike (w.text? path) (v.text? path) := by
  by_cases hpath : w.entry path = .standardInput
  · obtain ⟨t, u, ht, hu, halike⟩ := h.input
    unfold World.text?
    rw [h.entry, hpath]
    simp only [ht, hu]
    exact .some halike
  · rw [h.text?_eq hpath]
    cases v.text? path with
    | none => exact .none
    | some t => exact Option.Rel.some (Eq.refl (canonicalize t))

/-- The same configuration is loaded, and the same events are logged but for their reasons. -/
theorem loadConfig_alike (path : Text) :
    (loadConfig w path).1 = (loadConfig v path).1 ∧
      (loadConfig w path).2.map Log.Event.withoutReason = (loadConfig v path).2.map Log.Event.withoutReason := by
  unfold loadConfig
  rw [h.entry, h.wording]
  split
  · exact ⟨rfl, rfl⟩
  · have htext := h.text? path
    revert htext
    generalize w.text? path = r
    generalize v.text? path = s
    rintro (halike | _)
    · next t u =>
      -- either text is refused, or both are read as the same configuration
      rcases (Config.parse_inStep halike).cases with ⟨e, e', ht, hu⟩ | ⟨c, _, ht, hu, rfl⟩
      · simp only [ht, hu, true_and]
        rfl
      · simp only [ht, hu, and_self]
    · exact ⟨rfl, rfl⟩

/-- Without a refused configuration on standard input, the reasons are the same too. -/
theorem loadConfig_eq {path : Text} (haccepts : w.AcceptsInputAt path) : loadConfig w path = loadConfig v path := by
  by_cases hpath : w.entry path = .standardInput
  · obtain ⟨t, u, ht, hu, halike⟩ := h.input
    obtain ⟨t', c, ht', hc⟩ := haccepts hpath
    obtain rfl : t = t' := Option.some.inj (ht.symm.trans ht')
    have hwc : loadConfig w path = (c, []) := by
      simp only [loadConfig, World.text?, hpath, ht, hc]
    rcases (Config.parse_inStep halike).cases with ⟨e, e', herror, -⟩ | ⟨c', _, hc', hu', rfl⟩
    · rw [hc] at herror
      cases herror
    · obtain rfl : c = c' := Except.ok.inj (hc.symm.trans hc')
      rw [hwc]
      simp only [loadConfig, World.text?, h.entry, hpath, hu, hu']
  · unfold loadConfig
    rw [h.entry, h.wording, h.text?_eq hpath]

theorem readInput (args : Arguments) :
    Option.Rel CanonicalText.Alike (CanonicalText.readInput w args) (CanonicalText.readInput v args) := by
  unfold CanonicalText.readInput
  split
  · obtain ⟨t, u, ht, hu, halike⟩ := h.input
    rw [ht, hu]
    exact .some halike
  · exact h.text? args.input

theorem runLoaded_eq (args : Arguments) (config : Config) : runLoaded args config w = runLoaded args config v := by
  have hread := h.readInput args
  unfold runLoaded
  revert hread
  generalize CanonicalText.readInput w args = r
  generalize CanonicalText.readInput v args = s
  rintro (halike | _)
  · simp only [halike.printText_eq, halike.readingEvents_eq]
  · rfl

theorem runWith_alike (args : Arguments) :
    (runWith args w).1 = (runWith args v).1 ∧
      (runWith args w).2.map Log.Event.withoutReason = (runWith args v).2.map Log.Event.withoutReason := by
  obtain ⟨hconfig, hevents⟩ := h.loadConfig_alike (configPath args)
  have hrest := (h.afterReading (configPath args)).runLoaded_eq args (loadConfig v (configPath args)).1
  simp only [runWith, hconfig, hrest, List.map_append, hevents, and_self]

theorem runWith_eq {args : Arguments} (haccepts : w.AcceptsInputAt (configPath args)) :
    runWith args w = runWith args v := by
  simp only [runWith, h.loadConfig_eq haccepts, (h.afterReading (configPath args)).runLoaded_eq]

end World.Alike

/-! ## Runs -/

theorem map_withoutReason_filter (f : Log.Filter) (events : List Log.Event) :
    (events.filter f.passes).map Log.Event.withoutReason = (events.map Log.Event.withoutReason).filter f.passes := by
  rw [List.filter_map]
  rfl

section Runs

variable {w v : World} (h : w.Alike v)

include h

/-- Runs in worlds that are alike have the same end, and the same log but for the reasons that it gives. -/
theorem run_alike (args : List Text) : (run args w).Alike (run args v) := by
  unfold run
  rw [logFilter, logFilter, h.environment]
  split
  · exact ⟨rfl, rfl⟩
  · split
    · exact ⟨rfl, rfl⟩
    · exact ⟨rfl, rfl⟩
    · exact ⟨rfl, rfl⟩
    · next filter _ _ a _ =>
      obtain ⟨houtcome, hevents⟩ := h.runWith_alike a
      refine ⟨houtcome, ?_⟩
      simp only [map_withoutReason_filter, hevents]

/-- Where no configuration is refused on standard input, the reports are the same. -/
theorem run_eq_of_alike {args : List Text}
    (haccepts : ∀ a, Arguments.parse args = .ok a → w.AcceptsInputAt (configPath a)) : run args w = run args v := by
  unfold run
  rw [logFilter, logFilter, h.environment]
  split
  · rfl
  · split
    · rfl
    · rfl
    · rfl
    · next a hargs => rw [h.runWith_eq (haccepts a hargs)]

end Runs

theorem run_nil_eq_printed {world : World} {filter : Log.Filter} {text : Text}
    (htext : textOfBytes? world.standardInput = some text) (hlength : text.length < 2 ^ 63)
    (hconfig : world.entry defaultConfigPath = .missing) (hfilter : logFilter world = .ok filter) :
    (run [] world).outcome = .printed (canonicalize text) := by
  have hargs : Arguments.parse [] = .ok ⟨['-'], none, false, none, none⟩ := by decide
  rw [run_eq_printText hargs rfl hconfig hfilter htext]
  exact printText_of_none (length_canonicalize_lt hlength) .human false

/-- Whether runs answer alike when standard input is exchanged for other bytes: with the same report but for reasons
in the log, and with the same reasons too unless the configuration is read from standard input and refused. -/
def World.AnswersAlike (world : World) (bytes : ByteArray) : Prop :=
  ∀ args, let changed := run args { world with standardInput := bytes }
    changed.Alike (run args world) ∧
      ((∀ a, Arguments.parse args = .ok a → world.AcceptsInputAt (configPath a)) → changed = run args world)

/-- **Line endings do not matter** to a run, whatever its arguments, files and environment, but for the reason why a
configuration on standard input is refused. The canonical text can take the place of the input, and is what a run
without arguments and without a configuration prints, if the log gets a filter. -/
theorem line_endings_do_not_matter {world : World} {text : Text}
    (htext : textOfBytes? world.standardInput = some text) :
    (∀ (bytes : ByteArray) (other : Text), textOfBytes? bytes = some other →
      canonicalize other = canonicalize text → world.AnswersAlike bytes) ∧
    world.AnswersAlike (bytesOf (canonicalize text)) ∧
    (text.length < 2 ^ 63 → world.entry defaultConfigPath = .missing →
      ∀ filter, logFilter world = .ok filter → (run [] world).outcome = .printed (canonicalize text)) ∧
    (world.HasPlainFilter → ∃ filter, logFilter world = .ok filter) := by
  have hsame : ∀ (bytes : ByteArray) (other : Text), textOfBytes? bytes = some other →
      canonicalize other = canonicalize text → world.AnswersAlike bytes := by
    intro bytes other hother halike args
    have hworlds : world.Alike { world with standardInput := bytes } :=
      ⟨rfl, rfl, rfl, text, other, htext, hother, halike.symm⟩
    have hrun := run_alike hworlds args
    exact ⟨⟨hrun.outcome.symm, hrun.log.symm⟩, fun haccepts => (run_eq_of_alike hworlds haccepts).symm⟩
  refine ⟨hsame, hsame _ _ (textOfBytes?_bytesOf _) (alike_canonicalize text), ?_, World.HasPlainFilter.logFilter_eq_ok⟩
  exact fun hlength hconfig filter hfilter => run_nil_eq_printed htext hlength hconfig hfilter

/-- An object over two lines, once with a `\r\n` and once with a `\r`. It is a configuration too, for the run that
is told to look for one on standard input. -/
theorem line_endings_do_not_matter_of_object :
    let world : World := .ofEntries [("c".toList, .standardInput)] ⟨#[0x7b, 13, 10, 0x7d]⟩ []
    let other : ByteArray := ⟨#[0x7b, 13, 0x7d]⟩
    let args := ["--config".toList, "c".toList]
    textOfBytes? world.standardInput = some ['\x7b', '\r', '\n', '\x7d'] ∧
      textOfBytes? other = some ['\x7b', '\r', '\x7d'] ∧
      run args { world with standardInput := other } = run args world ∧ (run args world).log = [] ∧
      (run [] world).outcome = .printed ['\x7b', '\n', '\x7d'] := by
  intro world other args
  have htext : textOfBytes? world.standardInput = some ['\x7b', '\r', '\n', '\x7d'] := by decide
  have hother : textOfBytes? other = some ['\x7b', '\r', '\x7d'] := by decide
  have hargs : Arguments.parse args = .ok ⟨['-'], none, false, none, some ['c']⟩ := by decide
  have haccepts : ∀ a, Arguments.parse args = .ok a → world.AcceptsInputAt (configPath a) := by
    intro a ha _
    exact ⟨_, .default, htext, by decide +kernel⟩
  obtain ⟨hsame, -, hprinted, hplain⟩ := line_endings_do_not_matter htext
  obtain ⟨filter, hfilter⟩ := hplain (by rintro t ⟨⟩)
  exact ⟨htext, hother, (hsame other _ hother (by decide) args).2 haccepts, by decide +kernel,
    hprinted (by decide) rfl filter hfilter⟩

/-- The words of the JSON library for a text that ends where a key begins and has no quotation mark there. The place
is that of the last character, in the lines that a `\n` ends. -/
def keyMustBeString (text : Text) (_ : Json.Error) : Text :=
  "key must be a string at line ".toList ++ decimal (text.count '\n' + 1) ++ " column ".toList ++
    decimal (text.reverse.takeWhile (· ≠ '\n')).length

/-- Two runs to which line endings matter, and one that does not print the canonical text. A configuration on
standard input is refused at a place that its line break decides on. The other run is broken off by the text of a
log filter: a target is measured without the blank before it and cut off with it, inside of a character. -/
theorem runs_that_answer_otherwise :
    let world : World :=
      { World.ofEntries [("c".toList, .standardInput)] ⟨#[0x7b, 13, 32, 120]⟩ [] with
        wording := ⟨fun _ => [], keyMustBeString⟩ }
    let other : ByteArray := ⟨#[0x7b, 10, 32, 120]⟩
    let args := ["--config".toList, "c".toList]
    let log := (run args world).log.map Log.Event.line
    let log' := (run args { world with standardInput := other }).log.map Log.Event.line
    let world' : World := .ofEntries [] ⟨#[97, 13, 10, 98]⟩ [("RUST_LOG", "x, \u00DF=info".toList)]
    textOfBytes? world.standardInput = some ['\x7b', '\r', ' ', 'x'] ∧
      textOfBytes? other = some ['\x7b', '\n', ' ', 'x'] ∧
      canonicalize ['\x7b', '\r', ' ', 'x'] = canonicalize ['\x7b', '\n', ' ', 'x'] ∧
      log = ["WARN failed to parse config: key must be a string at line 1 column 4 path=c".toList] ∧
      log' = ["WARN failed to parse config: key must be a string at line 2 column 2 path=c".toList] ∧ log ≠ log' ∧
      textOfBytes? world'.standardInput = some ['a', '\r', '\n', 'b'] ∧
      world'.entry defaultConfigPath = .missing ∧
      (run [] world').outcome = .broken (.insideCharacter 2) ∧ (run [] world').outcome.exitStatus = 101 ∧
      (run [] world').outcome ≠ .printed (canonicalize ['a', '\r', '\n', 'b']) := by
  intro world other args log log' world'
  have hlog : log = ["WARN failed to parse config: key must be a string at line 1 column 4 path=c".toList] := by
    decide +kernel
  have hlog' : log' = ["WARN failed to parse config: key must be a string at line 2 column 2 path=c".toList] := by
    decide +kernel
  refine ⟨by decide, by decide, by decide, hlog, hlog', ?_, by decide, rfl, rfl, rfl, by decide⟩
  rw [hlog, hlog']
  decide

end CanonicalText
