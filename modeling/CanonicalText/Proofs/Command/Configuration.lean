import Mathlib
import CanonicalText.Proofs.Command.LineOption
import CanonicalText.Proofs.Command.Outcomes

/-!
# Configurations and options

A configuration does what options would do. Whatever its file is like, the run ends as one with no configuration
does, of which the options ask for what the command line and the configuration come to. Only the bytes of standard
input are gone if they were the configuration.

* `Arguments.spelled` : options that ask for given arguments;
* `World.Configures` : the configuration that a path leads to, the default one if there is none;
* `configuration_acts_as_options` : runs with a configuration, and runs without one.
-/

namespace CanonicalText

/-! ## Arguments spelled out -/

def OutputFormat.spelled : OutputFormat → Text
  | human => "human".toList
  | json => "json".toList
  | machine => "machine".toList

namespace Arguments

def Valued.opening : Valued → Text
  | output => "--output=".toList
  | line => "--line=".toList
  | config => "--config=".toList

/-- Options that ask for the given arguments, and the input after them. -/
def spelled (a : Arguments) : List Text :=
  (a.output.toList.map fun o => Valued.opening .output ++ o.spelled) ++
    ((a.line.toList.map fun n => Valued.opening .line ++ decimal n.toNat) ++
      ((a.config.toList.map fun path => Valued.opening .config ++ path) ++
        ((if a.positions then ["--positions".toList] else []) ++ ["--".toList, a.input])))

namespace Progress

variable {p q : Progress}

theorem takeAll_attached (hpending : p.pending = none) {option : Valued} {value : Text}
    (h : p.assign option value = .ok q) (ts : List Text) :
    p.takeAll ((option.opening ++ value) :: ts) = q.takeAll ts := by
  have htake : p.takeAll ((option.opening ++ value) :: ts) =
      p.takeValued option (some value) >>= fun p => p.takeAll ts := by
    cases option <;> rfl
  have hsettle : p.settle = .ok p := by
    simp only [settle, hpending]
  rw [htake, takeValued, hsettle]
  show p.assign option value >>= (fun p => p.takeAll ts) = _
  rw [h]
  rfl

theorem takeAll_option {β : Type} (hpending : p.pending = none) {option : Valued} {write : β → Text} {x : Option β}
    (hnone : x = none → p = q) (hsome : ∀ y, x = some y → p.assign option (write y) = .ok q) (ts : List Text) :
    p.takeAll ((x.toList.map fun y => option.opening ++ write y) ++ ts) = q.takeAll ts := by
  cases x with
  | none =>
    rw [hnone rfl]
    rfl
  | some y => exact takeAll_attached hpending (hsome y rfl) ts

end Progress

/-- **All arguments can be asked for** by options. -/
theorem parse_spelled (a : Arguments) : parse a.spelled = .ok a := by
  obtain ⟨input, output, positions, line, config⟩ := a
  have houtput : ∀ ts, Progress.start.takeAll
      ((output.toList.map fun o => Valued.opening .output ++ o.spelled) ++ ts) =
        Progress.takeAll ⟨none, output, false, none, none, none⟩ ts := by
    refine Progress.takeAll_option rfl ?_ ?_
    · rintro rfl
      rfl
    · rintro o rfl
      cases o <;> rfl
  have hline : ∀ ts, Progress.takeAll ⟨none, output, false, none, none, none⟩
      ((line.toList.map fun n => Valued.opening .line ++ decimal n.toNat) ++ ts) =
        Progress.takeAll ⟨none, output, false, line, none, none⟩ ts := by
    refine Progress.takeAll_option rfl ?_ ?_
    · rintro rfl
      rfl
    · rintro n rfl
      simp only [Progress.assign, Progress.word?_decimal n.toNat_lt_size, UInt64.ofNat_toNat]
      rfl
  have hconfig : ∀ ts, Progress.takeAll ⟨none, output, false, line, none, none⟩
      ((config.toList.map fun path => Valued.opening .config ++ path) ++ ts) =
        Progress.takeAll ⟨none, output, false, line, config, none⟩ ts := by
    refine Progress.takeAll_option rfl ?_ ?_
    · rintro rfl
      rfl
    · rintro path rfl
      rfl
  rw [parse, spelled, houtput, hline, hconfig]
  cases positions <;> rfl

end Arguments

/-! ## Configurations -/

/-- The configuration that a path leads to. What is missing, cannot be read, is no text or cannot be parsed counts
as the default one. -/
inductive World.Configures (w : World) (path : Text) : Config → Prop
  | parsed {text : Text} {c : Config} (h : w.Holds (w.entry path) text) (hparse : Config.parse text = .ok c) :
      Configures w path c
  | refused (h : w.Refuses (w.entry path)) : Configures w path .default
  | malformed {text : Text} {e : Json.Error} (h : w.Holds (w.entry path) text)
      (hparse : Config.parse text = .error e) : Configures w path .default

section Configurations

variable {w : World} {path : Text} {c : Config}

theorem fst_loadConfig (w : World) (path : Text) :
    (loadConfig w path).1 = match (w.text? path).map Config.parse with
      | some (.ok c) => c
      | _ => .default := by
  unfold loadConfig
  split
  · next h =>
    rw [World.text?_eq, h]
    rfl
  · cases w.text? path with
    | none => rfl
    | some text => rcases hparse : Config.parse text with _ | _ <;> simp only [Option.map_some, hparse]

theorem configures_iff : w.Configures path c ↔ (loadConfig w path).1 = c := by
  rw [fst_loadConfig, World.text?_eq]
  constructor
  · intro h
    cases h with
    | parsed h hparse => rw [World.bytes?_bind_eq_some_iff.2 h, Option.map_some, hparse]
    | refused h => rw [World.bytes?_bind_eq_none_iff.2 h]; rfl
    | malformed h hparse => rw [World.bytes?_bind_eq_some_iff.2 h, Option.map_some, hparse]
  · rintro rfl
    cases htext : (w.bytes? (w.entry path)).bind textOfBytes? with
    | none => exact .refused (World.bytes?_bind_eq_none_iff.1 htext)
    | some text =>
      rw [Option.map_some]
      cases hparse : Config.parse text with
      | error e => exact .malformed (World.bytes?_bind_eq_some_iff.1 htext) hparse
      | ok c => exact .parsed (World.bytes?_bind_eq_some_iff.1 htext) hparse

theorem afterReading_of_ne (h : w.entry path ≠ .standardInput) : w.afterReading path = w := by
  unfold World.afterReading
  split
  · next heq => exact absurd heq h
  · rfl

theorem logFilter_afterReading (w : World) (path : Text) : logFilter (w.afterReading path) = logFilter w := by
  unfold World.afterReading
  split <;> rfl

end Configurations

/-! ## Runs -/

/-- What the command line and a configuration come to, asked for by the command line. The path is that of another
configuration. -/
def Arguments.configured (a : Arguments) (c : Config) (path : Text) : Arguments :=
  { a with
    output := some ((a.output <|> c.output).getD .human)
    positions := a.positions || c.positions
    config := some path }

section Runs

variable {args : List Text} {a : Arguments} {world : World} {c : Config} {q : Text}

theorem outcome_of_parse (hargs : Arguments.parse args = .ok a) :
    (run args world).outcome = match logFilter world with
      | .error f => .broken f
      | .ok _ => (runWith a world).1 := by
  unfold run
  cases logFilter world <;> simp only [hargs]

theorem fst_runWith (a : Arguments) (world : World) :
    (runWith a world).1 = match readInput (world.afterReading (configPath a)) a with
      | none => .failed (.unreadableInput a.input)
      | some text => printText (settingsOf world a) text := by
  unfold runWith runLoaded
  cases readInput (world.afterReading (configPath a)) a <;> rfl

/-- Without a configuration, options come to what they come to with one if they ask for it. -/
theorem settingsOf_configured (hc : world.Configures (configPath a) c) {w : World} (hq : w.entry q = .missing) :
    settingsOf w (a.configured c q) = settingsOf world a := by
  have hdefault : (loadConfig w q).1 = .default := configures_iff.1 (.refused (.inl hq))
  have hpath : configPath (a.configured c q) = q := rfl
  rw [settingsOf, settingsOf, hpath, hdefault, configures_iff.1 hc]
  simp [Settings.resolve, Arguments.configured, Config.default]

theorem runWith_configured (hc : world.Configures (configPath a) c) (hq : world.entry q = .missing) :
    (runWith a world).1 = (runWith (a.configured c q) (world.afterReading (configPath a))).1 := by
  set rest := world.afterReading (configPath a) with hrest
  have hmissing : rest.entry q = .missing := by
    rw [hrest, entry_afterReading, hq]
  have hleft : rest.afterReading (configPath (a.configured c q)) = rest := by
    apply afterReading_of_ne
    show rest.entry q ≠ .standardInput
    rw [hmissing]
    exact Entry.noConfusion
  have hinput : readInput rest (a.configured c q) = readInput rest a := rfl
  rw [fst_runWith, fst_runWith, ← hrest, hleft, hinput, settingsOf_configured hc hmissing]
  rfl

end Runs

/-- **A configuration acts as options do**, and it is never fatal. A run with one ends as a run without one whose
options ask for what the command line and the configuration come to, on the standard input that is left then. -/
theorem configuration_acts_as_options {args : List Text} {a : Arguments} (hargs : Arguments.parse args = .ok a)
    (world : World) :
    let path := configPath a
    let rest := world.afterReading path
    (∃! c, world.Configures path c) ∧
    (world.entry path ≠ .standardInput → rest = world) ∧
    (world.entry path = .standardInput → rest = { world with standardInput := .empty }) ∧
    ∀ c q, world.Configures path c → world.entry q = .missing →
      let b := a.configured c q
      (∃ args', Arguments.parse args' = .ok b) ∧
      ∀ args', Arguments.parse args' = .ok b → (run args world).outcome = (run args' rest).outcome := by
  intro path rest
  refine ⟨⟨_, configures_iff.2 rfl, fun c hc => (configures_iff.1 hc).symm⟩, afterReading_of_ne, fun h => ?_, ?_⟩
  · simp only [rest, World.afterReading, h]
  · intro c q hc hq b
    refine ⟨⟨_, Arguments.parse_spelled b⟩, fun args' hargs' => ?_⟩
    rw [outcome_of_parse hargs, outcome_of_parse hargs', logFilter_afterReading]
    cases logFilter world with
    | error f => rfl
    | ok filter => exact runWith_configured hc hq

/-- A configuration that asks for positions, named by the command line. That of the usual name, which asks for
another format, is not looked at. -/
theorem configuration_acts_as_options_of_positions :
    let usual := bytesOf "\x7b\"output\": \"machine\"\x7d".toList
    let named := bytesOf "\x7b\"positions\": true\x7d".toList
    let world : World := .ofEntries [("cbread.json".toList, .file usual), (['c'], .file named)] ⟨#[97]⟩ []
    let args := ["--config".toList, ['c'], "--line".toList, ['0']]
    let args' := ["--config=d".toList, "--output".toList, "human".toList, "--positions".toList, "--line=0".toList]
    world.entry ['d'] = .missing ∧ (run args world).outcome = .printed "0:0 'a'\n".toList ∧
      (run args' world).outcome = .printed "0:0 'a'\n".toList := by
  intro usual named world args args'
  have hargs : Arguments.parse args = .ok ⟨['-'], none, false, some 0, some ['c']⟩ := by decide
  have hargs' : Arguments.parse args' = .ok ⟨['-'], some .human, true, some 0, some ['d']⟩ := by decide
  obtain ⟨-, hrest, -, hruns⟩ := configuration_acts_as_options hargs world
  have hconfig : world.Configures ['c'] ⟨none, true⟩ := configures_iff.2 (by decide +kernel)
  have hrest : world.afterReading ['c'] = world := hrest (by exact Entry.noConfusion)
  obtain ⟨-, hsame⟩ := hruns ⟨none, true⟩ ['d'] hconfig rfl
  have hprinted : (run args' world).outcome = .printed "0:0 'a'\n".toList := by decide +kernel
  refine ⟨rfl, ?_, hprinted⟩
  rw [hsame args' hargs', ← hprinted]
  exact congrArg (fun w => (run args' w).outcome) hrest

/-- Standard input that is read as a configuration is not there as an input any more, so that this run prints
nothing and the one with options instead prints all. -/
theorem configuration_takes_standard_input :
    let path := "/dev/stdin".toList
    let world : World := .ofEntries [(path, .standardInput)] (bytesOf "\x7b\x7d".toList) []
    let args := ["--config".toList, path]
    let args' := ["--config".toList, "absent".toList, "--output".toList, "human".toList]
    Arguments.parse args = .ok ⟨['-'], none, false, none, some path⟩ ∧ world.Configures path ⟨none, false⟩ ∧
      world.entry "absent".toList = .missing ∧
      Arguments.parse args' = .ok ⟨['-'], some .human, false, none, some "absent".toList⟩ ∧
      (run args world).outcome = .printed [] ∧ (run args' world).outcome = .printed "\x7b\x7d".toList := by
  intro path world args args'
  refine ⟨by decide, configures_iff.2 (by decide +kernel), ?_, by decide, by decide +kernel, by decide +kernel⟩
  rfl

end CanonicalText
