import CanonicalText.Command.Config
import CanonicalText.Command.Log.Filter
import CanonicalText.Command.World
import CanonicalText.LineIndex
import CanonicalText.Reader.Shapes

/-!
# A run of the program

A run is a function of the command line and of the world as the program finds it. Its report says how it
ended and which events the log shows.

* `selectLine` : the part of the buffers that a line takes up;
* `run` : the run itself;
* `Outcome.exitStatus`, `Outcome.standardOutput` : what others see of its end.
-/

namespace CanonicalText

/-! ## How a run ends -/

/-- The errors that a run can end with. Those of writing the output are left out, see `run`. -/
inductive RunError where
  | unreadableInput (path : Text)
  | lineOutOfRange (line lineCount : UInt64)
deriving DecidableEq

namespace RunError

def code : RunError → Text
  | unreadableInput _ => "cbread::read_input".toList
  | lineOutOfRange _ _ => "cbread::line_out_of_range".toList

def message : RunError → Text
  | unreadableInput path => "failed to read ".toList ++ path
  | lineOutOfRange line _ => "line ".toList ++ decimal line.toNat ++ " out of range".toList

def help? : RunError → Option Text
  | unreadableInput _ => none
  | lineOutOfRange _ lineCount =>
    some ("the canonical buffer has ".toList ++ decimal lineCount.toNat ++
      " lines, numbered from 0".toList)

end RunError

inductive Outcome where
  | help
  | version
  | usage (error : UsageError)
  | failed (error : RunError)
  | broken (fault : Fault)
  | printed (text : Text)
deriving DecidableEq

def versionText : Text := "cbread 0.3.1\n".toList

/-- What `-h` prints. For `--help` the library that lays out the help has a longer form, which is left out. -/
def helpLines : List String :=
  ["Normalize line endings and print the canonical buffer",
    "",
    "Usage: cbread [OPTIONS] [INPUT]",
    "",
    "Arguments:",
    "  [INPUT]  File to read (\x60-\x60 reads stdin) [default: -]",
    "",
    "Options:",
    "      --output <OUTPUT>  Output format (overrides the config file) [possible values: human, json, machine]",
    "      --positions        Print the position of every character",
    "      --line <LINE>      Only print this canonical line (0-indexed)",
    "      --config <CONFIG>  Path to a cbread.json config file",
    "  -h, --help             Print help (see more with \x27--help\x27)",
    "  -V, --version          Print version"]

def helpText : Text := helpLines.flatMap fun line => line.toList ++ ['\n']

namespace Outcome

def exitStatus : Outcome → Nat
  | help => 0
  | version => 0
  | usage _ => 2
  | failed _ => 1
  | broken _ => 101
  | printed _ => 0

def standardOutput : Outcome → Text
  | help => helpText
  | version => versionText
  | printed text => text
  | _ => []

end Outcome

/-- The end of a run, and the events that its log shows. -/
structure Report where
  outcome : Outcome
  log : List Log.Event

/-! ## The parts of a run -/

def defaultConfigPath : Text := "cbread.json".toList

/-- The event of a configuration that cannot be read or parsed. -/
def configRefused (path reason : Text) : Log.Event :=
  ⟨.warn, "cbread::config".toList, "failed to parse config".toList, some reason, [("path", path)]⟩

/-- Reads the configuration. One that is missing or refused counts as the default one; the event says so. -/
def loadConfig (world : World) (path : Text) : Config × List Log.Event :=
  match world.entry path with
  | .missing =>
    (.default, [⟨.debug, "cbread::config".toList, "no config file".toList, none, [("path", path)]⟩])
  | _ =>
    match world.text? path with
    | none => (.default, [configRefused path (world.wording.unreadable path)])
    | some text =>
      match Config.parse text with
      | .ok config => (config, [])
      | .error e => (.default, [configRefused path (world.wording.refused text e)])

def configPath (args : Arguments) : Text := args.config.getD defaultConfigPath

/-- The text of the input that the command line names. -/
def readInput (world : World) (args : Arguments) : Option Text :=
  if args.readsStandardInput then textOfBytes? world.standardInput
  else world.text? args.input

/-- What keeps a part of a run from ending well. -/
inductive Halt where
  | error (e : RunError)
  | fault (f : Fault)
deriving DecidableEq

/-- Narrows both buffers to one line, its line break included. -/
def selectLine (positions : Buffer Position) (chars : Buffer Char) (line : UInt64) :
    Except Halt (Buffer Position × Buffer Char) :=
  let index := LineIndex.ofChars chars.elements
  match index.lineStart? line with
  | none => .error (.error (.lineOutOfRange line index.lineCount))
  | some start =>
    let stop := ((checkedAdd line 1).bind index.lineStart?).getD chars.length
    match positions.range (.included start) (.excluded stop) with
    | .error f => .error (.fault f)
    | .ok positions =>
      match chars.range (.included start) (.excluded stop) with
      | .error f => .error (.fault f)
      | .ok chars => .ok (positions, chars)

/-- What is printed of a text under the given settings. -/
def printText (settings : Settings) (text : Text) : Outcome :=
  let whole := readSplit text
  let selected := match settings.line with
    | some line => selectLine whole.1 whole.2 line
    | none => .ok whole
  match selected with
  | .error (.error e) => .failed e
  | .error (.fault f) => .broken f
  | .ok (positions, chars) =>
    match (Formatter.mk settings.output settings.positions).printed positions chars with
    | .error f => .broken f
    | .ok text => .printed text

def readingEvents (args : Arguments) (text : Text) : List Log.Event :=
  let chars := decimal (readSplit text).2.length.toNat
  let lines := decimal (saturatingSucc (endPosition text).line).toNat
  [⟨.debug, "input_buffer::reader".toList, "read split buffers".toList, none,
      [("chars", chars), ("lines", lines)]⟩,
    ⟨.info, "cbread".toList, "normalized input".toList, none,
      [("input", args.input), ("chars", chars)]⟩]

/-- The run after the configuration has been read: its end, and the events from there on. -/
def runLoaded (args : Arguments) (config : Config) (world : World) : Outcome × List Log.Event :=
  let settings := Settings.resolve args config
  let resolved : Log.Event :=
    ⟨.debug, "cbread".toList, "resolved settings".toList, none, [("settings", settings.debug)]⟩
  match readInput world args with
  | none => (.failed (.unreadableInput args.input), [resolved])
  | some text => (printText settings text, resolved :: readingEvents args text)

/-- The run after the command line has been read. The configuration is read before the input. -/
def runWith (args : Arguments) (world : World) : Outcome × List Log.Event :=
  let loaded := loadConfig world (configPath args)
  let ended := runLoaded args loaded.1 (world.afterReading (configPath args))
  (ended.1, loaded.2 ++ ended.2)

/-- The environment variables with the texts of log filters, of which the first that is set counts. -/
def filterVariables : String × String := ("CBREAD_LOG", "RUST_LOG")

def logFilter (world : World) : Except Fault Log.Filter :=
  Log.Filter.choose (world.environment filterVariables.1) (world.environment filterVariables.2)

def pathsOf (args : List Text) : List Text :=
  match Arguments.parse args with
  | .error _ => []
  | .ok args => configPath args :: if args.readsStandardInput then [] else [args.input]

def readsStandardInput (args : List Text) : Bool :=
  match Arguments.parse args with
  | .error _ => false
  | .ok args => args.readsStandardInput

/-- A run of the program. The filter of the log comes first, then the command line. That what it prints is written
out without an error, or to a reader that has gone away, is taken for granted. -/
def run (args : List Text) (world : World) : Report :=
  match logFilter world with
  | .error f => ⟨.broken f, []⟩
  | .ok filter =>
    match Arguments.parse args with
    | .error .help => ⟨.help, []⟩
    | .error .version => ⟨.version, []⟩
    | .error (.usage e) => ⟨.usage e, []⟩
    | .ok args =>
      let (outcome, events) := runWith args world
      ⟨outcome, events.filter filter.passes⟩

end CanonicalText
