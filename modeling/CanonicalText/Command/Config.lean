import CanonicalText.Command.Arguments

/-!
# Configuration and settings

A configuration is a JSON text with the defaults for a run. What the command line asks for goes before
it, and it goes before what holds without either.
-/

namespace CanonicalText

structure Config where
  output : Option OutputFormat
  positions : Bool
deriving DecidableEq

namespace Config

def default : Config := ⟨none, false⟩

/-- Reads a configuration. Both fields may be absent; keys that are no field names are refused. -/
def decode : Json.Decoder Config := fun t =>
  (Json.record ⟨"CbreadConfig", true⟩
    ⟨"output", Json.option (Json.variant OutputFormat.names), some none⟩
    ⟨"positions", Json.boolean, some false⟩ t).map fun r => (⟨r.1.1, r.1.2⟩, r.2)

def parse (t : Text) : Except Json.Error Config := Json.decodeText decode t

end Config

structure Settings where
  output : OutputFormat
  positions : Bool
  line : Option UInt64
deriving DecidableEq

namespace Settings

/-- The command line before the configuration. -/
def resolve (args : Arguments) (config : Config) : Settings :=
  ⟨(args.output <|> config.output).getD .human, args.positions || config.positions, args.line⟩

def debug (s : Settings) : Text :=
  let line := match s.line with
    | some n => "Some(".toList ++ decimal n.toNat ++ [')']
    | none => "None".toList
  "Settings \x7b output: ".toList ++ s.output.debug ++ ", positions: ".toList ++
    (if s.positions then "true".toList else "false".toList) ++ ", line: ".toList ++ line ++
    " \x7d".toList

end Settings

end CanonicalText
