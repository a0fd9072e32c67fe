import CanonicalText.Command.Format

/-!
# Command line arguments

`Arguments.parse` reads the arguments from left to right; the first thing that is wrong decides, and so
does a wish for help or for the version. The value of an option may be attached to its name by `=`, or be
the next argument, if that does not look like an option itself; it is looked at no sooner than the next
option, the input or the end comes up.
-/

namespace CanonicalText

structure Arguments where
  input : Text
  output : Option OutputFormat
  positions : Bool
  line : Option UInt64
  config : Option Text
deriving DecidableEq

inductive UsageError where
  | unknownArgument
  /-- A value is missing or not one of those to choose from. -/
  | invalidValue
  /-- A value is not of its type. -/
  | valueValidation
  | argumentConflict
  | tooManyValues
deriving DecidableEq

inductive Stop where
  | help
  | version
  | usage (error : UsageError)
deriving DecidableEq

namespace Arguments

def standardInput : Text := ['-']

def readsStandardInput (a : Arguments) : Bool := a.input = standardInput

inductive Valued where
  | output
  | line
  | config
deriving DecidableEq

inductive Token where
  /-- Two dashes: no options come after it. -/
  | separator
  /-- Two dashes and a name, with a value after an equals sign, if there is one. -/
  | long (name : Text) (value : Option Text)
  /-- A dash and letters, the first and the others. -/
  | short (letter : Char) (others : Text)
  | plain (text : Text)

def Token.ofText : Text → Token
  | ['-', '-'] => separator
  | '-' :: '-' :: t =>
    let name := t.takeWhile (· != '=')
    match t.dropWhile (· != '=') with
    | _ :: value => long name (some value)
    | [] => long name none
  | '-' :: c :: t => short c t
  | t => plain t

structure Progress where
  input : Option Text
  output : Option OutputFormat
  positions : Bool
  line : Option UInt64
  config : Option Text
  /-- An option whose value has not been looked at, and its value, unless that is still to come. -/
  pending : Option (Valued × Option Text)

namespace Progress

def start : Progress := ⟨none, none, false, none, none, none⟩

/-- The word that decimal digits stand for, after an optional plus sign. -/
def word? (t : Text) : Option UInt64 :=
  let digits := match t with
    | '+' :: t => t
    | t => t
  if digits ≠ [] ∧ digits.all Char.isDigit ∧ ofDecimal digits < UInt64.size then
    some (UInt64.ofNat (ofDecimal digits))
  else none

/-- Gives an option its value, unless it has one already. -/
def assign (p : Progress) (option : Valued) (value : Text) : Except Stop Progress :=
  match option with
  | .output =>
    if p.output.isSome then .error (.usage .argumentConflict)
    else
      match OutputFormat.names.find? (·.1.toList == value) with
      | some format => .ok { p with output := some format.2 }
      | none => .error (.usage .invalidValue)
  | .line =>
    if p.line.isSome then .error (.usage .argumentConflict)
    else
      match word? value with
      | some n => .ok { p with line := some n }
      | none => .error (.usage .valueValidation)
  | .config =>
    if p.config.isSome then .error (.usage .argumentConflict)
    else .ok { p with config := some value }

/-- Looks at the value of the pending option, if there is one. -/
def settle (p : Progress) : Except Stop Progress :=
  match p.pending with
  | none => .ok p
  | some (_, none) => .error (.usage .invalidValue)
  | some (option, some value) => { p with pending := none }.assign option value

def takeValued (p : Progress) (option : Valued) (value : Option Text) : Except Stop Progress := do
  let p ← p.settle
  match value with
  | some value => p.assign option value
  | none => return { p with pending := some (option, none) }

def takeFlag (p : Progress) (value : Option Text) (act : Progress → Except Stop Progress) :
    Except Stop Progress :=
  match value with
  | some _ => .error (.usage .tooManyValues)
  | none => p.settle >>= act

def askPositions (p : Progress) : Except Stop Progress :=
  if p.positions then .error (.usage .argumentConflict) else .ok { p with positions := true }

def takeInput (p : Progress) (input : Text) : Except Stop Progress :=
  if p.input.isSome then .error (.usage .unknownArgument)
  else do
    let p ← p.settle
    return { p with input := some input }

/-- Takes an argument that is not an option: the value of the option before it, or the input. -/
def takePlain (p : Progress) (t : Text) : Except Stop Progress :=
  match p.pending with
  | some (option, none) => .ok { p with pending := some (option, some t) }
  | _ => p.takeInput t

def takeLong (p : Progress) (name : Text) (value : Option Text) : Except Stop Progress :=
  if name = "output".toList then p.takeValued .output value
  else if name = "line".toList then p.takeValued .line value
  else if name = "config".toList then p.takeValued .config value
  else if name = "positions".toList then p.takeFlag value askPositions
  else if name = "help".toList then p.takeFlag value fun _ => .error .help
  else if name = "version".toList then p.takeFlag value fun _ => .error .version
  else .error (.usage .unknownArgument)

/-- Takes an option by its letter; both of them stop the reading. -/
def takeShort (p : Progress) (letter : Char) : Except Stop Progress :=
  if letter = 'h' then p.settle >>= fun _ => .error .help
  else if letter = 'V' then p.settle >>= fun _ => .error .version
  else .error (.usage .unknownArgument)

def takeInputs (p : Progress) : List Text → Except Stop Progress
  | [] => .ok p
  | t :: ts => p.takeInput t >>= fun p => p.takeInputs ts

def takeAll (p : Progress) : List Text → Except Stop Progress
  | [] => .ok p
  | t :: ts =>
    match Token.ofText t with
    | .separator => p.takeInputs ts
    | .long name value => p.takeLong name value >>= fun p => p.takeAll ts
    | .short letter _ => p.takeShort letter >>= fun p => p.takeAll ts
    | .plain t => p.takePlain t >>= fun p => p.takeAll ts

def toArguments (p : Progress) : Arguments :=
  ⟨p.input.getD standardInput, p.output, p.positions, p.line, p.config⟩

end Progress

def parse (args : List Text) : Except Stop Arguments := do
  let p ← Progress.start.takeAll args
  return (← p.settle).toArguments

end Arguments

end CanonicalText
