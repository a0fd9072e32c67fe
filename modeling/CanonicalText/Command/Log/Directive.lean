import CanonicalText.Binary64.Shortest
import CanonicalText.Command.Log.Event
import CanonicalText.Text.Bytes
import CanonicalText.Text.Pattern

/-!
# Directives of log filters

A directive lets events through up to a level, if they come from a target that starts with its own and
have the field that it asks for. A directive with a span, or with a value for its field, is for what
happens in certain spans. Events happen in none, so it decides on nothing.

The text of a directive is a level; or it is a target, brackets with a span, a field in braces or both in
them, or a target and brackets, with a level after an equals sign if there is a limit.

* `Directive.ofText` : the directive of a text, or why it has none;
* `Directive.concerns` : whether a directive decides on an event;
* `Directive.yieldsTo` : which one of two directives goes first.
-/

namespace CanonicalText.Log

structure Field where
  name : Text
  value : Option Text
deriving DecidableEq

/-- Lets through what it decides on up to the rank `limit`. -/
structure Directive where
  target : Text
  span : Option Text
  field : Option Field
  limit : Nat
deriving DecidableEq

inductive Misreading where
  | malformed
  /-- A part of a directive would start or end at this byte, which lies inside a character. -/
  | insideCharacter (offset : Nat)
deriving DecidableEq

def noLimit : Nat := Level.trace.rank

/-- The greatest rank that is let through, by its number or by the name of the level. -/
def limit? (t : Text) : Option Nat :=
  let digits := match t with
    | '+' :: t => t
    | t => t
  if digits ≠ [] ∧ digits.all Char.isDigit then
    if ofDecimal digits ≤ noLimit then some (ofDecimal digits) else none
  else
    let name := t.map Char.toLower
    if name = "error".toList then some 1
    else if name = "warn".toList then some 2
    else if name = "info".toList then some 3
    else if name = "debug".toList then some 4
    else if name = "trace".toList then some 5
    else if name = "off".toList then some 0
    else none

/-- Whether a text is the value of a field: a number, or a pattern that the value matches. -/
def isFieldValue (t : Text) : Bool := (Binary64.ofText? t).isSome || isPattern t

/-- Reads a field: its name, and its value after an equals sign. What comes after another equals sign does
not count. -/
def Field.ofText? (t : Text) : Option Field :=
  let name := t.takeWhile (· ≠ '=')
  match t.drop name.length with
  | [] => if name = [] then none else some ⟨name, none⟩
  | _ :: rest =>
    let value := rest.takeWhile (· ≠ '=')
    if isFieldValue value then some ⟨name, some value⟩ else none

namespace Directive

def ofLimit (limit : Nat) : Directive := ⟨[], none, none, limit⟩

def concerns (d : Directive) (e : Event) : Bool :=
  d.span.isNone && d.target.isPrefixOf e.target &&
    d.field.all fun f => f.value.isNone && e.fieldNames.contains f.name

/-- Whether the other of two directives that concern an event goes first. That is the one with the longer
target. If both have the same, it is the one with a field, and if both have one, the one with the later
name. In the end it is the one that was given later, here `other`. -/
def yieldsTo (d other : Directive) : Bool :=
  if d.target.length = other.target.length then
    match d.field, other.field with
    | some f, some g => !decide (g.name < f.name)
    | some _, none => false
    | none, _ => true
  else d.target.length < other.target.length

/-! ## Reading -/

def startsWith (c : Char) : Bool :=
  c == '-' || c == ':' || c == '_' || c == '[' || isAlphanumeric c

/-- The part of a text from one byte up to another. -/
def cut (t : Text) (start stop : Nat) : Except Misreading Text :=
  match dropBytes? start t with
  | none => .error (.insideCharacter start)
  | some t =>
    match takeBytes? (stop - start) t with
    | none => .error (.insideCharacter stop)
    | some part => .ok part

/-- The limit that stands from a byte on, up to the end of the text; if nothing does, there is none. -/
def limitFrom (t : Text) (start : Nat) : Except Misreading Nat :=
  match dropBytes? start t with
  | none => .error (.insideCharacter start)
  | some [] => .ok noLimit
  | some t =>
    match limit? t with
    | some limit => .ok limit
    | none => .error .malformed

/-- Reads the limit of the directive `t` after its brackets, where at the byte `start` there is `rest`. -/
def limitAfter (t rest : Text) (start : Nat) : Except Misreading Nat :=
  match rest with
  | [] => .ok noLimit
  | '=' :: _ => limitFrom t (start + 1)
  | _ => .error .malformed

/-- Reads the directive `t` from its field on. After the brace before the field, at the byte `start`, comes
`rest`. -/
def ofField (t target : Text) (span : Option Text) (rest : Text) (start : Nat) :
    Except Misreading Directive := do
  let inside := rest.takeWhile (· ≠ '\x7d')
  let stop := start + utf8Length inside
  match rest.drop inside.length with
  | [] => .error .malformed
  | _ :: rest =>
    match Field.ofText? (← cut t start stop), rest with
    | some field, ']' :: rest => return ⟨target, span, some field, ← limitAfter t rest (stop + 2)⟩
    | _, _ => .error .malformed

/-- Reads the directive `t` from its span on. After the bracket before the span, at the byte `start`, comes
`rest`. Before a field the name of the span may be missing. -/
def ofSpan (t target rest : Text) (start : Nat) : Except Misreading Directive := do
  let name := rest.takeWhile fun c => c ≠ ']' ∧ c ≠ '\x7b'
  let stop := start + utf8Length name
  match rest.drop name.length with
  | [] => .error .malformed
  | c :: rest =>
    let span ← cut t start stop
    if c = ']' then return ⟨target, some span, none, ← limitAfter t rest (stop + 1)⟩
    else ofField t target (if span = [] then none else some span) rest (stop + 1)

/-- Reads a directive. Its marks are looked for in the text without the white space at its ends, and what
stands between them is cut out of the whole text, at the same distances from its start. So white space
belongs to a target or a level, and what stands before a target takes as much from its end. -/
def ofText (t : Text) : Except Misreading Directive := do
  let shown := trim t
  if !shown.head?.any startsWith then .error .malformed
  else
    let head := shown.takeWhile fun c => c ≠ '=' ∧ c ≠ '['
    let stop := utf8Length head
    match shown.drop head.length with
    | [] =>
      match limit? t with
      | some limit => return ofLimit limit
      | none => return ⟨t, none, none, noLimit⟩
    | '[' :: rest => ofSpan t (← cut t 0 stop) rest (stop + 1)
    | _ =>
      let target ← cut t 0 stop
      return ⟨target, none, none, ← limitFrom t (stop + 1)⟩

end Directive

end CanonicalText.Log
