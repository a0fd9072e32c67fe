import CanonicalText.Text.Decimal

/-!
# Log events

An event has a level, a target, which is the part of the program that it comes from, a message, and fields
with further facts. A message can end in a reason in the words of others.

* `Event.line` : the line of the log;
* `Event.display` : the line as far as the program words it.
-/

namespace CanonicalText.Log

inductive Level where
  | error
  | warn
  | info
  | debug
  | trace
deriving DecidableEq

namespace Level

def rank : Level → Nat
  | error => 1
  | warn => 2
  | info => 3
  | debug => 4
  | trace => 5

def display : Level → Text
  | error => "ERROR".toList
  | warn => "WARN".toList
  | info => "INFO".toList
  | debug => "DEBUG".toList
  | trace => "TRACE".toList

end Level

structure Event where
  level : Level
  target : Text
  message : Text
  /-- What the message ends in, after a colon. -/
  reason : Option Text
  /-- Further facts, each by the name of its field. -/
  fields : List (String × Text)
deriving DecidableEq

namespace Event

/-- The names of the fields, of which the message is one. -/
def fieldNames (e : Event) : List Text := "message".toList :: e.fields.map fun f => f.1.toList

def withoutReason (e : Event) : Event := { e with reason := none }

def line (e : Event) : Text :=
  let reason := match e.reason with
    | some r => ": ".toList ++ r
    | none => []
  e.level.display ++ ' ' :: e.message ++ reason ++ e.fields.flatMap fun f => ' ' :: f.1.toList ++ '=' :: f.2

def display (e : Event) : Text := e.withoutReason.line

end Event

end CanonicalText.Log
