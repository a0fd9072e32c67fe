import CanonicalText.Command.Log.Directive
import CanonicalText.Fault

/-!
# Log filters

A filter is a list of directives. Of those that concern an event, the one that no other goes before
decides on it; an event that none concerns is not let through. The text of a filter has its directives
between commas.

* `Filter.ofText` : the filter of a text, or why it has none;
* `Filter.choose` : the filter to go by;
* `Filter.passes` : whether an event is let through.
-/

namespace CanonicalText.Log

def commaParts (t : Text) : List Text := (t.splitOn ',').filter (· ≠ [])

abbrev Filter := List Directive

namespace Filter

/-- What is let through if nothing else is asked for. -/
def default : Filter := [.ofLimit Level.warn.rank]

/-- Reads a filter, if every part of it is a directive. Without any, only errors are let through. -/
def ofText (t : Text) : Except Misreading Filter :=
  match (commaParts t).mapM Directive.ofText with
  | .ok [] => .ok [.ofLimit Level.error.rank]
  | other => other

/-- The filter to go by, given the texts of the program's own one and of the general one. A malformed text
counts as none. -/
def choose (own general : Option Text) : Except Fault Filter :=
  match (own <|> general).map ofText with
  | some (.ok f) => .ok f
  | some (.error (.insideCharacter offset)) => .error (.insideCharacter offset)
  | _ => .ok default

def deciding? (f : Filter) (e : Event) : Option Directive :=
  (f.filter (·.concerns e)).foldl
    (fun best d => match best with
      | some b => if b.yieldsTo d then some d else some b
      | none => some d) none

def passes (f : Filter) (e : Event) : Bool :=
  match f.deciding? e with
  | some d => e.level.rank ≤ d.limit
  | none => false

end Filter

end CanonicalText.Log
