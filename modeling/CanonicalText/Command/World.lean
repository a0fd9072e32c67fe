import CanonicalText.Json.Error

/-!
# The world of a run

What the program finds when it starts: what paths lead to, standard input, the variables of the environment, and
the words in which others say what they refuse.

* `World.text?` : the text that a path leads to;
* `World.afterReading` : what is left after a path has been read, as standard input can be read only once.
-/

namespace CanonicalText

inductive Entry where
  | missing
  /-- Something that cannot be read as a text, such as a directory. -/
  | unreadable
  | file (content : ByteArray)
  /-- The stream itself, such as a pipe. Where it is redirected from a file, a path to it leads to that file. -/
  | standardInput

def textOfBytes? (bytes : ByteArray) : Option Text := (String.fromUTF8? bytes).map String.toList

/-- How the system words why it cannot read a path, and the JSON library what is wrong with a text. -/
structure Wording where
  unreadable : Text → Text
  refused : Text → Json.Error → Text

/-- What is known of these words without their authors: no more than what does not fit, without its place. -/
def Wording.brief : Wording where
  unreadable _ := []
  refused _ e :=
    match e with
    | .mismatch cause => cause.message
    | _ => []

structure World where
  entry : Text → Entry
  standardInput : ByteArray
  /-- The text of an environment variable, if it is set. -/
  environment : String → Option Text
  wording : Wording

namespace World

/-- The world in which the given paths lead to the given entries and all others nowhere. -/
def ofEntries (entries : List (Text × Entry)) (standardInput : ByteArray)
    (bindings : List (String × Text)) : World :=
  ⟨fun path => (entries.lookup path).getD .missing, standardInput,
    fun name => bindings.lookup name, .brief⟩

def text? (w : World) (path : Text) : Option Text :=
  match w.entry path with
  | .file content => textOfBytes? content
  | .standardInput => textOfBytes? w.standardInput
  | _ => none

/-- The world after what a path leads to has been read. That uses up the stream of standard input and nothing
else: files can be read again. -/
def afterReading (w : World) (path : Text) : World :=
  match w.entry path with
  | .standardInput => { w with standardInput := .empty }
  | _ => w

end World

end CanonicalText
