import CanonicalText.Reader.Normalizer
import CanonicalText.View.Buffer

/-!
# Reading into buffers

The canonical characters of a finite text in three shapes: characters, characters with their positions,
and characters and positions side by side in two buffers of one length.
-/

namespace CanonicalText

def read (text : Text) : Buffer Char := .ofList (canonicalize text)

def readPositioned (text : Text) : Buffer (Position × Char) := .ofList (pairs text)

def readSplit (text : Text) : Buffer Position × Buffer Char :=
  (.ofList ((pairs text).map (·.1)), .ofList ((pairs text).map (·.2)))

end CanonicalText
