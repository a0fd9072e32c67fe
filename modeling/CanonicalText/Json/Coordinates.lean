import CanonicalText.Location
import CanonicalText.Json.Decode
import CanonicalText.Json.Value

/-!
# Positions and locations in JSON

Both are objects of two members; they are also read from arrays of two items, and keys they do not have
are passed over.
-/

namespace CanonicalText

namespace Position

def toJson (p : Position) : Json.Value :=
  .object [("line".toList, .number (.natural p.line)), ("column".toList, .number (.natural p.column))]

def ofJson : Json.Decoder Position := fun t =>
  (Json.record ⟨"Position", false⟩ ⟨"line", Json.word, none⟩ ⟨"column", Json.word, none⟩ t).map
    fun r => (⟨r.1.1, r.1.2⟩, r.2)

end Position

namespace Location

def toJson (a : Location) : Json.Value :=
  .object [("from".toList, a.start.toJson), ("to".toList, a.stop.toJson)]

def ofJson : Json.Decoder Location := fun t =>
  (Json.record ⟨"Location", false⟩ ⟨"from", Position.ofJson, none⟩ ⟨"to", Position.ofJson, none⟩ t).map
    fun r => (⟨r.1.1, r.1.2⟩, r.2)

end Location

end CanonicalText
