import CanonicalText.Json.Coordinates

/-!
# Elements of views

What a view can hold: values that can be shown with their kind in sight, and that have a JSON form. A list
is shown on one line, or with one indented line for every line of its elements.
-/

namespace CanonicalText

/-- Values that views hold. -/
class Element (α : Type) where
  /-- The value on one line. -/
  debug : α → Text
  /-- The value on as many lines as it has parts. -/
  debugLines : α → List Text
  toJson : α → Json.Value
  ofJson : Json.Decoder α

namespace Element

instance : Element Int64 where
  debug n := signedDecimal n.toInt
  debugLines n := [signedDecimal n.toInt]
  toJson n := .number (if n < 0 then .negative n else .natural (UInt64.ofNat n.toInt.toNat))
  ofJson := Json.integer

instance : Element Char where
  debug := quotedChar
  debugLines c := [quotedChar c]
  toJson c := .text [c]
  ofJson := Json.character

instance : Element String where
  debug s := quotedText s.toList
  debugLines s := [quotedText s.toList]
  toJson s := .text s.toList
  ofJson t := (Json.text t).map fun r => (String.ofList r.1, r.2)

instance : Element Position where
  debug := Position.debug
  debugLines p :=
    ["Position \x7b".toList, "    line: ".toList ++ decimal p.line.toNat ++ [','],
      "    column: ".toList ++ decimal p.column.toNat ++ [','], "\x7d".toList]
  toJson := Position.toJson
  ofJson := Position.ofJson

instance : Element Binary64 where
  debug x := x.text .debug
  debugLines x := [x.text .debug]
  toJson x := .number (.floating x)
  ofJson := Json.floatingPoint

variable {α : Type} [Element α]

def debugList (xs : List α) : Text :=
  '[' :: (", ".toList.intercalate (xs.map debug) ++ [']'])

def debugItem (x : α) : Text :=
  "\n".toList.intercalate ((debugLines x).map fun line => "    ".toList ++ line) ++ ",\n".toList

def prettyList (xs : List α) : Text :=
  if xs.isEmpty then "[]".toList else "[\n".toList ++ xs.flatMap debugItem ++ [']']

def encodeList (xs : List α) : Text := (Json.Value.array (xs.map toJson)).compact

end Element

end CanonicalText
