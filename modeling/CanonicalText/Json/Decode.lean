import CanonicalText.Json.Number

/-!
# Reading JSON texts as values of a type

Each decoder reads one type. Where the text holds a value of another kind, that value is read as far as
the error names it (`unexpected`).

* `word`, `integer`, `floatingPoint`, `character`, `text`, `boolean`, `option` : scalars;
* `array` : sequences;
* `Field`, `record` : records of two fields, from an object or from an array in field order;
* `decodeText` : a whole text.
-/

namespace CanonicalText.Json

def unexpected (expected : Expected) (t : Text) : Error :=
  let name := fun r : Except Error Found => match r with
    | .ok found => .mismatch (.wrongType found expected)
    | .error e => e
  match t with
  | 'n' :: t => name ((literal ['u', 'l', 'l'] t).map fun _ => .null)
  | 't' :: t => name ((literal ['r', 'u', 'e'] t).map fun _ => .boolean true)
  | 'f' :: t => name ((literal ['a', 'l', 's', 'e'] t).map fun _ => .boolean false)
  | '"' :: t => name ((stringBody t).map fun r => .text r.1)
  | '[' :: _ => name (.ok .array)
  | '\x7b' :: _ => name (.ok .object)
  | [] => .malformed
  | c :: _ =>
    if c = '-' ∨ c.isDigit then name ((number t).map fun r => .number r.1) else .malformed

/-! ## Scalars -/

/-- Reads a number and turns it into a value, if it is one of the type. -/
def numeric {α : Type} (expected : Expected) (ofNumber : Number → Except Mismatch α) : Decoder α :=
  fun t =>
    match skipBlank t with
    | [] => .error .truncated
    | c :: t =>
      if c = '-' ∨ c.isDigit then
        match number (c :: t) with
        | .error e => .error e
        | .ok (n, rest) =>
          match ofNumber n with
          | .ok x => .ok (x, rest)
          | .error cause => .error (.mismatch cause)
      else .error (unexpected expected (c :: t))

def word : Decoder UInt64 := numeric .word fun
  | .natural n => .ok n
  | .negative n => .error (.wrongValue (.number (.negative n)) .word)
  | .floating x => .error (.wrongType (.number (.floating x)) .word)

def integer : Decoder Int64 := numeric .integer fun
  | .natural n =>
    if n.toNat ≤ Int64.maxValue.toInt then .ok (Int64.ofInt n.toNat)
    else .error (.wrongValue (.number (.natural n)) .integer)
  | .negative n => .ok n
  | .floating x => .error (.wrongType (.number (.floating x)) .integer)

def floatingPoint : Decoder Binary64 := numeric .floating fun
  | .natural n => .ok (.ofNat n.toNat)
  | .negative n => .ok (-.ofNat n.toInt.natAbs)
  | .floating x => .ok x

/-- Reads a string and turns it into a value, if it is one of the type. -/
def textual {α : Type} (expected : Expected) (ofText : Text → Except Mismatch α) : Decoder α :=
  fun t =>
    match skipBlank t with
    | [] => .error .truncated
    | '"' :: t =>
      match stringBody t with
      | .error e => .error e
      | .ok (s, rest) =>
        match ofText s with
        | .ok x => .ok (x, rest)
        | .error cause => .error (.mismatch cause)
    | t => .error (unexpected expected t)

def text : Decoder Text := textual .text .ok

def character : Decoder Char := textual .character fun
  | [c] => .ok c
  | s => .error (.wrongValue (.text s) .character)

def boolean : Decoder Bool := fun t =>
  match skipBlank t with
  | [] => .error .truncated
  | 't' :: t => (literal ['r', 'u', 'e'] t).map (true, ·)
  | 'f' :: t => (literal ['a', 'l', 's', 'e'] t).map (false, ·)
  | t => .error (unexpected .boolean t)

def null : Decoder Unit := fun t =>
  match skipBlank t with
  | [] => .error .truncated
  | 'n' :: t => (literal ['u', 'l', 'l'] t).map ((), ·)
  | t => .error (unexpected .null t)

def option {α : Type} (value : Decoder α) : Decoder (Option α) := fun t =>
  match skipBlank t with
  | 'n' :: t => (literal ['u', 'l', 'l'] t).map (none, ·)
  | t => (value t).map fun r => (some r.1, r.2)

/-! ## Variants -/

def variantName {α : Type} (variants : List (String × α)) : Decoder α := fun t => do
  let (name, t) ← stringBody t
  match variants.find? (·.1.toList == name) with
  | some v => return (v.2, t)
  | none => .error (.mismatch (.unknownVariant name (variants.map (·.1))))

/-- Reads one of several named values: its name, or an object with the name as its only key, for `null`.
A value of another kind is malformed. -/
def variant {α : Type} (variants : List (String × α)) : Decoder α := fun t =>
  match skipBlank t with
  | [] => .error .truncated
  | '"' :: t => variantName variants t
  | '\x7b' :: t => do
    match ← nextKey true t with
    | none => .error .malformed
    | some t =>
      let (x, t) ← variantName variants t
      let (_, t) ← null (← colon t)
      return (x, ← closeObject t)
  | _ => .error .malformed

/-! ## Arrays -/

/-- Reads the items of an array and its end. Every item takes a character off the text, so there are no
more of them than `fuel`, the length of the text. -/
def items {α : Type} (item : Decoder α) : Nat → Bool → Decoder (List α)
  | 0, _, _ => .error .truncated
  | fuel + 1, first, t => do
    match ← nextItem first t with
    | none => return ([], ← closeArray t)
    | some t =>
      let (x, t) ← item t
      let (xs, t) ← items item fuel false t
      return (x :: xs, t)

def array {α : Type} (item : Decoder α) : Decoder (List α) := fun t =>
  match skipBlank t with
  | [] => .error .truncated
  | '[' :: t => items item (t.length + 1) true t
  | t => .error (unexpected .array t)

/-! ## Records -/

/-- A field of a record: its name, its decoder, and what it is when it is absent, if it may be. -/
structure Field (α : Type) where
  name : String
  decode : Decoder α
  absent : Option α

/-- What a record is called, and whether it refuses keys that are no field names. -/
structure RecordShape where
  title : String
  strict : Bool

variable {α β : Type}

/-- The value of a field that has been read or is absent. -/
def Field.valueOf (f : Field α) (x : Option α) : Except Error α :=
  match x <|> f.absent with
  | some x => .ok x
  | none => .error (.mismatch (.missingField f.name))

/-- Reads the value of a field after its key, unless the field has been read before. -/
def Field.readMember (f : Field α) (x : Option α) (t : Text) : Except Error (α × Text) :=
  match x with
  | some _ => .error (.mismatch (.duplicateField f.name))
  | none => colon t >>= f.decode

/-- Reads the members of an object and its end, given the fields that have been read. Every member takes
a character off the text, so there are no more of them than `fuel`, the length of the text. -/
def members (shape : RecordShape) (f : Field α) (g : Field β) :
    Nat → Bool → Option α → Option β → Decoder (Option α × Option β)
  | 0, _, _, _, _ => .error .truncated
  | fuel + 1, first, x, y, t => do
    match ← nextKey first t with
    | none => return ((x, y), ← closeObject t)
    | some t =>
      let (key, t) ← stringBody t
      if key = f.name.toList then
        let (a, t) ← f.readMember x t
        members shape f g fuel false (some a) y t
      else if key = g.name.toList then
        let (b, t) ← g.readMember y t
        members shape f g fuel false x (some b) t
      else if shape.strict then .error (.mismatch (.unknownField key [f.name, g.name]))
      else members shape f g fuel false x y (← skipValue (← colon t))

def Field.readItem (f : Field α) (shape : RecordShape) (place : Nat) (t : Text) :
    Except Error (α × Text) := do
  match ← nextItem (place = 0) t with
  | some t => f.decode t
  | none =>
    match f.absent with
    | some x => return (x, t)
    | none => .error (.mismatch (.wrongLength place (.recordOf shape.title 2)))

/-- Reads a record of two fields: from an object, in any order and each at most once, or from an array in
field order. -/
def record (shape : RecordShape) (f : Field α) (g : Field β) : Decoder (α × β) := fun t =>
  match skipBlank t with
  | [] => .error .truncated
  | '[' :: t => do
    let (a, t) ← f.readItem shape 0 t
    let (b, t) ← g.readItem shape 1 t
    return ((a, b), ← closeArray t)
  | '\x7b' :: t => do
    let ((x, y), t) ← members shape f g (t.length + 1) true none none t
    return ((← f.valueOf x, ← g.valueOf y), t)
  | t => .error (unexpected (.record shape.title) t)

/-! ## Whole texts -/

/-- Reads a text that holds one value and nothing else. -/
def decodeText {γ : Type} (value : Decoder γ) (t : Text) : Except Error γ := do
  let (x, t) ← value t
  if skipBlank t = [] then return x else .error .malformed

end CanonicalText.Json
