import CanonicalText.Json.Error
import CanonicalText.Text.Bytes

/-!
# Reading the parts of a JSON text

A scanner takes what it reads off the front of a text and returns the rest. Errors come in the order in
which the text is read. The scanners of this file are those that need no type: blanks, literals, strings,
the separators of arrays and objects, and `skipValue`, which passes over a value of any kind.

What is passed over has to be well formed, but it stands for nothing: its numbers may be of any size,
and its escapes need not make up characters.
-/

namespace CanonicalText.Json

abbrev Decoder (α : Type) := Text → Except Error (α × Text)

def isBlank (c : Char) : Bool := c == ' ' || c == '\n' || c == '\t' || c == '\r'

def skipBlank (t : Text) : Text := t.dropWhile isBlank

def literal : Text → Text → Except Error Text
  | [], t => .ok t
  | e :: es, c :: t => if c = e then literal es t else .error .malformed
  | _ :: _, [] => .error .truncated

/-! ## Strings -/

/-- Reads four hexadecimal digits; a text of fewer than four bytes stops too early for them. -/
def hexQuad (t : Text) : Except Error (Nat × Text) :=
  match t with
  | a :: b :: c :: d :: rest =>
    match hexValue? a, hexValue? b, hexValue? c, hexValue? d with
    | some a, some b, some c, some d => .ok (((a * 16 + b) * 16 + c) * 16 + d, rest)
    | _, _, _, _ => .error .malformed
  | t => .error (if utf8Length t < 4 then .truncated else .malformed)

def escapeOf? (c : Char) : Option Char :=
  if c = '"' ∨ c = '\\' ∨ c = '/' then some c
  else if c = 'b' then some '\x08'
  else if c = 'f' then some '\x0c'
  else if c = 'n' then some '\n'
  else if c = 'r' then some '\r'
  else if c = 't' then some '\t'
  else none

/-- Reads the second half of a surrogate pair, with its backslash. -/
def trailingSurrogate (lead : Nat) (t : Text) : Except Error (Char × Text) :=
  match t with
  | [] => .error .truncated
  | ['\\'] => .error .truncated
  | '\\' :: 'u' :: t =>
    match hexQuad t with
    | .error e => .error e
    | .ok (trail, t) =>
      if 0xDC00 ≤ trail ∧ trail ≤ 0xDFFF then
        .ok (Char.ofNat ((lead - 0xD800) * 1024 + (trail - 0xDC00) + 0x10000), t)
      else .error .malformed
  | _ => .error .malformed

/-- Reads the digits of a code point, and of a second one if the first is half of a surrogate pair. -/
def codePoint (t : Text) : Except Error (Char × Text) :=
  match hexQuad t with
  | .error e => .error e
  | .ok (n, t) =>
    if 0xDC00 ≤ n ∧ n ≤ 0xDFFF then .error .malformed
    else if 0xD800 ≤ n ∧ n ≤ 0xDBFF then trailingSurrogate n t
    else .ok (Char.ofNat n, t)

def escapeSequence (t : Text) : Except Error (Char × Text) :=
  match t with
  | [] => .error .truncated
  | 'u' :: t => codePoint t
  | c :: t =>
    match escapeOf? c with
    | some c => .ok (c, t)
    | none => .error .malformed

/-- Reads the characters of a string up to its closing quote. Every step takes a character off the text,
so there are no more of them than `fuel`, the length of the text. -/
def characters : Nat → Decoder Text
  | 0, _ => .error .truncated
  | fuel + 1, t => do
    match t with
    | [] => .error .truncated
    | '"' :: t => .ok ([], t)
    | '\\' :: t =>
      let (c, t) ← escapeSequence t
      let (cs, t) ← characters fuel t
      return (c :: cs, t)
    | c :: t =>
      if c < ' ' then .error .malformed
      else
        let (cs, t) ← characters fuel t
        return (c :: cs, t)

def stringBody : Decoder Text := fun t => characters (t.length + 1) t

def skipEscape (t : Text) : Except Error Text :=
  match t with
  | [] => .error .truncated
  | 'u' :: t => (hexQuad t).map (·.2)
  | c :: t => if (escapeOf? c).isSome then .ok t else .error .malformed

/-- Passes over the characters of a string and its closing quote. -/
def skipCharacters : Nat → Text → Except Error Text
  | 0, _ => .error .truncated
  | fuel + 1, t => do
    match t with
    | [] => .error .truncated
    | '"' :: t => .ok t
    | '\\' :: t => skipCharacters fuel (← skipEscape t)
    | c :: t => if c < ' ' then .error .malformed else skipCharacters fuel t

/-! ## Arrays and objects -/

/-- Where the next item of an array starts, or `none` if the array ends here. A comma must stand before
every item but the first, and only there. -/
def nextItem (first : Bool) (t : Text) : Except Error (Option Text) :=
  match skipBlank t with
  | [] => .error .truncated
  | ']' :: _ => .ok none
  | c :: t =>
    if first then .ok (some (c :: t))
    else if c = ',' then
      match skipBlank t with
      | [] => .error .truncated
      | ']' :: _ => .error .malformed
      | t => .ok (some t)
    else .error .malformed

def closeArray (t : Text) : Except Error Text :=
  match skipBlank t with
  | [] => .error .truncated
  | ']' :: t => .ok t
  | _ => .error .malformed

/-- What follows the opening quote of the next key of an object, or `none` if the object ends here. -/
def nextKey (first : Bool) (t : Text) : Except Error (Option Text) :=
  match skipBlank t with
  | [] => .error .truncated
  | '\x7d' :: _ => .ok none
  | c :: t =>
    if first then if c = '"' then .ok (some t) else .error .malformed
    else if c = ',' then
      match skipBlank t with
      | [] => .error .truncated
      | '"' :: t => .ok (some t)
      | _ => .error .malformed
    else .error .malformed

def closeObject (t : Text) : Except Error Text :=
  match skipBlank t with
  | [] => .error .truncated
  | '\x7d' :: t => .ok t
  | _ => .error .malformed

def colon (t : Text) : Except Error Text :=
  match skipBlank t with
  | [] => .error .truncated
  | ':' :: t => .ok t
  | _ => .error .malformed

/-! ## Passing over values -/

def skipExponent (t : Text) : Except Error Text :=
  let t := match t with
    | '+' :: t => t
    | '-' :: t => t
    | t => t
  match t with
  | [] => .error .malformed
  | c :: t => if c.isDigit then .ok (t.dropWhile Char.isDigit) else .error .malformed

def skipExponentPart : Text → Except Error Text
  | 'e' :: t => skipExponent t
  | 'E' :: t => skipExponent t
  | t => .ok t

def skipNumber (t : Text) : Except Error Text :=
  match t with
  | [] => .error .malformed
  | c :: _ =>
    let whole := t.takeWhile Char.isDigit
    let rest := t.dropWhile Char.isDigit
    if whole = [] ∨ (c = '0' ∧ 1 < whole.length) then .error .malformed
    else
      match rest with
      | '.' :: t =>
        if t.takeWhile Char.isDigit = [] then .error .malformed
        else skipExponentPart (t.dropWhile Char.isDigit)
      | t => skipExponentPart t

mutual

/-- Passes over a value of any kind. A value in an array or object is two calls deeper than the bracket
before it, and an item or member one call deeper than the comma before it, so that twice the length of
the text is `fuel` enough. -/
def skipValueWith : Nat → Text → Except Error Text
  | 0, _ => .error .truncated
  | fuel + 1, t =>
    match skipBlank t with
    | [] => .error .truncated
    | 'n' :: t => literal ['u', 'l', 'l'] t
    | 't' :: t => literal ['r', 'u', 'e'] t
    | 'f' :: t => literal ['a', 'l', 's', 'e'] t
    | '-' :: t => skipNumber t
    | '"' :: t => skipCharacters (t.length + 1) t
    | '[' :: t => skipItems fuel true t
    | '\x7b' :: t => skipMembers fuel true t
    | c :: t => if c.isDigit then skipNumber (c :: t) else .error .malformed

def skipItems : Nat → Bool → Text → Except Error Text
  | 0, _, _ => .error .truncated
  | fuel + 1, first, t => do
    match ← nextItem first t with
    | none => closeArray t
    | some t => skipItems fuel false (← skipValueWith fuel t)

def skipMembers : Nat → Bool → Text → Except Error Text
  | 0, _, _ => .error .truncated
  | fuel + 1, first, t => do
    match ← nextKey first t with
    | none => closeObject t
    | some t =>
      let t ← skipCharacters (t.length + 1) t
      skipMembers fuel false (← skipValueWith fuel (← colon t))

end

def skipValue (t : Text) : Except Error Text := skipValueWith (2 * t.length + 2) t

end CanonicalText.Json
