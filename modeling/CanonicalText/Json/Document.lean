import CanonicalText.Json.Decode
import CanonicalText.Json.Value

/-!
# Reading JSON texts as documents

A text is read as the document that it is, of whatever kind. The members of an object are kept in their order, also
those of one name. Brackets may nest as deep as a bound says.

* `valueWithin` : documents within a bound;
* `value` : documents within the usual one.
-/

namespace CanonicalText.Json

/-- Reads the members of an object and its end. Every member takes a character off the text, so there are no more
of them than `fuel`, the length of the text. -/
def memberList (member : Decoder Value) : Nat → Bool → Decoder (List (Text × Value))
  | 0, _, _ => .error .truncated
  | fuel + 1, first, t => do
    match ← nextKey first t with
    | none => return ([], ← closeObject t)
    | some t =>
      let (name, t) ← stringBody t
      let (x, t) ← member (← colon t)
      let (members, t) ← memberList member fuel false t
      return ((name, x) :: members, t)

/-- Reads a document in which every value stands inside fewer than `depth` brackets. -/
def valueWithin : Nat → Decoder Value
  | 0 => fun _ => .error .malformed
  | depth + 1 => fun t =>
    match skipBlank t with
    | [] => .error .truncated
    | 'n' :: t => (literal ['u', 'l', 'l'] t).map (.null, ·)
    | 't' :: t => (literal ['r', 'u', 'e'] t).map (.boolean true, ·)
    | 'f' :: t => (literal ['a', 'l', 's', 'e'] t).map (.boolean false, ·)
    | '"' :: t => (stringBody t).map fun r => (.text r.1, r.2)
    | '[' :: t => (items (valueWithin depth) (t.length + 1) true t).map fun r => (.array r.1, r.2)
    | '\x7b' :: t =>
      (memberList (valueWithin depth) (t.length + 1) true t).map fun r => (.object r.1, r.2)
    | c :: t =>
      if c = '-' ∨ c.isDigit then (number (c :: t)).map fun r => (.number r.1, r.2)
      else .error .malformed

def value : Decoder Value := valueWithin 128

end CanonicalText.Json
