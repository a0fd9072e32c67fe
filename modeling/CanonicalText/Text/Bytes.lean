import CanonicalText.Text.Decimal

/-!
# Texts by bytes

A text takes up bytes in UTF-8, one to four for each character. `dropBytes?` and `takeBytes?` cut a text
at a number of bytes, unless that lies inside a character.

* `dropBytes?_append`, `takeBytes?_append` : a cut between two texts gives the two texts.
-/

namespace CanonicalText

def utf8Length : Text → Nat
  | [] => 0
  | c :: t => c.utf8Size + utf8Length t

def dropBytes? : Nat → Text → Option Text
  | 0, t => some t
  | _ + 1, [] => none
  | n + 1, c :: t => if c.utf8Size ≤ n + 1 then dropBytes? (n + 1 - c.utf8Size) t else none

def takeBytes? : Nat → Text → Option Text
  | 0, _ => some []
  | _ + 1, [] => none
  | n + 1, c :: t =>
    if c.utf8Size ≤ n + 1 then (takeBytes? (n + 1 - c.utf8Size) t).map (c :: ·) else none

theorem dropBytes?_cons (n : Nat) (c : Char) (t : Text) :
    dropBytes? (c.utf8Size + n) (c :: t) = dropBytes? n t := by
  have hc := c.utf8Size_pos
  cases h : c.utf8Size + n with
  | zero => omega
  | succ m => rw [dropBytes?, if_pos (by omega), show m + 1 - c.utf8Size = n by omega]

theorem takeBytes?_cons (n : Nat) (c : Char) (t : Text) :
    takeBytes? (c.utf8Size + n) (c :: t) = (takeBytes? n t).map (c :: ·) := by
  have hc := c.utf8Size_pos
  cases h : c.utf8Size + n with
  | zero => omega
  | succ m => rw [takeBytes?, if_pos (by omega), show m + 1 - c.utf8Size = n by omega]

theorem dropBytes?_append (s t : Text) : dropBytes? (utf8Length s) (s ++ t) = some t := by
  induction s with
  | nil => rw [utf8Length, List.nil_append, dropBytes?]
  | cons c s ih => rw [utf8Length, List.cons_append, dropBytes?_cons, ih]

theorem takeBytes?_append (s t : Text) : takeBytes? (utf8Length s) (s ++ t) = some s := by
  induction s with
  | nil => rw [utf8Length, takeBytes?]
  | cons c s ih => rw [utf8Length, List.cons_append, takeBytes?_cons, ih, Option.map_some]

end CanonicalText
