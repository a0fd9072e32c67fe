import CanonicalText.Text.Decimal
import CanonicalText.Text.Printable

/-!
# Quoted characters and texts

`quotedChar` and `quotedText` show a character in single and a text in double quotes, so that every
character can be told from its picture: the usual escapes for `\0`, `\t`, `\r`, `\n`, the backslash and
the quote in use, the code point of a character that does not print by itself or attaches to the one
before it, and the bare character otherwise.
-/

namespace CanonicalText

/-- The code point of a character in braces, in hexadecimal. -/
def codePointEscape (c : Char) : Text :=
  "\\u\x7b".toList ++ hexadecimal c.toNat ++ "\x7d".toList

def escaped (quote c : Char) : Text :=
  if c = '\x00' then ['\\', '0']
  else if c = '\t' then ['\\', 't']
  else if c = '\r' then ['\\', 'r']
  else if c = '\n' then ['\\', 'n']
  else if c = '\\' ∨ c = quote then ['\\', c]
  else if isAttaching c ∨ ¬ isPrintable c then codePointEscape c
  else [c]

def quotedChar (c : Char) : Text := '\x27' :: (escaped '\x27' c ++ ['\x27'])

def quotedText (t : Text) : Text := '"' :: (t.flatMap (escaped '"') ++ ['"'])

end CanonicalText
