/-!
# Texts and numerals

A text is a list of characters. `decimal` and `hexadecimal` write a natural number, `ofDecimal` reads
digits back (`ofDecimal_decimal`).
-/

namespace CanonicalText

/-- A text, as its characters in order. -/
abbrev Text := List Char

/-- The decimal digits of `n`, most significant first. -/
def decimal (n : Nat) : Text := Nat.toDigits 10 n

def signedDecimal (n : Int) : Text :=
  if n < 0 then '-' :: decimal n.natAbs else decimal n.natAbs

def ofDecimal (digits : Text) : Nat := Nat.ofDigitChars 10 digits 0

/-- The hexadecimal digits of `n`, in lower case, most significant first. -/
def hexadecimal (n : Nat) : Text := Nat.toDigits 16 n

def zeroPadded (width : Nat) (digits : Text) : Text :=
  List.replicate (width - digits.length) '0' ++ digits

def hexValue? (c : Char) : Option Nat :=
  if c.isDigit then some (c.toNat - '0'.toNat)
  else if 'a' ≤ c ∧ c ≤ 'f' then some (c.toNat - 'a'.toNat + 10)
  else if 'A' ≤ c ∧ c ≤ 'F' then some (c.toNat - 'A'.toNat + 10)
  else none

theorem ofDecimal_decimal (n : Nat) : ofDecimal (decimal n) = n :=
  Nat.ofDigitChars_toDigits (by decide) (by decide)

theorem isDigit_of_mem_decimal {n : Nat} {c : Char} (h : c ∈ decimal n) : c.isDigit = true :=
  Nat.isDigit_of_mem_toDigits (by decide) (by decide) h

theorem decimal_ne_nil (n : Nat) : decimal n ≠ [] := Nat.toDigits_ne_nil

theorem decimal_inj {m n : Nat} : decimal m = decimal n ↔ m = n :=
  ⟨fun h => by rw [← ofDecimal_decimal m, h, ofDecimal_decimal], fun h => h ▸ rfl⟩

end CanonicalText
