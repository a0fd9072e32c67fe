import CanonicalText.Json.Scanner

/-!
# Reading JSON numbers

A number without fraction and exponent that fits into 64 bits is read as such, zero with a minus sign
aside. Every other number is read as a floating point number, by a quick rule: the digits that a 64-bit
significand can take in make up an integer, which is rounded, and is then multiplied or divided by a
power of ten, and rounded again. Numbers that are too great are malformed.

* `absorb` : the digits that the significand takes in;
* `scaleByTen` : the power of ten;
* `number` : the scanner.
-/

namespace CanonicalText.Json

/-- Takes digits into a significand as long as it stays below `2 ^ 64`: the significand, and how many
digits were taken. -/
def absorb (significand : Nat) : Text → Nat × Nat
  | [] => (significand, 0)
  | d :: digits =>
    let next := significand * 10 + (d.toNat - '0'.toNat)
    if next < UInt64.size then
      let r := absorb next digits
      (r.1, r.2 + 1)
    else (significand, 0)

/-- Divides a magnitude by a power of ten, in steps for powers that are no floating point numbers. -/
def divideByTen (x : Binary64) (k : Nat) : Binary64 :=
  if k ≤ 308 then x.divMagnitude (.tenPow k)
  else if x.isZero then x
  else divideByTen (x.divMagnitude (.tenPow 308)) (k - 308)
termination_by k

/-- `significand * 10 ^ exponent`, or `none` if it is too great. -/
def scaleByTen (significand : Nat) (exponent : Int) : Option Binary64 :=
  let x := Binary64.ofNat significand
  if exponent < 0 then some (divideByTen x exponent.natAbs)
  else if exponent ≤ 308 then
    let y := x.mulMagnitude (.tenPow exponent.natAbs)
    if y.isInfinite then none else some y
  else if x.isZero then some x
  else none

def signed (negative : Bool) (x : Binary64) : Binary64 := if negative then -x else x

def floating (negative : Bool) (significand : Nat) (exponent : Int) : Except Error Number :=
  match scaleByTen significand exponent with
  | some x => .ok (.floating (signed negative x))
  | none => .error .malformed

/-- Reads the digits of an exponent, after its sign, and adds it to `exponent`. Powers that do not fit
into 32 bits make any number too great or zero. -/
def exponentDigits (negative : Bool) (significand : Nat) (exponent : Int) (down : Bool) :
    Decoder Number := fun t =>
  match t with
  | [] => .error .truncated
  | c :: _ =>
    if !c.isDigit then .error .malformed
    else
      let power := ofDecimal (t.takeWhile Char.isDigit)
      let rest := t.dropWhile Char.isDigit
      let total : Int := if down then exponent - power else exponent + power
      if Int32.maxValue.toInt < power then
        if significand ≠ 0 ∧ !down then .error .malformed
        else .ok (.floating (signed negative .zero), rest)
      else
        let total := max Int32.minValue.toInt (min total Int32.maxValue.toInt)
        (floating negative significand total).map (·, rest)

def exponentPart (negative : Bool) (significand : Nat) (exponent : Int) : Decoder Number := fun t =>
  match t with
  | c :: rest =>
    if c = 'e' ∨ c = 'E' then
      match rest with
      | '+' :: rest => exponentDigits negative significand exponent false rest
      | '-' :: rest => exponentDigits negative significand exponent true rest
      | rest => exponentDigits negative significand exponent false rest
    else (floating negative significand exponent).map (·, t)
  | [] => (floating negative significand exponent).map (·, t)

def fractionPart (negative : Bool) (significand : Nat) (exponent : Int) : Decoder Number := fun t =>
  let digits := t.takeWhile Char.isDigit
  let rest := t.dropWhile Char.isDigit
  if digits = [] then .error (if rest = [] then .truncated else .malformed)
  else
    let r := absorb significand digits
    exponentPart negative r.1 (exponent - r.2) rest

def integer? (negative : Bool) (n : Nat) : Option Number :=
  if negative then
    if 0 < n ∧ Int64.minValue.toInt ≤ -n then some (.negative (Int64.ofInt (-n)))
    else if n < UInt64.size then some (.floating (-Binary64.ofNat n))
    else none
  else if n < UInt64.size then some (.natural (UInt64.ofNat n))
  else none

def unsignedNumber (negative : Bool) : Decoder Number := fun t =>
  match t with
  | [] => .error .truncated
  | c :: _ =>
    let digits := t.takeWhile Char.isDigit
    let rest := t.dropWhile Char.isDigit
    if digits = [] ∨ (c = '0' ∧ 1 < digits.length) then .error .malformed
    else
      let r := absorb 0 digits
      let exponent : Int := digits.length - r.2
      match rest with
      | '.' :: rest => fractionPart negative r.1 exponent rest
      | e :: _ =>
        if e = 'e' ∨ e = 'E' then exponentPart negative r.1 exponent rest
        else
          match integer? negative (ofDecimal digits) with
          | some n => .ok (n, rest)
          | none => (floating negative r.1 exponent).map (·, rest)
      | [] =>
        match integer? negative (ofDecimal digits) with
        | some n => .ok (n, [])
        | none => (floating negative r.1 exponent).map (·, [])

def number : Decoder Number
  | '-' :: t => unsignedNumber true t
  | t => unsignedNumber false t

end CanonicalText.Json
