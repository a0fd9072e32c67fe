import CanonicalText.Binary64.Basic
import CanonicalText.Text.Decimal

/-!
# Shortest decimal texts of floating point numbers

`Binary64.shortest` gives the decimal number with the fewest digits among those that round to a given
floating point number, and of these the nearest to it; of two equally near ones `Tie` chooses.
`NumberStyle` names that choice and says how the digits are written down: when with an exponent, and
how that looks. `Binary64.ofText?` reads a text.
-/

namespace CanonicalText

structure Scientific where
  digits : Nat
  exponent : Int

/-- Which one of two neighbouring decimal numbers stands for a magnitude half way between them. -/
inductive Tie where
  /-- The one whose last digit is even. -/
  | toEven
  /-- The greater one. -/
  | awayFromZero

def Tie.choose (d : Nat) : Tie → Nat
  | toEven => d + d % 2
  | awayFromZero => d + 1

structure NumberStyle where
  /-- The least power of ten of a first digit that is written without an exponent. -/
  lowest : Int
  /-- The greatest such power. -/
  highest : Int
  /-- Whether a whole number is followed by `.0`. -/
  wholeFraction : Bool
  /-- Whether a positive exponent has a sign. -/
  plusSign : Bool
  /-- The choice between two decimal numbers of the fewest digits that are equally near. -/
  tie : Tie

namespace NumberStyle

def json : NumberStyle := ⟨-5, 15, true, true, .toEven⟩

/-- Numbers with their kind in sight: an exponent from `1e16` on and below `1e-4`. -/
def debug : NumberStyle := ⟨-4, 15, true, false, .awayFromZero⟩

def plain : NumberStyle := ⟨-400, 400, false, false, .awayFromZero⟩

end NumberStyle

namespace Scientific

def positional (style : NumberStyle) (x : Scientific) : Text :=
  let digits := decimal x.digits
  if 0 ≤ x.exponent then
    digits ++ List.replicate x.exponent.toNat '0' ++ if style.wholeFraction then ['.', '0'] else []
  else
    let padded := zeroPadded (x.exponent.natAbs + 1) digits
    let whole := padded.length - x.exponent.natAbs
    padded.take whole ++ '.' :: padded.drop whole

def exponential (style : NumberStyle) (x : Scientific) : Text :=
  let digits := decimal x.digits
  let power := x.exponent + (digits.length - 1 : Nat)
  let fraction := if digits.length = 1 then [] else '.' :: digits.drop 1
  let sign := if power < 0 then ['-'] else if style.plusSign then ['+'] else []
  digits.take 1 ++ fraction ++ 'e' :: sign ++ decimal power.natAbs

def text (style : NumberStyle) (x : Scientific) : Text :=
  let power := x.exponent + ((decimal x.digits).length - 1 : Nat)
  if style.lowest ≤ power ∧ power ≤ style.highest then x.positional style else x.exponential style

end Scientific

namespace Binary64

/-- How often `a` is to be multiplied by ten to reach `b`, `fuel` times at most. -/
def tensBelow (b : Nat) : Nat → Nat → Nat
  | 0, _ => 0
  | fuel + 1, a => if b ≤ a then 0 else tensBelow b fuel (a * 10) + 1

def leadingPower (units : Nat) : Int :=
  if unitsOfOne ≤ units then ((decimal (units / unitsOfOne)).length - 1 : Nat)
  else -(tensBelow unitsOfOne 400 units : Int)

/-- The multiple of `10 ^ power` that is nearest to the magnitude of `x` among the two around it that round to `x`;
if it lies half way between them, `tie` decides. Quarter units make the ends of the interval of all that round to
`x` whole numbers; they belong to it if the significand is even. -/
def nearestMultiple? (tie : Tie) (x : Binary64) (power : Int) : Option Nat :=
  let scale := if power < 0 then Nat.pow 10 power.natAbs else 1
  let grid := 4 * unitsOfOne * if power < 0 then 1 else Nat.pow 10 power.natAbs
  let one := Nat.pow 2 x.exponent
  let below := if x.significand = leadingBit ∧ 0 < x.exponent then one else 2 * one
  let value := 4 * x.units * scale
  let low := (4 * x.units - below) * scale
  let high := (4 * x.units + 2 * one) * scale
  let rounds := fun d =>
    if x.significand % 2 = 0 then low ≤ d * grid ∧ d * grid ≤ high
    else low < d * grid ∧ d * grid < high
  let d := value / grid
  let distance := value - d * grid
  let distance' := (d + 1) * grid - value
  if rounds d ∧ rounds (d + 1) then
    some (if distance < distance' then d else if distance' < distance then d + 1 else tie.choose d)
  else if rounds d then some d
  else if rounds (d + 1) then some (d + 1)
  else none

/-- The decimal number of fewest digits that rounds to a positive finite magnitude. The search starts
one power of ten above the first digit, where one is the only digit there can be. -/
def shortest (tie : Tie) (x : Binary64) : Scientific :=
  let lead := leadingPower x.units
  let candidate := fun n : Nat =>
    let power := lead + 1 - n
    (nearestMultiple? tie x power).map fun d => (⟨d, power⟩ : Scientific)
  ((List.range 18).findSome? candidate).getD ⟨0, 0⟩

def text (style : NumberStyle) (x : Binary64) : Text :=
  if x.isNaN then "NaN".toList
  else
    let magnitude :=
      if x.isInfinite then "inf".toList
      else if x.isZero then (⟨0, 0⟩ : Scientific).text style
      else (x.shortest style.tie).text style
    if x.isNegative then '-' :: magnitude else magnitude

/-- The number nearest to `digits * 10 ^ exponent`. What reaches `10 ^ 400` is infinite and what stays below
`10 ^ -400` is zero, whatever the digits are. -/
def ofScientific (x : Scientific) : Binary64 :=
  if x.digits = 0 ∨ x.exponent < -(400 + x.digits.log2 : Nat) then zero
  else if 400 < x.exponent then infinity
  else if x.exponent < 0 then ofUnits (x.digits * unitsOfOne) (Nat.pow 10 x.exponent.natAbs)
  else ofUnits (x.digits * Nat.pow 10 x.exponent.natAbs * unitsOfOne) 1

def exponentOfText? : Text → Option Int
  | [] => some 0
  | e :: t =>
    if e = 'e' ∨ e = 'E' then
      let (negative, digits) := match t with
        | '-' :: t => (true, t)
        | '+' :: t => (false, t)
        | t => (false, t)
      if digits ≠ [] ∧ digits.all Char.isDigit then
        some (if negative then -(ofDecimal digits : Int) else ofDecimal digits)
      else none
    else none

/-- Reads a magnitude: the name of one that is not finite, in letters of either case, or digits with a
point among them. -/
def magnitudeOfText? (t : Text) : Option Binary64 :=
  let name := t.map Char.toLower
  if name = "nan".toList then some nan
  else if name = "inf".toList ∨ name = "infinity".toList then some infinity
  else
    let whole := t.takeWhile Char.isDigit
    let t := t.dropWhile Char.isDigit
    let (fraction, t) := match t with
      | '.' :: t => (t.takeWhile Char.isDigit, t.dropWhile Char.isDigit)
      | t => ([], t)
    if whole = [] ∧ fraction = [] then none
    else (exponentOfText? t).map fun e => ofScientific ⟨ofDecimal (whole ++ fraction), e - fraction.length⟩

def ofText? : Text → Option Binary64
  | '-' :: t => (magnitudeOfText? t).map neg
  | '+' :: t => magnitudeOfText? t
  | t => magnitudeOfText? t

end Binary64

end CanonicalText
