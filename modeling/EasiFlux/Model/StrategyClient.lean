import EasiFlux.Lib.DigitStrings
import EasiFlux.Model.Strategy

/-!
# Quantities in the frontend

`services/pluginStrategyService.ts` reads the quantities of a strategy policy (`decimal`) and
compares them digit by digit (`compareDecimal`). It accepts other numerals than the backend does:
a plus in front, an exponent, and a missing integer or fraction part.
-/

namespace EasiFlux.PluginStrategyService

open DigitStrings

structure ComparableDecimal where
  digits : List Char
  magnitude : ℤ
  deriving DecidableEq, Repr

/-- `DECIMAL_MAX` -/
def decimalMax : ComparableDecimal := ⟨"79228162514264337593543950335".toList, 29⟩

/-- A text that is not empty and not too long; `none` stands for `invalidResponse`. -/
def boundedString (value : String) (maxBytes : ℕ) : Option String :=
  if value = "" ∨ maxBytes < value.utf8ByteSize then none else some value

/-! ## The pattern -/

/-- `[eE]` -/
def isExponentMark (c : Char) : Bool := c == 'e' || c == 'E'

def withoutPlus : List Char → List Char
  | '+' :: rest => rest
  | raw => raw

/-- The text in front of the exponent. -/
def mantissaOf (unsigned : List Char) : List Char := unsigned.takeWhile fun c => !isExponentMark c

/-- The exponent with its mark. -/
def exponentOf (unsigned : List Char) : List Char := unsigned.dropWhile fun c => !isExponentMark c

/-- `\d+(?:\.\d*)?|\.\d+` -/
def isMantissa (text : List Char) : Bool :=
  match text.dropWhile Char.isDigit with
  | [] => text ≠ []
  | c :: frac => c == '.' && frac.all Char.isDigit && 2 ≤ text.length

/-- `(?:[eE][+-]?\d+)?` -/
def isExponent : List Char → Bool
  | [] => true
  | _ :: '+' :: digits => digits ≠ [] && digits.all Char.isDigit
  | _ :: '-' :: digits => digits ≠ [] && digits.all Char.isDigit
  | _ :: digits => digits ≠ [] && digits.all Char.isDigit

/-- `DECIMAL_PATTERN` -/
def decimalPattern (raw : List Char) : Bool :=
  isMantissa (mantissaOf (withoutPlus raw)) && isExponent (exponentOf (withoutPlus raw))

/-! ## The value -/

/-- `BigInt` of the exponent, zero without one. -/
def exponentValue : List Char → ℤ
  | [] => 0
  | _ :: '+' :: digits => num digits
  | _ :: '-' :: digits => -num digits
  | _ :: digits => num digits

/-- The digits behind the point. -/
def fractionOf (mantissa : List Char) : List Char := (mantissa.dropWhile (· ≠ '.')).tail

/-- The loop of `decimal`, on the digits from the last to the first. -/
def dropScale : List Char → ℤ → List Char × ℤ
  | '0' :: digits, effectiveScale =>
    if 0 < effectiveScale then dropScale digits (effectiveScale - 1) else ('0' :: digits, effectiveScale)
  | digits, effectiveScale => (digits, effectiveScale)

def compareDecimal (left right : ComparableDecimal) : ℤ :=
  if left.digits = ['0'] then if right.digits = ['0'] then 0 else -1
  else if right.digits = ['0'] then 1
  else if left.magnitude ≠ right.magnitude then if left.magnitude < right.magnitude then -1 else 1
  else
    let length := max left.digits.length right.digits.length
    let leftDigits := padEnd length left.digits
    let rightDigits := padEnd length right.digits
    if leftDigits = rightDigits then 0 else if leftDigits < rightDigits then -1 else 1

/-- The comparable decimal of the digits, and the scale that is left. -/
def comparableOf (digits : List Char) (scale : ℤ) : ComparableDecimal × ℤ :=
  let (reversed, effectiveScale) := dropScale digits.reverse scale
  let digits := reversed.reverse
  (if digits = [] then ⟨['0'], 0⟩ else ⟨digits, digits.length - effectiveScale⟩, effectiveScale)

def decimal (value : String) (positive : Bool) : Option (String × ComparableDecimal) := do
  let raw ← boundedString value 64
  if !decimalPattern raw.toList then none
  else
    let unsigned := withoutPlus raw.toList
    let mantissa := mantissaOf unsigned
    let exponent := exponentValue (exponentOf unsigned)
    let digits := (mantissa.erase '.').dropWhile (· = '0')
    if positive ∧ digits = [] then none
    else
      let (comparable, effectiveScale) := comparableOf digits ((fractionOf mantissa).length - exponent)
      if 28 < effectiveScale ∨ 0 < compareDecimal comparable decimalMax then none else some (raw, comparable)

end EasiFlux.PluginStrategyService
