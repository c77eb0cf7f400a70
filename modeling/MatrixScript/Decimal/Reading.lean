/-! Reading a float.

A number has digits with an optional point among or around them, then an optional exponent; a sign
may stand in front. The words `inf`, `infinity` and `nan` are read in any case. The result is the
float nearest to the decimal.
-/

set_option autoImplicit false

namespace MatrixScript.Decimal

def digitsValue (digits : List Char) : Nat :=
  digits.foldl (fun value c => 10 * value + (c.toNat - '0'.toNat)) 0

/-- Splits a sign off; the flag is set by a minus. -/
def splitSign : List Char → Bool × List Char
  | '-' :: rest => (true, rest)
  | '+' :: rest => (false, rest)
  | text => (false, text)

/-- What follows the digits of a number: nothing, or an exponent with at least one digit. -/
def readExponent? : List Char → Option Int
  | [] => some 0
  | mark :: rest =>
    let (negative, digits) := splitSign rest
    if (mark = 'e' ∨ mark = 'E') ∧ digits ≠ [] ∧ digits.all Char.isDigit then
      some (if negative then -(digitsValue digits : Int) else digitsValue digits)
    else
      none

/-- A decimal numeral `mantissa * 10 ^ exponent`. -/
structure Numeral where
  mantissa : Nat
  exponent : Int
  deriving DecidableEq, Repr

def readNumeral? (text : List Char) : Option Numeral :=
  let whole := text.takeWhile Char.isDigit
  let afterWhole := text.dropWhile Char.isDigit
  let (fraction, rest) :=
    match afterWhole with
    | '.' :: afterPoint => (afterPoint.takeWhile Char.isDigit, afterPoint.dropWhile Char.isDigit)
    | _ => ([], afterWhole)
  if whole.isEmpty && fraction.isEmpty then
    none
  else
    (readExponent? rest).map fun exponent =>
      ⟨digitsValue (whole ++ fraction), exponent - fraction.length⟩

def infinity : Float := 1.0 / 0.0

def notANumber : Float := 0.0 / 0.0

/-- The nearest float. Far outside the range of floats the answer is known from the number of digits
alone, so that the powers of ten stay small. -/
def Numeral.toFloat (numeral : Numeral) : Float :=
  let magnitude := numeral.exponent + (Nat.toDigits 10 numeral.mantissa).length
  if numeral.mantissa = 0 ∨ magnitude < -323 then 0.0
  else if 309 < magnitude then infinity
  else Float.ofScientific numeral.mantissa (numeral.exponent < 0) numeral.exponent.natAbs

def read? (text : String) : Option Float :=
  let (negative, body) := splitSign text.toList
  let word := body.map Char.toLower
  let magnitude :=
    if word = "inf".toList ∨ word = "infinity".toList then some infinity
    else if word = "nan".toList then some notANumber
    else (readNumeral? body).map Numeral.toFloat
  magnitude.map fun x => if negative then -x else x

end MatrixScript.Decimal
