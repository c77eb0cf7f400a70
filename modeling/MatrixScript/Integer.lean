import MatrixScript.Decimal.Reading

/-! Integers of the language: 64-bit two's complement words whose arithmetic never wraps.

An operation is computed exactly and then refused when the result does not fit.
-/

set_option autoImplicit false

namespace MatrixScript.Integer

/-- The words are those of 64 bits: `-(2 ^ 63)` is the least. -/
def least : Int := -0x8000000000000000

def greatest : Int := 0x7FFFFFFFFFFFFFFF

def fit? (value : Int) : Option Int64 :=
  if least ≤ value ∧ value ≤ greatest then some (Int64.ofInt value) else none

def add? (a b : Int64) : Option Int64 := fit? (a.toInt + b.toInt)

def sub? (a b : Int64) : Option Int64 := fit? (a.toInt - b.toInt)

def mul? (a b : Int64) : Option Int64 := fit? (a.toInt * b.toInt)

/-- The quotient truncated toward zero; a zero divisor gives zero here and is refused by callers. -/
def div? (a b : Int64) : Option Int64 := fit? (a.toInt.tdiv b.toInt)

def neg? (a : Int64) : Option Int64 := fit? (-a.toInt)

/-- Reads an optional sign and at least one ASCII digit. -/
def read? (text : String) : Option Int64 :=
  let (negative, digits) := Decimal.splitSign text.toList
  if digits ≠ [] ∧ digits.all Char.isDigit then
    fit? (if negative then -(Decimal.digitsValue digits : Int) else Decimal.digitsValue digits)
  else
    none

def write (a : Int64) : String := toString a.toInt

def toFloat (a : Int64) : Float :=
  let magnitude := (UInt64.ofNat a.toInt.natAbs).toFloat
  if a.toInt < 0 then -magnitude else magnitude

/-- The integer part of a float, kept within the words; not-a-number has integer part zero. -/
def truncate (x : Float) : Int64 :=
  if x < 0 then
    let magnitude := (-x).toUInt64.toNat
    Int64.ofInt (max least (-(magnitude : Int)))
  else
    Int64.ofInt (min greatest x.toUInt64.toNat)

end MatrixScript.Integer
