import MatrixScript.Decimal.Shortest

/-! The text of a float: its shortest digits, laid out positionally or with an exponent. -/

set_option autoImplicit false

namespace MatrixScript.Decimal

/-- Where positional notation begins and ends, as powers of ten of the first digit, and the fixed
spellings. -/
structure Layout where
  leastPositional : Int
  greatestPositional : Int
  exponentMark : Char
  notANumber : String
  infinity : String
  deriving DecidableEq, Repr

/-- Numbers from `0.0001` up to, but not including, `10 ^ 16` are positional. -/
def layout : Layout where
  leastPositional := -4
  greatestPositional := 15
  exponentMark := 'e'
  notANumber := "NaN"
  infinity := "inf"

def positional (digits : List Char) (leading : Int) : List Char :=
  if leading < 0 then
    ['0', '.'] ++ List.replicate (-leading - 1).toNat '0' ++ digits
  else
    let places := leading.toNat + 1
    if digits.length ≤ places then
      digits ++ List.replicate (places - digits.length) '0' ++ ['.', '0']
    else
      digits.take places ++ '.' :: digits.drop places

/-- A point is written only before a second digit. -/
def scientific (mark : Char) (digits : List Char) (leading : Int) : List Char :=
  let fraction := if digits.length ≤ 1 then [] else '.' :: digits.drop 1
  digits.take 1 ++ fraction ++ mark :: (toString leading).toList

def Layout.write (rule : Layout) (value : Scaled) : List Char :=
  let digits := Nat.toDigits 10 value.digits
  let leading := value.exponent + digits.length - 1
  if rule.leastPositional ≤ leading ∧ leading ≤ rule.greatestPositional then
    positional digits leading
  else
    scientific rule.exponentMark digits leading

def Layout.writeFloat (rule : Layout) (x : Float) : String :=
  match denote x with
  | .notANumber => rule.notANumber
  | .infinite negative => signed negative rule.infinity.toList
  | .finite negative 0 _ => signed negative (rule.write ⟨0, 0⟩)
  | .finite negative mantissa exponent => signed negative (rule.write (shortest mantissa exponent))
where
  signed (negative : Bool) (text : List Char) : String :=
    String.ofList (if negative then '-' :: text else text)

def write (x : Float) : String :=
  layout.writeFloat x

end MatrixScript.Decimal
