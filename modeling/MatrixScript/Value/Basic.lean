import MatrixScript.Matrix.Selection

/-! The values of a running program. -/

set_option autoImplicit false

namespace MatrixScript

inductive Value where
  | int (value : Int64)
  | float (value : Float)
  | text (value : String)
  | bool (value : Bool)
  | matrix (value : Matrix)
  deriving DecidableEq, Repr

namespace Value

def typeName : Value → String
  | int _ => "int"
  | float _ => "float"
  | text _ => "string"
  | bool _ => "bool"
  | matrix _ => "array"

/-- The truth of a condition: numbers are true when they are not zero, texts and matrices are neither
true nor false. -/
def truth? : Value → Option Bool
  | bool value => some value
  | int value => some (value != 0)
  | float value => some (value != 0)
  | text _ => none
  | matrix _ => none

def ofElement : Element → Value
  | .int value => int value
  | .float value => float value

def ofPart : Part → Value
  | .scalar element => ofElement element
  | .matrix value => matrix value

def element? : Value → Option Element
  | int value => some (.int value)
  | float value => some (.float value)
  | _ => none

def part? : Value → Option Part
  | matrix value => some (.matrix value)
  | value => value.element?.map .scalar

def display : Value → String
  | int value => Integer.write value
  | float value => Decimal.write value
  | text value => value
  | bool value => if value then "true" else "false"
  | matrix value => value.display

end Value

end MatrixScript
