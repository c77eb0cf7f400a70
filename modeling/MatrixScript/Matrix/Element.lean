import MatrixScript.Decimal.Written
import MatrixScript.Integer

/-! One number, as it stands in a matrix. -/

set_option autoImplicit false

namespace MatrixScript

inductive Element where
  | int (value : Int64)
  | float (value : Float)
  deriving DecidableEq, Repr

namespace Element

def isInt : Element → Bool
  | int _ => true
  | float _ => false

def toFloat : Element → Float
  | int value => Integer.toFloat value
  | float value => value

def truncated : Element → Int64
  | int value => value
  | float value => Integer.truncate value

def display : Element → String
  | int value => Integer.write value
  | float value => Decimal.write value

end Element

end MatrixScript
