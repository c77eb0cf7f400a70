import MatrixScript.Matrix.Product
import MatrixScript.Operator
import MatrixScript.Value.Basic

/-! What the operators do with values.

Integer arithmetic is exact or refused, for scalars as for cells. Matrices combine cell by cell, and a number
beside a matrix is combined with every cell; only the linear `*` between two matrices is the matrix
product.
-/

set_option autoImplicit false

namespace MatrixScript.Value

def unsupported {α : Type} (operator : String) (left right : Value) : Except Fault α :=
  .error (.unsupported operator left.typeName right.typeName)

def orOverflow : Option Int64 → Except Fault Int64
  | some value => .ok value
  | none => .error .integerOverflow

def intArith (op : Arith) (a b : Int64) : Except Fault Int64 :=
  match op with
  | .add => orOverflow (Integer.add? a b)
  | .sub => orOverflow (Integer.sub? a b)
  | .mul => orOverflow (Integer.mul? a b)
  | .div => if b = 0 then .error .divisionByZero else orOverflow (Integer.div? a b)

/-- Float arithmetic on cells, where a zero divisor gives an infinity or not-a-number. -/
def floatOp (op : Arith) (a b : Float) : Float :=
  match op with
  | .add => a + b
  | .sub => a - b
  | .mul => a * b
  | .div => a / b

/-- Float arithmetic on scalars, where a zero divisor is refused. -/
def floatArith (op : Arith) (a b : Float) : Except Fault Float :=
  if op = .div ∧ b == 0 then .error .divisionByZero else .ok (floatOp op a b)

def elementArith (op : Arith) : Element → Element → Except Fault Element
  | .int a, .int b => (intArith op a b).map .int
  | a, b => .ok (.float (floatOp op a.toFloat b.toFloat))

/-- The longest text, in bytes: one less than `2 ^ 63`. -/
def maxTextBytes : Nat := 0x7FFFFFFFFFFFFFFF

/-- A text joined with itself; a negative count gives the empty text. -/
def repeated (text : String) (count : Int64) : Except Fault String :=
  let times := count.toInt.toNat
  let bytes := text.utf8ByteSize
  if bytes * times ≤ maxTextBytes then
    .ok (if text.isEmpty then "" else String.join (List.replicate times text))
  else
    .error (.sizeOverflow (.repeated bytes times))

/-- A number against every cell; `flipped` puts the number on the left. -/
def broadcast (op : Arith) (matrix : Matrix) (number : Element) (flipped : Bool) : Except Fault Value := do
  let cell (element : Element) : Except Fault Element :=
    if flipped then elementArith op number element else elementArith op element number
  return .matrix (← matrix.mapCells (matrix.isIntegral && number.isInt) cell)

def arithmetic (op : Arith) (left right : Value) : Except Fault Value :=
  match left, right with
  | .int a, .int b => (intArith op a b).map .int
  | .int a, .float b => (floatArith op (Integer.toFloat a) b).map .float
  | .float a, .int b => (floatArith op a (Integer.toFloat b)).map .float
  | .float a, .float b => (floatArith op a b).map .float
  | .text a, .text b => if op = .add then .ok (.text (a ++ b)) else unsupported op.symbol left right
  | .text a, .int count => if op = .mul then (repeated a count).map .text else unsupported op.symbol left right
  | .int count, .text a => if op = .mul then (repeated a count).map .text else unsupported op.symbol left right
  | .matrix a, .matrix b => (Matrix.combine op.symbol (elementArith op) a b).map .matrix
  | .matrix a, number =>
    match number.element? with
    | some element => broadcast op a element false
    | none => unsupported op.symbol left right
  | number, .matrix b =>
    match number.element? with
    | some element => broadcast op b element true
    | none => unsupported op.symbol left right
  | _, _ => unsupported op.symbol left right

/-- `+ - * /` where `*` between matrices is the matrix product. -/
def linear (op : Arith) (left right : Value) : Except Fault Value :=
  match op, left, right with
  | .mul, .matrix a, .matrix b =>
    match Matrix.product a b with
    | .ok result => .ok (.matrix result)
    | .error fault => .error fault.toFault
  | _, _, _ => arithmetic op left right

def intHolds (op : Compare) (a b : Int64) : Bool :=
  match op with
  | .less => a < b
  | .greater => b < a
  | .lessEquals => a ≤ b
  | .greaterEquals => b ≤ a
  | .equals => a == b
  | .notEquals => a != b

/-- Not-a-number is unequal to everything and in no order with anything. -/
def floatHolds (op : Compare) (a b : Float) : Bool :=
  match op with
  | .less => a < b
  | .greater => b < a
  | .lessEquals => a ≤ b
  | .greaterEquals => b ≤ a
  | .equals => a == b
  | .notEquals => a != b

def textHolds (op : Compare) (a b : String) : Bool :=
  match op with
  | .less => a < b
  | .greater => b < a
  | .lessEquals => ¬ b < a
  | .greaterEquals => ¬ a < b
  | .equals => a == b
  | .notEquals => a != b

def compare (op : Compare) (left right : Value) : Except Fault Value :=
  match left, right with
  | .int a, .int b => .ok (.bool (intHolds op a b))
  | .int a, .float b => .ok (.bool (floatHolds op (Integer.toFloat a) b))
  | .float a, .int b => .ok (.bool (floatHolds op a (Integer.toFloat b)))
  | .float a, .float b => .ok (.bool (floatHolds op a b))
  | .text a, .text b => .ok (.bool (textHolds op a b))
  | .bool a, .bool b =>
    match op with
    | .equals => .ok (.bool (a == b))
    | .notEquals => .ok (.bool (a != b))
    | _ => unsupported op.symbol left right
  | _, _ => unsupported op.symbol left right

def negateElement : Element → Except Fault Element
  | .int value => (orOverflow (Integer.neg? value)).map .int
  | .float value => .ok (.float (-value))

def negate : Value → Except Fault Value
  | .int value => (orOverflow (Integer.neg? value)).map .int
  | .float value => .ok (.float (-value))
  | .matrix value => (value.mapCells value.isIntegral negateElement).map .matrix
  | other => .error (.unsupportedUnary "-" other.typeName)

/-- A number is its own transpose. -/
def transpose : Value → Except Fault Value
  | .matrix value => .ok (.matrix value.transpose)
  | .int value => .ok (.int value)
  | .float value => .ok (.float value)
  | other => .error (.unsupportedUnary "'" other.typeName)

end MatrixScript.Value
