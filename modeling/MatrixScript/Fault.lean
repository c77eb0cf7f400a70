import MatrixScript.Integer
import MatrixScript.Source
import MatrixScript.Text.Quoted

/-! Why scanning, parsing or running a program stops.

A fault is a cause; its wording is computed from it. Each fault has a short name, a message and, for
all but unrecognised text, a tip for the reader. A failure is a fault at a place of the source.
-/

set_option autoImplicit false

namespace MatrixScript

structure Extent where
  rows : Nat
  cols : Nat
  deriving DecidableEq, Repr

def Extent.text (extent : Extent) : String :=
  s!"{extent.rows}x{extent.cols}"

/-- Why something cannot be used as an index, or cannot be indexed. -/
inductive IndexCause where
  | reversed (start stop : Int64)
  | strayRange
  | notInteger (typeName : String)
  | textIndices
  | arrayIndices (count : Nat)
  | notIndexable (typeName : String)
  | loopWithoutRange
  | notVariable
  | notTarget
  | described (text : String)
  deriving DecidableEq, Repr

def IndexCause.text : IndexCause → String
  | .reversed start stop => s!"range {Integer.write start}:{Integer.write stop} is reversed"
  | .strayRange => "a range can only index or drive a loop"
  | .notInteger typeName => s!"expected an integer, found {typeName}"
  | .textIndices => "indices inconsistent with a string"
  | .arrayIndices count => s!"{count} indices for a two-dimensional array"
  | .notIndexable typeName => s!"{typeName} cannot be indexed"
  | .loopWithoutRange => "a for loop needs a range"
  | .notVariable => "only a variable can be assigned into"
  | .notTarget => "cannot assign to an expression"
  | .described text => text

inductive ShapeCause where
  | operands (operator : String) (left right : Extent)
  | ragged (expected found : Nat)
  | block (expected found : Extent)
  | notRow (typeName : String)
  | dimension (function value : String)
  | argumentCount (function : String) (count : Nat)
  | described (text : String)
  deriving DecidableEq, Repr

def ShapeCause.text : ShapeCause → String
  | .operands operator left right =>
    s!"cannot {operator} matrices of shape {left.text} and {right.text}"
  | .ragged expected found => s!"rows of length {expected} and {found} in one matrix"
  | .block expected found =>
    s!"cannot assign a {found.text} block to a {expected.text} selection"
  | .notRow typeName => s!"{typeName} cannot be a matrix row"
  | .dimension function value => s!"{function} cannot take {value} as a dimension"
  | .argumentCount function count => s!"{function} takes 1 or 2 arguments, got {count}"
  | .described text => text

inductive SizeCause where
  | matrix (extent : Extent)
  | repeated (bytes count : Nat)
  | described (text : String)
  deriving DecidableEq, Repr

def SizeCause.text : SizeCause → String
  | .matrix extent => s!"a {extent.text} matrix"
  | .repeated bytes count => s!"a string of {bytes} bytes repeated {count} times"
  | .described text => text

inductive Fault where
  | unrecognised (token : String)
  | unexpected (token : String)
  | unexpectedDetailed (token detail : String)
  | malformedNumber (token : String)
  | undefined (variableName : String)
  | unsupported (operator left right : String)
  | unsupportedUnary (operator operand : String)
  | outOfBounds (index : Int64) (length : Nat)
  | invalidIndex (cause : IndexCause)
  | shapeMismatch (cause : ShapeCause)
  | divisionByZero
  | integerOverflow
  | sizeOverflow (cause : SizeCause)
  | invalidCondition (typeName : String)
  | output (reason : String)
  deriving DecidableEq, Repr

namespace Fault

def name : Fault → String
  | unrecognised _ => "UnrecognisedToken"
  | unexpected _ => "UnexpectedToken"
  | unexpectedDetailed _ _ => "UnexpectedTokenDetailed"
  | malformedNumber _ => "NumberParseError"
  | undefined _ => "UndefinedVariable"
  | unsupported _ _ _ => "UnsupportedOperation"
  | unsupportedUnary _ _ => "UnsupportedUnary"
  | outOfBounds _ _ => "IndexOutOfBounds"
  | invalidIndex _ => "InvalidIndex"
  | shapeMismatch _ => "ShapeMismatch"
  | divisionByZero => "DivisionByZero"
  | integerOverflow => "IntegerOverflow"
  | sizeOverflow _ => "SizeOverflow"
  | invalidCondition _ => "InvalidCondition"
  | output _ => "Output"

def message : Fault → String
  | unrecognised token => s!"unrecognised token: {Text.quote token}"
  | unexpected token => s!"unexpected token: {Text.quote token}"
  | unexpectedDetailed token detail =>
    s!"unexpected token ({Text.quote detail}): {Text.quote token}"
  | malformedNumber token => s!"error parsing number: {Text.quote token}"
  | undefined variableName => s!"variable {Text.quote variableName} is undefined"
  | unsupported operator left right =>
    s!"operation {operator} not supported between {left} and {right}"
  | unsupportedUnary operator operand => s!"operator {operator} cannot be applied to {operand}"
  | outOfBounds index length => s!"index {Integer.write index} out of range for length {length}"
  | invalidIndex cause => s!"invalid index: {cause.text}"
  | shapeMismatch cause => s!"shape mismatch: {cause.text}"
  | divisionByZero => "division by zero"
  | integerOverflow => "integer overflow"
  | sizeOverflow cause => s!"{cause.text} is too large"
  | invalidCondition typeName => s!"invalid condition of type {typeName}"
  | output reason => s!"output error: {reason}"

def tip : Fault → Option String
  | unrecognised _ => none
  | unexpected token => some s!"Unexpected token: `{token}`, did you miss a semicolon?"
  | unexpectedDetailed token detail => some s!"Unexpected token: `{token}`, {detail}"
  | malformedNumber token => some s!"Invalid number: `{token}`, is it above the integer limit?"
  | undefined variableName => some s!"Variable `{variableName}` was never assigned"
  | unsupported operator left right =>
    some s!"Operation `{operator}` not supported between {left} and {right}"
  | unsupportedUnary operator operand => some s!"Operator `{operator}` cannot be applied to {operand}"
  | outOfBounds index length =>
    some s!"Index {Integer.write index} is out of range for length {length}"
  | invalidIndex cause => some cause.text
  | shapeMismatch cause => some cause.text
  | divisionByZero => some "Integer division by zero"
  | integerOverflow => some "Integer arithmetic overflowed"
  | sizeOverflow cause => some s!"{cause.text} cannot be allocated"
  | invalidCondition typeName =>
    some s!"Condition must be a boolean or a number, found {typeName}"
  | output reason => some s!"Could not write output: {reason}"

end Fault

structure Failure where
  fault : Fault
  position : Position
  deriving DecidableEq, Repr

def Failure.message (failure : Failure) : String :=
  s!"line {failure.position.line}: {failure.fault.message}"

end MatrixScript
