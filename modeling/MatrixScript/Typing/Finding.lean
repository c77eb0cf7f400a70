import MatrixScript.StaticType.Basic
import MatrixScript.Typing.Compatibility

/-! What the checker reports. A finding does not stop the checker; a program with findings is refused. -/

set_option autoImplicit false

namespace MatrixScript

inductive Axis where
  | row | column | single
  deriving DecidableEq, Repr

inductive Bound where
  | start | stop
  deriving DecidableEq, Repr

inductive Destination where
  | type (tag : Tag)
  | arrayOf (elem : Tag)
  deriving DecidableEq, Repr

def Destination.display : Destination → String
  | .type tag => tag.display
  | .arrayOf elem => s!"array of type {elem.display}"

inductive Problem where
  | counterDeclared (name : String)
  | strayBreak
  | strayContinue
  | conditionType (tag : Tag)
  | rightSide (tag : Tag)
  | undeclared (name : String)
  | cannotAssign (op : Assign) (value : Tag) (destination : Destination)
  | notVariable
  | compoundSubstring
  | assignedDimensions
  | leftSide (tag : Tag)
  | negated (tag : Tag)
  | transposed (tag : Tag)
  | rangeBound (tag : Tag) (bound : Bound)
  | tooDeep
  | mixedTypes (first second : Tag)
  | mixedShapes (first second : Dim)
  | notNumber (tag : Tag)
  | indexType (tag : Tag)
  | outOfRange (axis : Axis)
  | emptyRange
  | indexCount
  | notIndexable
  | shapes (operator : Operator) (left right : Shape)
  | operands (operator : Operator) (left right : Tag)
  | compared (op : Compare) (left right : Tag)
  | argumentCount (function : Builtin) (count : Nat)
  | argumentType (function : Builtin) (tag : Tag)
  deriving DecidableEq, Repr

def Problem.message : Problem → String
  | .counterDeclared name => s!"{name} cannot be an iterating variable, it was already declared"
  | .strayBreak => "Cannot break from current scope"
  | .strayContinue => "Cannot continue in current scope"
  | .conditionType tag => s!"{tag.display} is not a valid condition type"
  | .rightSide tag => s!"{tag.display} is not a valid type for the right side of assignment"
  | .undeclared name => s!"{name} is not declared"
  | .cannotAssign op value destination =>
    s!"Cannot {op.symbol} assign type {value.display} to {destination.display}"
  | .notVariable => "Assignment to entity not being variable"
  | .compoundSubstring => "Operational assignment to a substring"
  | .assignedDimensions => "Inconsistent dimensions of arrays"
  | .leftSide tag => s!"Cannot assign to {tag.display}"
  | .negated tag => s!"Cannot place unary minus before {tag.display}"
  | .transposed tag => s!"Cannot transpose {tag.display}"
  | .rangeBound tag .start => s!"{tag.display} is not a valid type for a range start"
  | .rangeBound tag .stop => s!"{tag.display} is not a valid type for a range end"
  | .tooDeep => "Matrix can have maximum 2 dimensions"
  | .mixedTypes first second => s!"Inconsistent types {first.display} and {second.display} in the array"
  | .mixedShapes first second => s!"Inconsistent shapes {first.display} and {second.display} in the array"
  | .notNumber tag => s!"Array elements must be numbers, found {tag.display}"
  | .indexType tag => s!"{tag.display} is not a valid array index type"
  | .outOfRange .row => "Row index out of range"
  | .outOfRange .column => "Column index out of range"
  | .outOfRange .single => "Index out of range"
  | .emptyRange => "Wrong indexing"
  | .indexCount => "Indices inconsistent with dimensions"
  | .notIndexable => "Subscripted value is neither array nor string"
  | .shapes operator left right =>
    s!"Inconsistent shape. Cannot {operator.symbol} matrices of shape {left.display} and {right.display}"
  | .operands operator left right =>
    s!"Operation {operator.symbol} not supported between {left.display} and {right.display}"
  | .compared op left right =>
    s!"Operator {op.symbol} not supported between {left.display} and {right.display}"
  | .argumentCount function count =>
    s!"Matrix function {function.name} takes 1 or 2 arguments, got {count}"
  | .argumentType function tag =>
    s!"Matrix function {function.name} cannot take {tag.display} as parameter"

structure Finding where
  line : Nat
  problem : Problem
  deriving DecidableEq, Repr

def Finding.message (finding : Finding) : String := finding.problem.message

def Finding.report (finding : Finding) : String :=
  s!"ERROR in line {finding.line}\n{finding.message}"

end MatrixScript
