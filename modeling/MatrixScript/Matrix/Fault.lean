import MatrixScript.Fault

/-! What can go wrong with a matrix. -/

set_option autoImplicit false

namespace MatrixScript

inductive MatrixFault where
  | shapeMismatch (operator : String) (left right : Extent)
  | raggedRows (expected found : Nat)
  | outOfBounds (index : Int64) (length : Nat)
  | reversedRange (start stop : Int64)
  | assignShape (expected found : Extent)
  | tooLarge (extent : Extent)
  | integerOverflow
  deriving DecidableEq, Repr

namespace MatrixFault

def name : MatrixFault → String
  | shapeMismatch _ _ _ => "ShapeMismatch"
  | raggedRows _ _ => "RaggedRows"
  | outOfBounds _ _ => "OutOfBounds"
  | reversedRange _ _ => "ReversedRange"
  | assignShape _ _ => "AssignShape"
  | tooLarge _ => "TooLarge"
  | integerOverflow => "IntegerOverflow"

def toFault : MatrixFault → Fault
  | shapeMismatch operator left right => .shapeMismatch (.operands operator left right)
  | raggedRows expected found => .shapeMismatch (.ragged expected found)
  | outOfBounds index length => .outOfBounds index length
  | reversedRange start stop => .invalidIndex (.reversed start stop)
  | assignShape expected found => .shapeMismatch (.block expected found)
  | tooLarge extent => .sizeOverflow (.matrix extent)
  | integerOverflow => .integerOverflow

def message : MatrixFault → String
  | shapeMismatch operator left right => (ShapeCause.operands operator left right).text
  | raggedRows expected found => (ShapeCause.ragged expected found).text
  | outOfBounds index length => (Fault.outOfBounds index length).message
  | reversedRange start stop => (IndexCause.reversed start stop).text
  | assignShape expected found => (ShapeCause.block expected found).text
  | tooLarge extent => (Fault.sizeOverflow (.matrix extent)).message
  | integerOverflow => Fault.integerOverflow.message

end MatrixFault

end MatrixScript
