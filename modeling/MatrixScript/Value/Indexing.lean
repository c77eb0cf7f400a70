import MatrixScript.Value.Basic

/-! Reading and writing a selected part of a value. -/

set_option autoImplicit false

namespace MatrixScript.Value

def orFault {α : Type} : Except MatrixFault α → Except Fault α
  | .ok value => .ok value
  | .error fault => .error fault.toFault

/-- The characters `[from, to)` selected in a text of `length` characters. A text is one row, so a leading
row index can only be zero. -/
def textSelection (selectors : List Selector) (length : Nat) : Except Fault (Nat × Nat) :=
  match selectors with
  | [selector] => orFault (selector.resolve length)
  | [.point row, selector] =>
    if row = 0 then orFault (selector.resolve length) else .error (.invalidIndex .textIndices)
  | _ => .error (.invalidIndex .textIndices)

def matrixSelectors (matrix : Matrix) (selectors : List Selector) : Except Fault (Selector × Selector) :=
  match selectors with
  | [index] => .ok (matrix.flatSelectors index)
  | [rows, cols] => .ok (rows, cols)
  | _ => .error (.invalidIndex (.arrayIndices selectors.length))

def slice (text : String) (start stop : Nat) : String :=
  String.ofList ((text.toList.drop start).take (stop - start))

def splice (text : String) (start stop : Nat) (replacement : String) : String :=
  String.ofList (text.toList.take start ++ replacement.toList ++ text.toList.drop stop)

def index (base : Value) (selectors : List Selector) : Except Fault Value :=
  match base with
  | .text content => do
    let (start, stop) ← textSelection selectors content.length
    return .text (slice content start stop)
  | .matrix grid => do
    let (rows, cols) ← matrixSelectors grid selectors
    return ofPart (← orFault (grid.select rows cols))
  | other => .error (.invalidIndex (.notIndexable other.typeName))

def inMatrix (grid : Matrix) (change : Change MatrixFault Matrix Unit) : Change Fault Value Unit := fun _ =>
  match change grid with
  | .ok _ later => .ok () (.matrix later)
  | .error fault later => .error fault.toFault (.matrix later)

def writeInto (selectors : List Selector) (replacement : Value) : Change Fault Value Unit := do
  match ← get with
  | .text content =>
    match replacement with
    | .text inserted =>
      let (start, stop) ← MonadExcept.ofExcept (textSelection selectors content.length)
      set (text (splice content start stop inserted))
    | other => throw (.unsupported "=" "string" other.typeName)
  | .matrix grid =>
    let (rows, cols) ← MonadExcept.ofExcept (matrixSelectors grid selectors)
    match replacement.part? with
    | some part => inMatrix grid (Matrix.write rows cols part)
    | none => throw (.unsupported "=" "array" replacement.typeName)
  | other => throw (.invalidIndex (.notIndexable other.typeName))

def assignInto (current : Value) (selectors : List Selector) (replacement : Value) : Except Fault Value :=
  (writeInto selectors replacement).result current

end MatrixScript.Value
