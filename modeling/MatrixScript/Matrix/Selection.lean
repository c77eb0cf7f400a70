import MatrixScript.Change
import MatrixScript.Matrix.Basic
import MatrixScript.Matrix.Selector

/-! Reading and writing a block of a matrix. -/

set_option autoImplicit false

namespace MatrixScript

/-- The result of a selection, or what is written into one. -/
inductive Part where
  | scalar (element : Element)
  | matrix (matrix : Matrix)
  deriving DecidableEq, Repr

/-- What is written into the `i`-th cell of a block: a scalar is spread over all cells. -/
def Part.cell (part : Part) (i : Nat) : Element :=
  match part with
  | .scalar element => element
  | .matrix values => values.cells.get i

namespace Matrix

/-- Spreads a single index over both axes: a matrix of one row is indexed like a list, any other by
whole rows. -/
def flatSelectors (matrix : Matrix) (index : Selector) : Selector × Selector :=
  if matrix.rows = 1 then (.point 0, index) else (index, .span 0 (Int64.ofNat matrix.cols))

/-- A selected block by its first row and column, its height and its width. -/
structure Block where
  row : Nat
  col : Nat
  height : Nat
  width : Nat
  deriving DecidableEq, Repr

def block (matrix : Matrix) (rows cols : Selector) : Except MatrixFault Block := do
  let (rowFrom, rowTo) ← rows.resolve matrix.rows
  let (colFrom, colTo) ← cols.resolve matrix.cols
  return ⟨rowFrom, colFrom, rowTo - rowFrom, colTo - colFrom⟩

def Block.position (block : Block) (cols i : Nat) : Nat :=
  (block.row + i / block.width) * cols + (block.col + i % block.width)

/-- Two points select one cell. Otherwise a point keeps its axis with length one. -/
def select (matrix : Matrix) (rows cols : Selector) : Except MatrixFault Part := do
  let block ← matrix.block rows cols
  if rows.isPoint && cols.isPoint then
    return .scalar (matrix.cells.get (block.row * matrix.cols + block.col))
  else
    let cells := matrix.cells.gather (block.height * block.width) (block.position matrix.cols)
    return .matrix ⟨block.height, block.width, cells⟩

def fits (part : Part) (block : Block) : Except MatrixFault Unit :=
  match part with
  | .scalar _ => .ok ()
  | .matrix matrix =>
    if matrix.rows = block.height ∧ matrix.cols = block.width then .ok ()
    else .error (.assignShape ⟨block.height, block.width⟩ matrix.extent)

def fill (matrix : Matrix) (block : Block) (part : Part) : Matrix :=
  let cells := (List.range (block.height * block.width)).foldl
    (fun cells i => cells.set (block.position matrix.cols i) (part.cell i)) matrix.cells
  { matrix with cells }

/-- Writes a scalar into every selected cell, or a matrix of exactly the selected shape. -/
def write (rows cols : Selector) (part : Part) : Change MatrixFault Matrix Unit := do
  let block ← MonadExcept.ofExcept ((← get).block rows cols)
  MonadExcept.ofExcept (fits part block)
  modify (·.fill block part)

def assign (matrix : Matrix) (rows cols : Selector) (part : Part) : Except MatrixFault Matrix :=
  (write rows cols part).result matrix

end Matrix

end MatrixScript
