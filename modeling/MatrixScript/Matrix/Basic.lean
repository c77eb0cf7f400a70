import MatrixScript.Matrix.Element
import MatrixScript.Matrix.Fault

/-! Dense matrices.

The cells are stored row by row with one storage kind: integers, or floats. Integer arithmetic on cells is
as exact as on scalars, and a float written into an integer matrix is truncated. A cell is reached by its
position `row * cols + col`; a matrix is well formed when it has a cell for every position.
-/

set_option autoImplicit false

namespace MatrixScript

inductive Cells where
  | ints (data : Array Int64)
  | floats (data : Array Float)
  deriving DecidableEq, Repr

namespace Cells

def size : Cells → Nat
  | ints data => data.size
  | floats data => data.size

def isIntegral : Cells → Bool
  | ints _ => true
  | floats _ => false

/-- The cell at a position; a position without a cell reads as zero. -/
def get (cells : Cells) (position : Nat) : Element :=
  match cells with
  | ints data => .int (data.getD position 0)
  | floats data => .float (data.getD position 0)

def set (cells : Cells) (position : Nat) (element : Element) : Cells :=
  match cells with
  | ints data => ints (data.setIfInBounds position element.truncated)
  | floats data => floats (data.setIfInBounds position element.toFloat)

def collect (integral : Bool) (elements : List Element) : Cells :=
  if integral then ints (elements.map Element.truncated).toArray
  else floats (elements.map Element.toFloat).toArray

def elements : Cells → List Element
  | ints data => data.toList.map .int
  | floats data => data.toList.map .float

/-- `count` cells read from given positions, with the same storage kind. -/
def gather (cells : Cells) (count : Nat) (position : Nat → Nat) : Cells :=
  match cells with
  | ints data => ints (Array.ofFn fun i : Fin count => data.getD (position i) 0)
  | floats data => floats (Array.ofFn fun i : Fin count => data.getD (position i) 0)

end Cells

structure Matrix where
  rows : Nat
  cols : Nat
  cells : Cells
  deriving DecidableEq, Repr

namespace Matrix

/-- Every position has a cell, and there are no other cells. -/
def WellFormed (matrix : Matrix) : Prop :=
  matrix.cells.size = matrix.rows * matrix.cols

/-- The largest number of eight-byte cells that fits in the address space. -/
def maxCells : Nat := 0x7FFFFFFFFFFFFFFF / 8

def extent (matrix : Matrix) : Extent := ⟨matrix.rows, matrix.cols⟩

def isIntegral (matrix : Matrix) : Bool := matrix.cells.isIntegral

def checkSize (rows cols : Nat) : Except MatrixFault Unit :=
  if rows * cols ≤ maxCells then .ok () else .error (.tooLarge ⟨rows, cols⟩)

def ofCells (rows cols : Nat) (cell : Nat → Nat → Int64) : Matrix :=
  ⟨rows, cols, .ints (Array.ofFn fun i : Fin (rows * cols) => cell (i / cols) (i % cols))⟩

def zeros (rows cols : Nat) : Except MatrixFault Matrix := do
  checkSize rows cols
  return ofCells rows cols fun _ _ => 0

def ones (rows cols : Nat) : Except MatrixFault Matrix := do
  checkSize rows cols
  return ofCells rows cols fun _ _ => 1

def eye (rows cols : Nat) : Except MatrixFault Matrix := do
  checkSize rows cols
  return ofCells rows cols fun row col => if row = col then 1 else 0

def ofRows (integral : Bool) (rows : List (List Element)) : Except MatrixFault Matrix :=
  let cols := (rows.head?.map List.length).getD 0
  match rows.find? fun row => row.length ≠ cols with
  | some row => .error (.raggedRows cols row.length)
  | none => .ok ⟨rows.length, cols, .collect integral rows.flatten⟩

def get? (matrix : Matrix) (row col : Nat) : Option Element :=
  if row < matrix.rows ∧ col < matrix.cols then
    some (matrix.cells.get (row * matrix.cols + col))
  else
    none

def row (matrix : Matrix) (row : Nat) : List Element :=
  (List.range matrix.cols).map fun col => matrix.cells.get (row * matrix.cols + col)

def transpose (matrix : Matrix) : Matrix where
  rows := matrix.cols
  cols := matrix.rows
  cells := matrix.cells.gather (matrix.cols * matrix.rows) fun i =>
    i % matrix.rows * matrix.cols + i / matrix.rows

def mapCells {ε : Type} (matrix : Matrix) (integral : Bool) (f : Element → Except ε Element) :
    Except ε Matrix := do
  let elements ← matrix.cells.elements.mapM f
  return { matrix with cells := .collect integral elements }

/-- Combines two matrices of one shape cell by cell, in order. The result holds integers when both
operands do. -/
def combine (operator : String) (f : Element → Element → Except Fault Element) (left right : Matrix) :
    Except Fault Matrix :=
  if left.rows = right.rows ∧ left.cols = right.cols then do
    let elements ← (left.cells.elements.zip right.cells.elements).mapM fun (a, b) => f a b
    return { left with cells := .collect (left.isIntegral && right.isIntegral) elements }
  else
    .error (MatrixFault.shapeMismatch operator left.extent right.extent).toFault

def displayRow (matrix : Matrix) (row : Nat) : String :=
  "[" ++ ", ".intercalate ((matrix.row row).map Element.display) ++ "]"

def display (matrix : Matrix) : String :=
  "[" ++ ", ".intercalate ((List.range matrix.rows).map matrix.displayRow) ++ "]"

end Matrix

end MatrixScript
