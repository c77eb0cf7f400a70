import MatrixScript.Matrix.Basic

/-! The matrix product.

Each cell is the sum of the products along a row of the left and a column of the right matrix, taken in
order from zero. Between integer matrices every product and every partial sum has to fit.
-/

set_option autoImplicit false

namespace MatrixScript.Matrix

section

variable (inner width : Nat)

def intDot (left right : Array Int64) (row col : Nat) : Option Int64 :=
  (List.range inner).foldlM (fun total k => do
    let product ← Integer.mul? (left.getD (row * inner + k) 0) (right.getD (k * width + col) 0)
    Integer.add? total product) 0

def floatDot (left right : Cells) (row col : Nat) : Float :=
  (List.range inner).foldl (fun total k =>
    total + (left.get (row * inner + k)).toFloat * (right.get (k * width + col)).toFloat) 0

end

def product (left right : Matrix) : Except MatrixFault Matrix := do
  if left.cols = right.rows then
    checkSize left.rows right.cols
    let inner := left.cols
    let width := right.cols
    let positions := List.range (left.rows * width)
    match left.cells, right.cells with
    | .ints a, .ints b =>
      match positions.mapM fun i => intDot inner width a b (i / width) (i % width) with
      | some data => return ⟨left.rows, width, .ints data.toArray⟩
      | none => throw .integerOverflow
    | a, b =>
      let data := positions.map fun i => floatDot inner width a b (i / width) (i % width)
      return ⟨left.rows, width, .floats data.toArray⟩
  else
    throw (.shapeMismatch "*" left.extent right.extent)

end MatrixScript.Matrix
