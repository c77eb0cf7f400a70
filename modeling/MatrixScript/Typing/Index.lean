import MatrixScript.Typing.Checker

/-! Checking indices. -/

set_option autoImplicit false

namespace MatrixScript.Typing

open Check

/-- How one index selects along an axis, with its bounds when they are literals. -/
inductive Selection where
  | point (index : Option Int64)
  | span (bounds : Option (Int64 × Int64))
  | invalid
  deriving DecidableEq, Repr

/-- Whether a literal index falls outside an axis; a bound that is not known allows every index. -/
def pointOutside (index : Int64) : Dim → Bool
  | .known length => index.toInt < 0 || (length : Int) ≤ index.toInt
  | .unknown => false

def spanOutside (start stop : Int64) : Dim → Bool
  | .known length => start.toInt < 0 || stop.toInt < 0 || (length : Int) < stop.toInt
  | .unknown => false

/-- The problems of a selection along an axis, and its size; a point has none. -/
def axisResult (axis : Axis) (bound : Dim) : Selection → List Problem × Option Dim
  | .point (some index) => (if pointOutside index bound then [.outOfRange axis] else [], none)
  | .point none => ([], none)
  | .span (some (start, stop)) =>
    let outside := if spanOutside start stop bound then [.outOfRange axis] else []
    -- the difference is taken in words, as everywhere in the language
    let size := stop - start
    if size.toInt ≤ 0 then (outside ++ [.emptyRange], some .unknown)
    else (outside, some (.known size.toInt.toNat))
  | .span none => ([], some .unknown)
  | .invalid => ([], some .unknown)

def selectAxis (line : Nat) (axis : Axis) (bound : Dim) (selection : Selection) : Check (Option Dim) := do
  let (problems, size) := axisResult axis bound selection
  problems.forM (report line)
  return size

section

variable (tree : Tree) (child : ExprId → Check StaticType)

def checkIndex (line : Nat) (id : ExprId) : Check Selection := do
  let type ← child id
  match type.tag, tree.kind? id with
  | .range, some (.range start stop) =>
    match tree.kind? start, tree.kind? stop with
    | some (.int first), some (.int last) => return .span (some (first, last))
    | _, _ => return .span none
  | .int, some (.int value) => return .point (some value)
  | .int, _ => return .point none
  | .unknown, _ => return .point none
  | other, _ =>
    report line (.indexType other)
    return .invalid

/-- A text is one row, so the first of two indices has to be the literal zero. -/
def textIndicesFit (indices : List ExprId) : Bool :=
  match indices with
  | [first, _] => tree.kind? first = some (.int 0)
  | _ => indices.length ≤ 2

/-- Both axes: two points are one cell, and a point beside a span has length one. -/
def inferCell (line : Nat) (shape : Shape) (rows cols : Selection) : Check StaticType := do
  let rowSize ← selectAxis line .row shape.rows rows
  let colSize ← selectAxis line .column shape.cols cols
  match rowSize, colSize with
  | none, none => return .ofTag shape.elem.tag
  | rowSize, colSize =>
    return .array ⟨rowSize.getD (.known 1), colSize.getD (.known 1), shape.elem⟩

/-- A single index runs along a single row, and otherwise selects whole rows. -/
def inferFlat (line : Nat) (shape : Shape) (index : Selection) : Check StaticType := do
  match shape.rows with
  | .known 1 =>
    match ← selectAxis line .single shape.cols index with
    | none => return .ofTag shape.elem.tag
    | some cols => return .array ⟨.known 1, cols, shape.elem⟩
  | .known rows =>
    match ← selectAxis line .single (.known rows) index with
    | none => return .array ⟨.known 1, shape.cols, shape.elem⟩
    | some selected => return .array ⟨selected, shape.cols, shape.elem⟩
  | .unknown =>
    match index with
    | .span _ => return .array ⟨.unknown, .unknown, shape.elem⟩
    | _ => return .unknown

def inferIndexed (line : Nat) (base : ExprId) (indices : List ExprId) : Check StaticType := do
  let type ← child base
  let selections ← indices.mapM (checkIndex tree child line)
  match type.tag with
  | .text =>
    if textIndicesFit tree indices then
      return .text
    else
      report line .indexCount
      return .text
  | .unknown => return .unknown
  | .array | .tainted =>
    match selections with
    | [rows, cols] => inferCell line type.shape rows cols
    | [index] => inferFlat line type.shape index
    | _ =>
      report line .indexCount
      return .unknown
  | _ =>
    report line .notIndexable
    return .unknown

end

end MatrixScript.Typing
