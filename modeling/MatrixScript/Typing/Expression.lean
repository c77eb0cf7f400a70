import MatrixScript.Typing.Index
import MatrixScript.Typing.Literal

/-! The static types of expressions. Each expression is typed once; later requests read the table. -/

set_option autoImplicit false

namespace MatrixScript.Typing

open Check

/-- The shape of a matrix product and whether the inner dimensions clash. -/
def productShape (left right : Shape) : Bool × Shape :=
  (left.cols.conflicts right.rows, ⟨left.rows, right.cols, left.elem.promote right.elem⟩)

/-- The dimension of a cellwise combination; a clash leaves it unknown. -/
def joinedDim (left right : Dim) : Dim :=
  if left.conflicts right then .unknown else left.or right

def cellwiseShape (left right : Shape) : Bool × Shape :=
  (left.rows.conflicts right.rows || left.cols.conflicts right.cols,
    ⟨joinedDim left.rows right.rows, joinedDim left.cols right.cols, left.elem.promote right.elem⟩)

section

variable (tree : Tree) (child : ExprId → Check StaticType)

def inferArith (line : Nat) (operator : Operator) (join : Shape → Shape → Bool × Shape) (left right : ExprId) :
    Check StaticType := do
  let a ← child left
  let b ← child right
  match operator.verdict [.type a.tag, .type b.tag] with
  | .type .array =>
    let (clash, shape) := join a.shape b.shape
    if clash then
      report line (.shapes operator a.shape b.shape)
      return .tainted shape
    else
      return .array shape
  | .type tag => return .ofTag tag
  | _ =>
    report line (.operands operator a.tag b.tag)
    return .unknown

def inferCompare (line : Nat) (op : Compare) (left right : ExprId) : Check StaticType := do
  let a ← child left
  let b ← child right
  if (Operator.compare op).verdict [.type a.tag, .type b.tag] = .unsupported then
    report line (.compared op a.tag b.tag)
  return .bool

/-- A row that is itself a literal with arrays in it. -/
def nestedLiteral (types : StaticTypes) (id : ExprId) : Bool :=
  match tree.kind? id with
  | some (.array cells) =>
    cells.any fun cell => ((types.get? cell).map fun type => type.tag.isArrayLike).getD false
  | _ => false

/-- A literal without arrays is one row; with arrays, every element is one row. -/
def inferArray (line : Nat) (items : List ExprId) : Check StaticType := do
  let types ← items.mapM child
  if types.isEmpty then
    return .array .unknown
  else if types.any (·.tag.isArrayLike) then
    let table := (← get).types
    if items.any (nestedLiteral tree table) || types.any multiRow then
      report line .tooDeep
      return .tainted .unknown
    else
      let rows := Dim.known items.length
      match stackedShape types .unknown none with
      | .ok (cols, elem) => return .array ⟨rows, cols, elem⟩
      | .error problem =>
        report line problem
        return .tainted ⟨rows, .unknown, .unknown⟩
  else
    let cols := Dim.known types.length
    match rowElem types none false with
    | .ok elem => return .array ⟨.known 1, cols, elem⟩
    | .error problem =>
      report line problem
      return .tainted ⟨.known 1, cols, .unknown⟩

/-- An argument of a matrix function; only a literal gives a known dimension. -/
def inferDimension (line : Nat) (function : Builtin) (id : ExprId) : Check Dim := do
  let type ← child id
  match type.tag, tree.kind? id with
  | .int, some (.int value) => return if 0 ≤ value.toInt then .known value.toInt.toNat else .unknown
  | .int, _ => return .unknown
  | .unknown, _ => return .unknown
  | other, _ =>
    report line (.argumentType function other)
    return .unknown

def inferBuiltin (line : Nat) (function : Builtin) (arguments : List ExprId) : Check StaticType := do
  match arguments with
  | [size] =>
    let dim ← inferDimension tree child line function size
    return .array ⟨dim, dim, .int⟩
  | [rows, cols] =>
    let rowDim ← inferDimension tree child line function rows
    let colDim ← inferDimension tree child line function cols
    return .array ⟨rowDim, colDim, .int⟩
  | _ =>
    let _ ← arguments.mapM child
    report line (.argumentCount function arguments.length)
    return .array ⟨.unknown, .unknown, .int⟩

def checkBound (line : Nat) (bound : Bound) (id : ExprId) : Check Unit := do
  let tag := (← child id).tag
  unless tag = .int ∨ tag = .unknown do
    report line (.rangeBound tag bound)

def infer (expr : Expr) : Check StaticType := do
  let line := expr.span.start.line
  match expr.kind with
  | .int _ => return .int
  | .float _ => return .float
  | .text _ => return .text
  | .name name =>
    match ← declared? name with
    | some producer => child producer
    | none =>
      report line (.undeclared name)
      return .unknown
  | .array items => inferArray tree child line items
  | .indexed base indices => inferIndexed tree child line base indices
  | .linear left op right => inferArith child line (.linear op) productShape left right
  | .elementwise left op right => inferArith child line (.elementwise op) cellwiseShape left right
  | .compare left op right => inferCompare child line op left right
  | .negate operand =>
    let type ← child operand
    match type.tag with
    | .int | .float | .unknown | .array | .tainted => return type
    | other =>
      report line (.negated other)
      return .unknown
  | .transpose operand =>
    let type ← child operand
    match type.tag with
    | .array | .tainted => return ⟨type.tag, some type.shape.transposed⟩
    | .unknown => return type
    | other =>
      report line (.transposed other)
      return .unknown
  | .builtin function arguments => inferBuiltin tree child line function arguments
  | .range start stop =>
    checkBound child line .start start
    checkBound child line .stop stop
    return .range

end

def typeWithin (tree : Tree) : Nat → ExprId → Check StaticType
  | 0, id => return (← recorded? id).getD .unknown
  | depth + 1, id => do
    match ← recorded? id with
    | some type => return type
    | none =>
      match tree.expr? id with
      | none => return .unknown
      | some expr =>
        let type ← infer tree (typeWithin tree depth) expr
        record id type

/-- The type of an expression, inferred on the first request only. -/
def typeOf (tree : Tree) (id : ExprId) : Check StaticType :=
  typeWithin tree (tree.exprs.size + 1) id

end MatrixScript.Typing
