import MatrixScript.Scope.Memory
import MatrixScript.Tree
import MatrixScript.Value.Indexing
import MatrixScript.Value.Operation

/-! The values of expressions.

Evaluation stops at the first failing node, in the order of the operands. It may run in any monad that can fail and
read a variable: against a fixed memory, or as a part of a run. An expression of a finite tree nests no deeper than
the tree has nodes; a tree whose nodes go in circles, or lead nowhere, has no value.
-/

set_option autoImplicit false

namespace MatrixScript

/-- Why a run has no result: a failure of the program, or more steps than it was given. -/
inductive Stop where
  | failed (failure : Failure)
  | unfinished
  deriving DecidableEq, Repr

abbrev Eval := Except Stop

section

variable {m : Type → Type} [Monad m] [MonadExceptOf Stop m]

def locate {α : Type} (position : Position) : Except Fault α → m α
  | .ok value => pure value
  | .error fault => throw (.failed ⟨fault, position⟩)

namespace Evaluation

section

variable (tree : Tree) (read : String → m (Option Value)) (operand : ExprId → m Value)

def integer (id : ExprId) : m Int64 := do
  match ← operand id with
  | .int value => return value
  | other => locate (tree.exprStart id) (.error (.invalidIndex (.notInteger other.typeName)))

def bounds (start stop : ExprId) : m (Int64 × Int64) := do
  let first ← integer tree operand start
  let last ← integer tree operand stop
  return (first, last)

def selector (id : ExprId) : m Selector := do
  match tree.kind? id with
  | some (.range start stop) =>
    let (first, last) ← bounds tree operand start stop
    return .span first last
  | _ => return .point (← integer tree operand id)

def selectors (ids : List ExprId) : m (List Selector) :=
  ids.mapM (selector tree operand)

def rowOf (id : ExprId) (value : Value) : m Matrix :=
  let refused := locate (tree.exprStart id) (.error (.shapeMismatch (.notRow value.typeName)))
  match value with
  | .matrix row => if row.rows = 1 then pure row else refused
  | _ => refused

/-- Numbers make one row, and rows are stacked. The result holds integers when all its parts do. -/
def arrayLiteral (position : Position) (items : List ExprId) : m Value := do
  let values ← items.mapM operand
  match values.mapM Value.element? with
  | some row =>
    return .matrix (← locate position (Value.orFault (Matrix.ofRows (row.all Element.isInt) [row])))
  | none =>
    let rows ← (items.zip values).mapM fun (id, value) => rowOf tree id value
    let cells := rows.map fun row => row.row 0
    return .matrix (← locate position (Value.orFault (Matrix.ofRows (rows.all Matrix.isIntegral) cells)))

def dimension (function : Builtin) (id : ExprId) : m Nat := do
  let value ← operand id
  let refused := locate (tree.exprStart id) (.error (.shapeMismatch (.dimension function.name value.display)))
  match value with
  | .int size => if 0 ≤ size.toInt then return size.toInt.toNat else refused
  | _ => refused

def build (function : Builtin) (rows cols : Nat) : Except MatrixFault Matrix :=
  match function with
  | .eye => Matrix.eye rows cols
  | .zeros => Matrix.zeros rows cols
  | .ones => Matrix.ones rows cols

/-- One dimension gives a square matrix. -/
def builtin (position : Position) (function : Builtin) (arguments : List ExprId) : m Value := do
  match ← arguments.mapM (dimension tree operand function) with
  | [size] => return .matrix (← locate position (Value.orFault (build function size size)))
  | [rows, cols] => return .matrix (← locate position (Value.orFault (build function rows cols)))
  | dims => locate position (.error (.shapeMismatch (.argumentCount function.name dims.length)))

def node (expr : Expr) : m Value :=
  let position := expr.span.start
  match expr.kind with
  | .int value => pure (.int value)
  | .float value => pure (.float value)
  | .text value => pure (.text value)
  | .array items => arrayLiteral tree operand position items
  | .name name => do
    match ← read name with
    | some value => pure value
    | none => locate position (.error (.undefined name))
  | .indexed base indices => do
    let value ← operand base
    let selected ← selectors tree operand indices
    locate position (value.index selected)
  | .linear left op right => do
    let a ← operand left
    let b ← operand right
    locate position (Value.linear op a b)
  | .elementwise left op right => do
    let a ← operand left
    let b ← operand right
    locate position (Value.arithmetic op a b)
  | .compare left op right => do
    let a ← operand left
    let b ← operand right
    locate position (Value.compare op a b)
  | .negate inner => do
    let value ← operand inner
    locate position value.negate
  | .transpose inner => do
    let value ← operand inner
    locate position value.transpose
  | .builtin function arguments => builtin tree operand position function arguments
  | .range _ _ => locate position (.error (.invalidIndex .strayRange))

def valueWithin : Nat → ExprId → m Value
  | 0, _ => throw .unfinished
  | depth + 1, id =>
    match tree.expr? id with
    | none => throw .unfinished
    | some expr => node tree read (valueWithin depth) expr

end

def fetch (memory : Memory Value) (name : String) : Eval (Option Value) := pure (memory.read? name)

def evaluateWithin (tree : Tree) (memory : Memory Value) (depth : Nat) (id : ExprId) : Eval Value :=
  valueWithin tree (fetch memory) depth id

end Evaluation

end

def evaluate (tree : Tree) (memory : Memory Value) (id : ExprId) : Eval Value :=
  Evaluation.evaluateWithin tree memory (tree.exprs.size + 1) id

end MatrixScript
