import MatrixScript.Operator
import MatrixScript.Source

/-! Program trees.

The nodes of a tree are kept in two arrays, and a node refers to its children by their positions there. An
expression can so be named by a number that later stages attach facts to. These numbers are not bounded: a tree is taken
to have fewer than 2^32 nodes.
-/

set_option autoImplicit false

namespace MatrixScript

structure ExprId where
  index : Nat
  deriving DecidableEq, Repr

structure StmtId where
  index : Nat
  deriving DecidableEq, Repr

inductive ExprKind where
  | int (value : Int64)
  | float (value : Float)
  | text (value : String)
  | array (items : List ExprId)
  | name (name : String)
  | indexed (base : ExprId) (indices : List ExprId)
  | linear (left : ExprId) (op : Arith) (right : ExprId)
  | elementwise (left : ExprId) (op : Arith) (right : ExprId)
  | compare (left : ExprId) (op : Compare) (right : ExprId)
  | negate (operand : ExprId)
  | transpose (operand : ExprId)
  | builtin (function : Builtin) (arguments : List ExprId)
  | range (start stop : ExprId)
  deriving DecidableEq, Repr

def ExprKind.isLvalue : ExprKind → Bool
  | name _ | indexed _ _ => true
  | _ => false

structure Expr where
  kind : ExprKind
  span : Span
  deriving DecidableEq, Repr

inductive StmtKind where
  | block (body : List StmtId)
  | assign (target : ExprId) (op : Assign) (value : ExprId)
  | forRange (variableName : String) (range : ExprId) (body : StmtId)
  | whileLoop (condition : ExprId) (body : StmtId)
  | branch (condition : ExprId) (thenBody : StmtId) (elseBody : Option StmtId)
  | breakLoop
  | continueLoop
  | giveBack (values : List ExprId)
  | print (values : List ExprId)
  deriving DecidableEq, Repr

structure Stmt where
  kind : StmtKind
  span : Span
  deriving DecidableEq, Repr

structure Tree where
  exprs : Array Expr := #[]
  stmts : Array Stmt := #[]
  body : List StmtId := []
  deriving DecidableEq, Repr

namespace Tree

def expr? (tree : Tree) (id : ExprId) : Option Expr := tree.exprs[id.index]?

def stmt? (tree : Tree) (id : StmtId) : Option Stmt := tree.stmts[id.index]?

def kind? (tree : Tree) (id : ExprId) : Option ExprKind := (tree.expr? id).map (·.kind)

/-- The span of an expression; an id without a node has the empty span at the very beginning. -/
def exprSpan (tree : Tree) (id : ExprId) : Span :=
  ((tree.expr? id).map (·.span)).getD ⟨⟨0, 0⟩, ⟨0, 0⟩⟩

def exprStart (tree : Tree) (id : ExprId) : Position := (tree.exprSpan id).start

def addExpr (tree : Tree) (kind : ExprKind) (span : Span) : ExprId × Tree :=
  (⟨tree.exprs.size⟩, { tree with exprs := tree.exprs.push ⟨kind, span⟩ })

def addStmt (tree : Tree) (kind : StmtKind) (span : Span) : StmtId × Tree :=
  (⟨tree.stmts.size⟩, { tree with stmts := tree.stmts.push ⟨kind, span⟩ })

end Tree

end MatrixScript
