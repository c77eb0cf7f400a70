import MatrixScript.StaticType.Table
import MatrixScript.Scope.Declarations
import MatrixScript.Typing.Finding

/-! The state of checking and its elementary moves.

A declared name stands for the expression that last gave it its value; that expression has a type already, so the
type of the name can be read back from the table.
-/

set_option autoImplicit false

namespace MatrixScript

structure Checker where
  types : StaticTypes
  declared : Declarations ExprId
  findings : Array Finding
  /-- The number of loop bodies around the current statement. -/
  loopDepth : Nat
  deriving Repr

def Checker.start (tree : Tree) : Checker :=
  ⟨.ofSize tree.exprs.size, .start, #[], 0⟩

abbrev Check := StateM Checker

namespace Check

def report (line : Nat) (problem : Problem) : Check Unit :=
  modify fun checker => { checker with findings := checker.findings.push ⟨line, problem⟩ }

def recorded? (id : ExprId) : Check (Option StaticType) := do
  return (← get).types.get? id

def record (id : ExprId) (type : StaticType) : Check StaticType :=
  modifyGet fun checker =>
    let (held, types) := checker.types.record id type
    (held, { checker with types })

def declared? (name : String) : Check (Option ExprId) := do
  return (← get).declared.lookup? name

def declare (name : String) (producer : ExprId) : Check Unit :=
  modify fun checker => { checker with declared := checker.declared.declare name producer }

def inScope (label : String) (body : Check Unit) : Check Unit := do
  modify fun checker => { checker with declared := checker.declared.push label }
  body
  modify fun checker => { checker with declared := checker.declared.pop.2 }

def inLoop (body : Check Unit) : Check Unit :=
  inScope "loop" do
    modify fun checker => { checker with loopDepth := checker.loopDepth + 1 }
    body
    modify fun checker => { checker with loopDepth := checker.loopDepth - 1 }

end Check

end MatrixScript
