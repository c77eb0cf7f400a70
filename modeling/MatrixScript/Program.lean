import MatrixScript.Evaluation.Statement
import MatrixScript.Grammar.Statement
import MatrixScript.Token.Scan
import MatrixScript.Typing.Statement

/-! Whole programs: from a source text to a checked tree, and from there to a run. -/

set_option autoImplicit false

namespace MatrixScript

/-- A program that passed every check before running. -/
structure Program where
  tree : Tree
  types : StaticTypes

inductive Rejection where
  | lexical (failure : Failure)
  | grammatical (failure : Failure)
  /-- All findings of the checker, in the order in which they were made. -/
  | static (findings : List Finding)
  deriving DecidableEq, Repr

def Tree.ofSource (source : String) : Except Rejection Tree :=
  match scan source with
  | .error failure => .error (.lexical failure)
  | .ok tokens =>
    match parse tokens with
    | .error failure => .error (.grammatical failure)
    | .ok tree => .ok tree

def Program.ofSource (source : String) : Except Rejection Program :=
  match Tree.ofSource source with
  | .error rejection => .error rejection
  | .ok tree =>
    let result := check tree
    if result.hasFindings then .error (.static result.findings) else .ok ⟨tree, result.types⟩

structure RunResult where
  outcome : Except Stop (List Value)
  machine : Machine

/-- Runs a tree from an empty memory within a number of steps. -/
def Tree.run (tree : Tree) (steps : Nat) (sink : Sink) : RunResult :=
  match (runBody tree steps).run { sink } with
  | .ok values machine => ⟨.ok values, machine⟩
  | .error stop machine => ⟨.error stop, machine⟩

end MatrixScript
