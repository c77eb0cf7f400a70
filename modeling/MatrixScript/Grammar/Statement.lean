import MatrixScript.Grammar.Expression

/-! Statements and programs. -/

set_option autoImplicit false

namespace MatrixScript.Grammar

open Parse

def assignOf? : Kind → Option Assign
  | .assign => some .plain
  | .plusEquals => some (.compound .add)
  | .minusEquals => some (.compound .sub)
  | .starEquals => some (.compound .mul)
  | .slashEquals => some (.compound .div)
  | _ => none

section

variable (operand : Power → Parse ExprId)

/-- Any expression is taken as a target; whether it can be assigned to is decided by the checker. -/
def assignment : Parse StmtId := do
  let start ← here
  let target ← operand .lowest
  match assignOf? (← peek) with
  | none => unexpectedDetailed "expected an assignment"
  | some op =>
    let _ ← advance
    let value ← operand .lowest
    let _ ← expect .semicolon
    addStmt (.assign target op value) (← spanFrom start)

def condition : Parse ExprId := group operand

def printing (bound : Nat) : Parse StmtId := do
  let token ← advance
  if (← peek) = .semicolon then
    unexpectedDetailed "print needs at least one argument"
  else
    let values ← items operand bound .semicolon
    addStmt (.print values) (← spanFrom token.span.start)

def returning (bound : Nat) : Parse StmtId := do
  let token ← advance
  let values ← items operand bound .semicolon
  addStmt (.giveBack values) (← spanFrom token.span.start)

def signal (kind : StmtKind) : Parse StmtId := do
  let token ← advance
  let _ ← expect .semicolon
  addStmt kind (← spanFrom token.span.start)

variable (body : Parse StmtId)

def blockItems : Nat → List StmtId → Parse (List StmtId)
  | 0, found => return found.reverse
  | bound + 1, found => do
    let kind ← peek
    if kind = .closeCurly ∨ kind = .eof then
      return found.reverse
    else
      let next ← body
      blockItems bound (next :: found)

def block (bound : Nat) : Parse StmtId := do
  let token ← expect .openCurly
  let statements ← blockItems body bound []
  let _ ← expect .closeCurly
  addStmt (.block statements) (← spanFrom token.span.start)

/-- An `else` belongs to the nearest branch before it. -/
def branching : Parse StmtId := do
  let token ← advance
  let test ← condition operand
  let thenBody ← body
  if (← peek) = .elseWord then
    let _ ← advance
    let elseBody ← body
    addStmt (.branch test thenBody (some elseBody)) (← spanFrom token.span.start)
  else
    addStmt (.branch test thenBody none) (← spanFrom token.span.start)

def whileLooping : Parse StmtId := do
  let token ← advance
  let test ← condition operand
  let repeated ← body
  addStmt (.whileLoop test repeated) (← spanFrom token.span.start)

def forLooping : Parse StmtId := do
  let token ← advance
  let counter ← expect .name
  let _ ← expect .assign
  let start ← operand .lowest
  let _ ← expect .colon
  let stop ← operand .lowest
  let range ← addRange start stop
  let repeated ← body
  addStmt (.forRange counter.value range repeated) (← spanFrom token.span.start)

def statementOf (bound : Nat) : Parse StmtId := do
  match ← peek with
  | .openCurly => block body bound
  | .ifWord => branching operand body
  | .whileWord => whileLooping operand body
  | .forWord => forLooping operand body
  | .breakWord => signal .breakLoop
  | .continueWord => signal .continueLoop
  | .returnWord => returning operand bound
  | .printWord => printing operand bound
  | _ => assignment operand

end

def statementWithin : Nat → Parse StmtId
  | 0 => unexpected
  | depth + 1 =>
    statementOf (expressionWithin (depth + 1)) (statementWithin depth) (depth + 1)

def statement : Parse StmtId := do
  statementWithin ((← get).following.length + 1)

def statementsFrom (depth : Nat) : Nat → List StmtId → Parse (List StmtId)
  | 0, found => return found.reverse
  | bound + 1, found => do
    if (← peek) = .eof then
      return found.reverse
    else
      let next ← statementWithin depth
      statementsFrom depth bound (next :: found)

def program : Parse Tree := do
  let length := (← get).following.length
  let body ← statementsFrom (length + 1) (length + 1) []
  return { (← get).tree with body }

end MatrixScript.Grammar

namespace MatrixScript

/-- The tree of a token list, or the first syntax failure. -/
def parse (tokens : List Token) : Except Failure Tree :=
  match Grammar.program.run (Parser.start tokens) with
  | .ok tree _ => .ok tree
  | .error failure _ => .error failure

end MatrixScript
