import MatrixScript.Typing.Expression

/-! Checking statements and programs. Every body is checked once, whether or not it would run. -/

set_option autoImplicit false

namespace MatrixScript.Typing

open Check

section

variable (tree : Tree)

def isConditionTag (tag : Tag) : Bool :=
  tag = .bool || tag = .int || tag = .float || tag = .unknown

def checkCondition (condition : ExprId) : Check Unit := do
  let tag := (← typeOf tree condition).tag
  unless isConditionTag tag do
    report (tree.exprStart condition).line (.conditionType tag)

def assignName (line : Nat) (name : String) (op : Assign) (value : ExprId) (valueTag : Tag) : Check Unit := do
  match op with
  | .plain =>
    match (Operator.assign .plain).verdict [.name, .type valueTag] with
    | .bind | .type _ => declare name value
    | _ => report line (.rightSide valueTag)
  | .compound arith =>
    match ← declared? name with
    | none => report line (.undeclared name)
    | some producer =>
      let current := (← typeOf tree producer).tag
      match (Operator.assign (.compound arith)).verdict [.name, .type current, .type valueTag] with
      -- a variable that changes its type is described by the right-hand side from now on
      | .type result => if result ≠ current then declare name value
      | .bind => return ()
      | _ => report line (.cannotAssign op valueTag (.type current))

def assignIndexed (line : Nat) (target base : ExprId) (op : Assign) (value : ExprId) (valueTag : Tag) :
    Check Unit := do
  match tree.kind? base with
  | some (.text _) => report line .notVariable
  | _ =>
    let targetType ← typeOf tree target
    let baseType ← typeOf tree base
    if baseType.tag = .text ∧ op ≠ .plain then
      report line .compoundSubstring
    else
      match (Operator.assign op).verdict [.indexed, .type targetType.tag, .type valueTag] with
      | .bind | .type _ =>
        if targetType.tag.isArrayLike ∧ op = .plain then
          let valueShape := (← typeOf tree value).shape
          let targetShape := targetType.shape
          if targetShape.rows.conflicts valueShape.rows || targetShape.cols.conflicts valueShape.cols then
            report line .assignedDimensions
      | .unsupported =>
        let destination : Destination :=
          if baseType.tag.isArrayLike then .arrayOf baseType.shape.elem.tag else .type targetType.tag
        report line (.cannotAssign op valueTag destination)
      | .rightInvalid => report line (.rightSide valueTag)
      | .leftInvalid => report line (.leftSide targetType.tag)

/-- The value is checked before the target. -/
def checkAssignment (line : Nat) (target : ExprId) (op : Assign) (value : ExprId) : Check Unit := do
  let valueTag := (← typeOf tree value).tag
  match tree.kind? target with
  | some (.name name) => assignName tree line name op value valueTag
  | some (.indexed base _) => assignIndexed tree line target base op value valueTag
  | _ =>
    let targetTag := (← typeOf tree target).tag
    if (Operator.assign op).verdict [.type targetTag, .type valueTag] = .leftInvalid then
      report line (.leftSide targetTag)

def declareCounter (line : Nat) (name : String) (range : ExprId) : Check Unit := do
  match ← declared? name with
  | some _ => report line (.counterDeclared name)
  | none =>
    match tree.kind? range with
    | some (.range start _) => declare name start
    | _ => return ()

def checkNode (statement : StmtId → Check Unit) (stmt : Stmt) : Check Unit := do
  let line := stmt.span.start.line
  match stmt.kind with
  | .block body => body.forM statement
  | .assign target op value => checkAssignment tree line target op value
  | .forRange name range body =>
    let _ ← typeOf tree range
    inLoop do
      declareCounter tree line name range
      statement body
  | .whileLoop condition body =>
    checkCondition tree condition
    inLoop (statement body)
  | .branch condition thenBody elseBody =>
    checkCondition tree condition
    inScope "if" (statement thenBody)
    match elseBody with
    | some body => inScope "else" (statement body)
    | none => return ()
  | .breakLoop => if (← get).loopDepth = 0 then report line .strayBreak
  | .continueLoop => if (← get).loopDepth = 0 then report line .strayContinue
  | .giveBack values | .print values => values.forM fun id => discard (typeOf tree id)

def checkWithin : Nat → StmtId → Check Unit
  | 0, _ => return ()
  | depth + 1, id =>
    match tree.stmt? id with
    | none => return ()
    | some stmt => checkNode tree (checkWithin depth) stmt

def checkStatement (id : StmtId) : Check Unit :=
  checkWithin tree (tree.stmts.size + 1) id

def checkProgram : Check Unit :=
  tree.body.forM (checkStatement tree)

end

end MatrixScript.Typing

namespace MatrixScript

structure CheckResult where
  types : StaticTypes
  findings : List Finding
  deriving Repr

/-- A program with findings must not be run. -/
def CheckResult.hasFindings (result : CheckResult) : Bool := !result.findings.isEmpty

def check (tree : Tree) : CheckResult :=
  let (_, checker) := (Typing.checkProgram tree).run (.start tree)
  ⟨checker.types, checker.findings.toList⟩

end MatrixScript
