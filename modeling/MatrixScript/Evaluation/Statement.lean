import MatrixScript.Evaluation.Expression
import MatrixScript.Evaluation.Sink

/-! Running statements.

A statement changes the memory and the output and tells how control leaves it. What was changed before a failure
stays changed. Every body of a branch or a loop has a scope of its own that is left again however the body ends.
The number of steps bounds how deeply statements nest and how often each loop is repeated.
-/

set_option autoImplicit false

namespace MatrixScript

inductive Flow where
  | normal
  | breaking
  | continuing
  | returning (values : List Value)
  deriving DecidableEq, Repr

structure Machine where
  memory : Memory Value := .start
  sink : Sink := {}

abbrev Run := EStateM Stop Machine

namespace Execution

def fail {α : Type} (position : Position) (fault : Fault) : Run α :=
  throw (.failed ⟨fault, position⟩)

def bind (name : String) (value : Value) : Run Unit :=
  modify fun machine => { machine with memory := machine.memory.bind name value }

def readVariable (name : String) : Run (Option Value) := do
  return (← get).memory.read? name

/-- Runs a body in a fresh scope and leaves it, whatever the outcome. -/
def inScope {α : Type} (label : String) (body : Run α) : Run α := fun machine =>
  let leave (after : Machine) : Machine := { after with memory := after.memory.exit.2 }
  match body { machine with memory := machine.memory.enter label } with
  | .ok value after => .ok value (leave after)
  | .error stop after => .error stop (leave after)

def printLine (line : String) (position : Position) : Run Unit := do
  let complete ← modifyGet fun machine =>
    let (complete, sink) := machine.sink.write (line ++ "\n")
    (complete, { machine with sink })
  if complete then return () else fail position (.output "sink is full")

section

variable (tree : Tree)

def valueOf (id : ExprId) : Run Value :=
  Evaluation.valueWithin tree readVariable (tree.exprs.size + 1) id

def valuesOf (ids : List ExprId) : Run (List Value) := ids.mapM (valueOf tree)

def holds (condition : ExprId) : Run Bool := do
  let value ← valueOf tree condition
  match value.truth? with
  | some truth => return truth
  | none => fail (tree.exprStart condition) (.invalidCondition value.typeName)

/-- Changes a variable where it lives. What a failing change has written stays written. -/
def changeAt (position : Position) (name : String) (change : Change Fault Value Unit) : Run Unit := do
  match ← readVariable name with
  | none => fail position (.undefined name)
  | some current =>
    match change current with
    | .ok _ updated => bind name updated
    | .error fault left =>
      bind name left
      fail position fault

def assignTo (target : ExprId) (value : Value) : Run Unit := do
  match tree.kind? target with
  | some (.name name) => bind name value
  | some (.indexed base indices) =>
    match tree.kind? base with
    | some (.name name) =>
      let selected ← Evaluation.selectors tree (valueOf tree) indices
      changeAt (tree.exprStart target) name (Value.writeInto selected value)
    | _ => fail (tree.exprStart base) (.invalidIndex .notVariable)
  | _ => fail (tree.exprStart target) (.invalidIndex .notTarget)

/-- A compound assignment reads the target, combines cell by cell and then assigns like a plain one. -/
def assign (target : ExprId) (op : Assign) (value : ExprId) : Run Unit := do
  let right ← valueOf tree value
  match op with
  | .plain => assignTo tree target right
  | .compound op =>
    let left ← valueOf tree target
    let combined ← locate (tree.exprStart target) (Value.arithmetic op left right)
    assignTo tree target combined

def loopBounds (range : ExprId) : Run (Int64 × Int64) := do
  match tree.kind? range with
  | some (.range start stop) => Evaluation.bounds tree (valueOf tree) start stop
  | _ => fail (tree.exprStart range) (.invalidIndex .loopWithoutRange)

end

def counted (name : String) (body : Run Flow) : Nat → Int64 → Run Flow
  | 0, _ => return .normal
  | count + 1, counter => do
    bind name (.int counter)
    match ← body with
    | .breaking => return .normal
    | .returning values => return .returning values
    | .normal | .continuing => counted name body count (counter + 1)

def repeated (condition : Run Bool) (body : Run Flow) : Nat → Run Flow
  | 0 => throw .unfinished
  | steps + 1 => do
    if ← condition then
      match ← body with
      | .breaking => return .normal
      | .returning values => return .returning values
      | .normal | .continuing => repeated condition body steps
    else
      return .normal

/-- Runs statements up to the first that does not end normally. -/
def sequence (statement : StmtId → Run Flow) : List StmtId → Run Flow
  | [] => return .normal
  | id :: rest => do
    match ← statement id with
    | .normal => sequence statement rest
    | flow => return flow

section

variable (tree : Tree) (statement : StmtId → Run Flow) (steps : Nat)

def node (stmt : Stmt) : Run Flow := do
  match stmt.kind with
  | .block body => sequence statement body
  | .assign target op value =>
    assign tree target op value
    return .normal
  | .forRange name range body =>
    let (start, stop) ← loopBounds tree range
    inScope "loop" (counted name (statement body) (stop.toInt - start.toInt).toNat start)
  | .whileLoop condition body =>
    inScope "loop" (repeated (holds tree condition) (statement body) steps)
  | .branch condition thenBody elseBody =>
    inScope "if" do
      if ← holds tree condition then
        statement thenBody
      else
        match elseBody with
        | some body => statement body
        | none => return .normal
  | .breakLoop => return .breaking
  | .continueLoop => return .continuing
  | .giveBack values => return .returning (← valuesOf tree values)
  | .print values =>
    let shown ← valuesOf tree values
    printLine (", ".intercalate (shown.map Value.display)) stmt.span.start
    return .normal

end

end Execution

def execute (tree : Tree) : Nat → StmtId → Run Flow
  | 0, _ => throw .unfinished
  | steps + 1, id =>
    match tree.stmt? id with
    | none => throw .unfinished
    | some stmt => Execution.node tree (execute tree steps) steps stmt

/-- Runs the statements of a program and gives the values it returns. A stray loop signal ends it. -/
def runBody (tree : Tree) (steps : Nat) : Run (List Value) := do
  match ← Execution.sequence (execute tree steps) tree.body with
  | .returning values => return values
  | .normal | .breaking | .continuing => return []

end MatrixScript
