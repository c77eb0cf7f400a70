import MatrixScript.Program

/-! The moments of a run.

A run is at a statement when it starts it, and again whenever it tests a condition of it. The relations here
follow the recursion of the run itself and take every result on the way from it.
-/

set_option autoImplicit false

namespace MatrixScript

theorem Tree.run_eq_error {tree : Tree} {steps : Nat} {sink : Sink} {stop : Stop}
    (failed : (tree.run steps sink).outcome = .error stop) :
    ∃ later, runBody tree steps { sink } = .error stop later := by
  unfold Tree.run EStateM.run at failed
  cases outcome : runBody tree steps { sink } with
  | ok values later =>
    rw [outcome] at failed
    cases failed
  | error stopped later =>
    rw [outcome] at failed
    cases failed
    exact ⟨later, rfl⟩

/-- A loop goes on after a body that ended so. -/
def Flow.GoesOn (flow : Flow) : Prop := flow = .normal ∨ flow = .continuing

def Machine.bind (machine : Machine) (name : String) (value : Value) : Machine :=
  { machine with memory := machine.memory.bind name value }

def Machine.enter (machine : Machine) (label : String) : Machine :=
  { machine with memory := machine.memory.enter label }

/-- Running statements one after the other comes to one of them. -/
inductive Sequenced (statement : StmtId → Run Flow) : List StmtId → Machine → StmtId → Machine → Prop where
  | first {id : StmtId} {rest : List StmtId} {machine : Machine} :
      Sequenced statement (id :: rest) machine id machine
  | next {id later : StmtId} {rest : List StmtId} {machine between after : Machine} :
      statement id machine = .ok .normal between → Sequenced statement rest between later after →
        Sequenced statement (id :: rest) machine later after

inductive Counted (name : String) (body : Run Flow) : Nat → Int64 → Machine → Machine → Prop where
  | first {count : Nat} {counter : Int64} {machine : Machine} :
      Counted name body (count + 1) counter machine (machine.bind name (.int counter))
  | next {count : Nat} {counter : Int64} {machine between after : Machine} {flow : Flow} :
      body (machine.bind name (.int counter)) = .ok flow between → flow.GoesOn →
        Counted name body count (counter + 1) between after → Counted name body (count + 1) counter machine after

inductive Tested (condition : Run Bool) (body : Run Flow) : Nat → Machine → Machine → Prop where
  | first {steps : Nat} {machine : Machine} : Tested condition body (steps + 1) machine machine
  | next {steps : Nat} {machine between rest after : Machine} {flow : Flow} :
      condition machine = .ok true between → body between = .ok flow rest → flow.GoesOn →
        Tested condition body steps rest after → Tested condition body (steps + 1) machine after

section

variable (tree : Tree)

/-- A run of one statement comes to another one, or to itself. -/
inductive Moment : Nat → StmtId → Machine → StmtId → Machine → Prop where
  | here {steps : Nat} {id : StmtId} {machine : Machine} : Moment steps id machine id machine
  | block {steps : Nat} {id next last : StmtId} {stmt : Stmt} {machine between after : Machine}
      {body : List StmtId} :
      tree.stmt? id = some stmt → stmt.kind = .block body →
        Sequenced (execute tree steps) body machine next between → Moment steps next between last after →
        Moment (steps + 1) id machine last after
  | forRange {steps : Nat} {id body last : StmtId} {stmt : Stmt} {machine entered between after : Machine}
      {name : String} {range : ExprId} {start stop : Int64} :
      tree.stmt? id = some stmt → stmt.kind = .forRange name range body →
        Execution.loopBounds tree range machine = .ok (start, stop) entered →
        Counted name (execute tree steps body) (stop.toInt - start.toInt).toNat start (entered.enter "loop") between →
        Moment steps body between last after → Moment (steps + 1) id machine last after
  | test {steps : Nat} {id body : StmtId} {stmt : Stmt} {machine after : Machine} {condition : ExprId} :
      tree.stmt? id = some stmt → stmt.kind = .whileLoop condition body →
        Tested (Execution.holds tree condition) (execute tree steps body) steps (machine.enter "loop") after →
        Moment (steps + 1) id machine id after
  | whileLoop {steps : Nat} {id body last : StmtId} {stmt : Stmt} {machine tested between after : Machine}
      {condition : ExprId} :
      tree.stmt? id = some stmt → stmt.kind = .whileLoop condition body →
        Tested (Execution.holds tree condition) (execute tree steps body) steps (machine.enter "loop") tested →
        Execution.holds tree condition tested = .ok true between → Moment steps body between last after →
        Moment (steps + 1) id machine last after
  | choice {steps : Nat} {id : StmtId} {stmt : Stmt} {machine : Machine} {condition : ExprId} {thenBody : StmtId}
      {elseBody : Option StmtId} :
      tree.stmt? id = some stmt → stmt.kind = .branch condition thenBody elseBody →
        Moment (steps + 1) id machine id (machine.enter "if")
  | thenBody {steps : Nat} {id body last : StmtId} {stmt : Stmt} {machine between after : Machine}
      {condition : ExprId} {elseBody : Option StmtId} :
      tree.stmt? id = some stmt → stmt.kind = .branch condition body elseBody →
        Execution.holds tree condition (machine.enter "if") = .ok true between →
        Moment steps body between last after → Moment (steps + 1) id machine last after
  | elseBody {steps : Nat} {id thenBody body last : StmtId} {stmt : Stmt} {machine between after : Machine}
      {condition : ExprId} :
      tree.stmt? id = some stmt → stmt.kind = .branch condition thenBody (some body) →
        Execution.holds tree condition (machine.enter "if") = .ok false between →
        Moment steps body between last after → Moment (steps + 1) id machine last after

/-- A run of the tree from an empty memory comes to a statement. -/
def Tree.RunsTo (steps : Nat) (sink : Sink) (id : StmtId) (machine : Machine) : Prop :=
  ∃ first between, Sequenced (execute tree steps) tree.body { sink } first between ∧
    Moment tree steps first between id machine

end

end MatrixScript
