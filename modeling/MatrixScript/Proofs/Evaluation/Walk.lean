import MatrixScript.Proofs.Evaluation.Moments
import MatrixScript.Proofs.Evaluation.Reading
import MatrixScript.Proofs.Typing.Containment

/-! Walking through a run.

What the expressions and the changes of every statement have, and what sequences, scopes and counters inherit, all of a
run has. A relation between machines is such a property, and then it also leads from the start of a run to each of its
moments.
-/

set_option autoImplicit false

namespace MatrixScript

namespace Execution

/-- Sequences inherit a property from their parts, and so does a body that runs in a scope of its own. -/
structure Closed (P : ∀ {α : Type}, Run α → Prop) : Prop where
  pure : ∀ {α : Type} (value : α), P (Pure.pure value : Run α)
  unfinished : ∀ {α : Type}, P (throw .unfinished : Run α)
  bind : ∀ {α β : Type} {action : Run α} {next : α → Run β}, P action → (∀ value, P (next value)) →
    P (action >>= next)
  inScope : ∀ {α : Type} {body : Run α} (label : String), P body → P (Execution.inScope label body)
  counter : ∀ name number, P (Execution.bind name (.int number))

def Parts (P : ∀ {α : Type}, Run α → Prop) (tree : Tree) (stmt : Stmt) : Prop :=
  match stmt.kind with
  | .assign target op value => P (assign tree target op value)
  | .forRange _ range _ => P (loopBounds tree range)
  | .whileLoop condition _ | .branch condition _ _ => P (holds tree condition)
  | .giveBack values => P (valuesOf tree values)
  | .print values => P (valuesOf tree values) ∧ ∀ line, P (printLine line stmt.span.start)
  | .block _ | .breakLoop | .continueLoop => True

namespace Closed

variable {P : ∀ {α : Type}, Run α → Prop} (closed : Closed P)
include closed

theorem counted {body : Run Flow} (each : P body) (name : String) (count : Nat) (counter : Int64) :
    P (counted name body count counter) := by
  induction count generalizing counter with
  | zero => exact closed.pure _
  | succ count ih =>
    -- a round goes on with the next one, or it is the last
    refine closed.bind (closed.counter name counter) fun _ => closed.bind each fun flow => ?_
    cases flow with
    | normal | continuing => exact ih (counter + 1)
    | breaking | returning _ => exact closed.pure _

theorem repeated {condition : Run Bool} {body : Run Flow} (tested : P condition) (each : P body) (steps : Nat) :
    P (repeated condition body steps) := by
  induction steps with
  | zero => exact closed.unfinished
  | succ steps ih =>
    refine closed.bind tested fun truth => ?_
    cases truth with
    | false => exact closed.pure _
    | true =>
      refine closed.bind each fun flow => ?_
      cases flow with
      | normal | continuing => exact ih
      | breaking | returning _ => exact closed.pure _

theorem sequence {statement : StmtId → Run Flow} {ids : List StmtId} (each : ∀ id ∈ ids, P (statement id)) :
    P (sequence statement ids) := by
  induction ids with
  | nil => exact closed.pure _
  | cons id rest ih =>
    refine closed.bind (each id List.mem_cons_self) fun flow => ?_
    cases flow with
    | normal => exact ih fun other member => each other (List.mem_cons_of_mem _ member)
    | breaking | continuing | returning _ => exact closed.pure _

theorem node {tree : Tree} {statement : StmtId → Run Flow} (steps : Nat) {stmt : Stmt} (parts : Parts P tree stmt)
    (each : ∀ body ∈ stmt.kind.bodies, P (statement body)) : P (node tree statement steps stmt) := by
  obtain ⟨kind, span⟩ := stmt
  cases kind with
  | block body => exact closed.sequence each
  | assign target op value => exact closed.bind parts fun _ => closed.pure _
  | forRange name range body =>
    have body := each body List.mem_cons_self
    exact closed.bind parts fun bounds => closed.inScope "loop" (closed.counted body name _ _)
  | whileLoop condition body =>
    exact closed.inScope "loop" (closed.repeated parts (each body List.mem_cons_self) steps)
  | branch condition thenBody elseBody =>
    refine closed.inScope "if" (closed.bind parts fun truth => ?_)
    cases truth with
    | true => exact each thenBody List.mem_cons_self
    | false =>
      cases elseBody with
      | some body => exact each body (List.mem_cons_of_mem _ List.mem_cons_self)
      | none => exact closed.pure _
  | breakLoop | continueLoop => exact closed.pure _
  | giveBack values => exact closed.bind parts fun _ => closed.pure _
  | print values => exact closed.bind parts.1 fun shown => closed.bind (parts.2 _) fun _ => closed.pure _

end Closed

end Execution

section

variable {tree : Tree} {P : ∀ {α : Type}, Run α → Prop} (closed : Execution.Closed P)
  (parts : ∀ id stmt, tree.Reachable id → tree.stmt? id = some stmt → Execution.Parts P tree stmt)
include closed parts

theorem execute_walk (steps : Nat) {id : StmtId} (reachable : tree.Reachable id) : P (execute tree steps id) := by
  induction steps generalizing id with
  | zero => exact closed.unfinished
  | succ steps ih =>
    unfold execute
    cases found : tree.stmt? id with
    | none => exact closed.unfinished
    | some stmt =>
      refine closed.node steps (parts id stmt reachable found) fun body member => ih (.inside reachable ?_)
      exact ⟨stmt.kind, Tree.stmtKind?_of_stmt? found, member⟩

theorem runBody_walk (steps : Nat) : P (runBody tree steps) := by
  refine closed.bind (closed.sequence fun id member => ?_) fun flow => ?_
  · exact execute_walk closed parts steps (.program member)
  · cases flow with
    | normal | breaking | continuing | returning _ => exact closed.pure _

end

/-! Relations between machines. -/

theorem Tree.run_machine (tree : Tree) (steps : Nat) (sink : Sink) :
    (tree.run steps sink).machine = remaining (runBody tree steps { sink }) := by
  unfold Tree.run EStateM.run
  cases runBody tree steps { sink } with
  | ok values later => rfl
  | error stop later => rfl

section

variable {R : Machine → Machine → Prop}

theorem Keeps.of_ok {α : Type} {action : Run α} (keeps : Keeps R action) {machine later : Machine} {value : α}
    (done : action machine = .ok value later) : R machine later := by
  have kept := keeps machine
  rw [done] at kept
  exact kept

theorem Keeps.inScope {α : Type} {S T : Machine → Machine → Prop} {body : Run α} (keeps : Keeps S body) (label : String)
    (leaves : ∀ machine later, S (machine.enter label) later → T machine { later with memory := later.memory.exit.2 }) :
    Keeps T (Execution.inScope label body) := by
  intro machine
  have inside := keeps (machine.enter label)
  unfold Machine.enter at inside
  unfold Execution.inScope
  cases outcome : body { machine with memory := machine.memory.enter label } with
  | ok value later =>
    rw [outcome] at inside
    exact leaves machine later inside
  | error stop later =>
    rw [outcome] at inside
    exact leaves machine later inside

variable [Std.Refl R]

theorem Keeps.of_readsOnly {α : Type} {action : Run α} (reads : ReadsOnly action) : Keeps R action :=
  reads.mono fun machine _ same => same ▸ refl_of R machine

theorem Keeps.of_gives {α β : Type} {machine : Machine} {outcome : Eval α} {action : Run α} {next : α → Run β}
    (gives : Gives machine outcome action)
    (rest : ∀ value, outcome = .ok value → R machine (remaining (next value machine))) :
    R machine (remaining ((action >>= next) machine)) := by
  rw [Execution.bind_apply, gives]
  cases outcome with
  | ok value => exact rest value rfl
  | error stop => exact refl_of R machine

theorem Keeps.parts {tree : Tree} {stmt : Stmt}
    (assigned : ∀ target op value, stmt.kind = .assign target op value →
      Keeps R (Execution.assign tree target op value))
    (printed : ∀ line, Keeps R (Execution.printLine line stmt.span.start)) :
    Execution.Parts (fun {α} => @Keeps α R) tree stmt := by
  obtain ⟨kind, span⟩ := stmt
  cases kind with
  | assign target op value => exact assigned target op value rfl
  | forRange name range body => exact .of_readsOnly (Execution.loopBounds_readsOnly tree range)
  | whileLoop condition body => exact .of_readsOnly (Execution.holds_readsOnly tree condition)
  | branch condition thenBody elseBody => exact .of_readsOnly (Execution.holds_readsOnly tree condition)
  | giveBack values => exact .of_readsOnly (Execution.valuesOf_readsOnly tree values)
  | print values => exact ⟨.of_readsOnly (Execution.valuesOf_readsOnly tree values), printed⟩
  | block _ | breakLoop | continueLoop => trivial

variable [IsTrans Machine R]

theorem Keeps.closed (own : ∀ {α : Type} {body : Run α} (label : String), Keeps R body →
      Keeps R (Execution.inScope label body))
    (counter : ∀ name number, Keeps R (Execution.bind name (.int number))) :
    Execution.Closed fun {α} => @Keeps α R where
  pure := Keeps.pure
  unfinished := Keeps.throw .unfinished
  bind := Keeps.bind
  inScope := own
  counter := counter

theorem Keeps.printLine (written : ∀ machine sink, R machine { machine with sink }) (line : String)
    (position : Position) : Keeps R (Execution.printLine line position) := by
  apply Keeps.bind
  · exact fun machine => written machine _
  · intro complete
    cases complete with
    | true => exact .pure ()
    | false => exact .throw _

theorem Sequenced.keeps {statement : StmtId → Run Flow} {ids : List StmtId} {machine after : Machine} {id : StmtId}
    (each : ∀ id ∈ ids, Keeps R (statement id)) (sequenced : Sequenced statement ids machine id after) :
    id ∈ ids ∧ R machine after := by
  induction sequenced with
  | first => exact ⟨List.mem_cons_self, refl_of R _⟩
  | next done _ ih =>
    obtain ⟨member, kept⟩ := ih fun other member => each other (List.mem_cons_of_mem _ member)
    exact ⟨List.mem_cons_of_mem _ member, trans_of R ((each _ List.mem_cons_self).of_ok done) kept⟩

omit [Std.Refl R] in
theorem Counted.keeps {name : String} {body : Run Flow} {count : Nat} {number : Int64} {machine after : Machine}
    (counter : ∀ number, Keeps R (Execution.bind name (.int number))) (each : Keeps R body)
    (counted : Counted name body count number machine after) : R machine after := by
  induction counted with
  | first => exact counter _ _
  | next done _ _ ih => exact trans_of R (counter _ _) (trans_of R (each.of_ok done) ih)

theorem Tested.keeps {condition : Run Bool} {body : Run Flow} {steps : Nat} {machine after : Machine}
    (tested : Keeps R condition) (each : Keeps R body) (comes : Tested condition body steps machine after) :
    R machine after := by
  induction comes with
  | first => exact refl_of R _
  | next holds done _ _ ih => exact trans_of R (tested.of_ok holds) (trans_of R (each.of_ok done) ih)

end

section

variable {R : Machine → Machine → Prop} [Std.Refl R] [IsTrans Machine R] {tree : Tree}
  (closed : Execution.Closed fun {α} => @Keeps α R)
  (parts : ∀ id stmt, tree.Reachable id → tree.stmt? id = some stmt → Execution.Parts (fun {α} => @Keeps α R) tree stmt)
  (enters : ∀ machine label, R machine (Machine.enter machine label))
include closed parts enters

/-- Whatever a run of a statement comes to is in the program, and the machine there is related to that at the start. -/
theorem Moment.keeps {steps : Nat} {id last : StmtId} {machine after : Machine} (reachable : tree.Reachable id)
    (moment : Moment tree steps id machine last after) : tree.Reachable last ∧ R machine after := by
  have within {id body : StmtId} {stmt : Stmt} {kind : StmtKind} (reachable : tree.Reachable id)
      (found : tree.stmt? id = some stmt) (known : stmt.kind = kind) (member : body ∈ kind.bodies) :
      tree.Reachable body :=
    .inside reachable ⟨kind, known ▸ Tree.stmtKind?_of_stmt? found, member⟩
  -- on the way to a body are reads, at most one new scope and the rounds or statements before
  induction moment with
  | here => exact ⟨reachable, refl_of R _⟩
  | @block steps id _ _ _ _ _ _ body found known sequenced _ ih =>
    have inside : ∀ next ∈ body, tree.Reachable next := fun next member => within reachable found known member
    obtain ⟨member, first⟩ := sequenced.keeps fun next member => execute_walk closed parts steps (inside next member)
    obtain ⟨later, second⟩ := ih (inside _ member)
    exact ⟨later, trans_of R first second⟩
  | forRange found known bounds counted _ ih =>
    have inside := within reachable found known List.mem_cons_self
    have part := parts _ _ reachable found
    simp only [Execution.Parts, known] at part
    have first := trans_of R (part.of_ok bounds) (enters _ "loop")
    have second := counted.keeps (closed.counter _) (execute_walk closed parts _ inside)
    obtain ⟨later, third⟩ := ih inside
    exact ⟨later, trans_of R first (trans_of R second third)⟩
  | test found known tested =>
    have inside := within reachable found known List.mem_cons_self
    have part := parts _ _ reachable found
    simp only [Execution.Parts, known] at part
    exact ⟨reachable, trans_of R (enters _ "loop") (tested.keeps part (execute_walk closed parts _ inside))⟩
  | whileLoop found known tested holds _ ih =>
    have inside := within reachable found known List.mem_cons_self
    have part := parts _ _ reachable found
    simp only [Execution.Parts, known] at part
    have first := trans_of R (enters _ "loop") (tested.keeps part (execute_walk closed parts _ inside))
    obtain ⟨later, second⟩ := ih inside
    exact ⟨later, trans_of R first (trans_of R (part.of_ok holds) second)⟩
  | choice found known => exact ⟨reachable, enters _ _⟩
  | thenBody found known holds _ ih =>
    have part := parts _ _ reachable found
    simp only [Execution.Parts, known] at part
    obtain ⟨later, second⟩ := ih (within reachable found known List.mem_cons_self)
    exact ⟨later, trans_of R (enters _ "if") (trans_of R (part.of_ok holds) second)⟩
  | elseBody found known holds _ ih =>
    have part := parts _ _ reachable found
    simp only [Execution.Parts, known] at part
    obtain ⟨later, second⟩ := ih (within reachable found known (List.mem_cons_of_mem _ List.mem_cons_self))
    exact ⟨later, trans_of R (enters _ "if") (trans_of R (part.of_ok holds) second)⟩

theorem Tree.RunsTo.keeps {steps : Nat} {sink : Sink} {id : StmtId} {machine : Machine}
    (runs : tree.RunsTo steps sink id machine) : tree.Reachable id ∧ R { sink } machine := by
  obtain ⟨first, between, sequenced, moment⟩ := runs
  obtain ⟨member, before⟩ := sequenced.keeps fun top member => execute_walk closed parts steps (.program member)
  obtain ⟨reachable, after⟩ := moment.keeps closed parts enters (.program member)
  exact ⟨reachable, trans_of R before after⟩

end

end MatrixScript
