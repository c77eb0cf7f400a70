import MatrixScript.Proofs.Evaluation.Steps
import MatrixScript.Proofs.Value.Writing

/-! Failed statements leave no trace.

Whatever is read in front of a change leaves the machine as it is, and the change itself writes nothing when it fails.
Only a line that does not fit into the output has been written in part.
-/

set_option autoImplicit false

namespace MatrixScript

/-- Whenever the action fails, this holds of the failure and of the machine that is left behind. -/
def Fails {α : Type} (Post : Stop → Machine → Prop) (action : Run α) (machine : Machine) : Prop :=
  ∀ stop later, action machine = .error stop later → Post stop later

namespace Fails

variable {α β : Type} {Post : Stop → Machine → Prop} {action : Run α} {machine : Machine}

theorem pure (value : α) : Fails Post (pure value) machine := nofun

theorem fail (position : Position) (fault : Fault) (post : Post (.failed ⟨fault, position⟩) machine) :
    Fails Post (Execution.fail position fault : Run α) machine := by
  intro stop later failed
  cases failed
  exact post

theorem after_reading {next : α → Run β} (reads : ReadsOnly action) (unchanged : ∀ stop, Post stop machine)
    (rest : ∀ value, Fails Post (next value) machine) : Fails Post (action >>= next) machine := by
  intro stop later failed
  rcases reads.bind_cases next machine with ⟨value, same⟩ | ⟨stopped, same⟩
  · rw [same] at failed
    exact rest value stop later failed
  · rw [same] at failed
    cases failed
    exact unchanged stop

theorem giving (fails : Fails Post action machine) (result : α → β) :
    Fails Post (action >>= fun value => Pure.pure (result value)) machine := by
  intro stop later failed
  rw [Execution.bind_apply] at failed
  cases outcome : action machine with
  | ok value between =>
    rw [outcome] at failed
    cases failed
  | error stopped between =>
    rw [outcome] at failed
    cases failed
    exact fails stop later outcome

end Fails

abbrev LeavesNoTrace {α : Type} (action : Run α) (machine : Machine) : Prop :=
  Fails (fun _ later => later = machine) action machine

abbrev LeavesNoTraceUnlessFull {α : Type} (action : Run α) (machine : Machine) : Prop :=
  Fails (fun stop later => (∀ reason position, stop ≠ .failed ⟨.output reason, position⟩) → later = machine) action
    machine

namespace Execution

variable {machine : Machine}

/-- A variable holds what an atomic change makes of it. When the change fails, the variable is bound again to what it
held. -/
theorem changeAt_eq_result {name : String} {current : Value} {change : Change Fault Value Unit}
    (read : machine.memory.read? name = some current) (atomic : change.Atomic current) (position : Position) :
    changeAt position name change machine =
      match change.result current with
      | .ok updated => .ok () { machine with memory := machine.memory.bind name updated }
      | .error fault => .error (.failed ⟨fault, position⟩) machine := by
  rw [changeAt_apply read, Change.result]
  cases done : change current with
  | ok value updated => rfl
  | error fault left =>
    simp only
    rw [atomic fault left done, machine.memory.bind_read? read]

theorem changeAt_leavesNoTrace {change : Change Fault Value Unit} (atomic : ∀ current, change.Atomic current)
    (position : Position) (name : String) : LeavesNoTrace (changeAt position name change) machine := by
  intro stop later failed
  cases read : machine.memory.read? name with
  | none =>
    have absent : changeAt position name change machine = .error (.failed ⟨.undefined name, position⟩) machine := by
      rw [changeAt, bind_apply, readVariable_apply, read]
      rfl
    rw [absent] at failed
    cases failed
    rfl
  | some current =>
    rw [changeAt_eq_result read (atomic current)] at failed
    cases done : change.result current with
    | ok updated =>
      rw [done] at failed
      cases failed
    | error fault =>
      rw [done] at failed
      cases failed
      rfl

variable (tree : Tree)

theorem assignTo_leavesNoTrace (target : ExprId) (value : Value) :
    LeavesNoTrace (assignTo tree target value) machine := by
  unfold assignTo
  split
  · exact nofun
  · split
    · refine Fails.after_reading (selectors_readsOnly tree _) (fun _ => rfl) fun selected => ?_
      exact changeAt_leavesNoTrace (Value.writeInto_atomic selected value) _ _
    · exact .fail _ _ rfl
  · exact .fail _ _ rfl

/-- Both sides are evaluated and combined before anything is written. -/
theorem assign_leavesNoTrace (target : ExprId) (op : Assign) (value : ExprId) :
    LeavesNoTrace (assign tree target op value) machine := by
  refine Fails.after_reading (valueOf_readsOnly tree value) (fun _ => rfl) fun right => ?_
  cases op with
  | plain => exact assignTo_leavesNoTrace tree target right
  | compound op =>
    refine Fails.after_reading (valueOf_readsOnly tree target) (fun _ => rfl) fun left => ?_
    refine Fails.after_reading (locate_readsOnly _ _) (fun _ => rfl) fun combined => ?_
    exact assignTo_leavesNoTrace tree target combined

theorem printLine_leavesNoTrace (line : String) (position : Position) :
    LeavesNoTraceUnlessFull (printLine line position) machine := by
  intro stop later failed other
  change (if (machine.sink.write (line ++ "\n")).1 then pure () else
    fail position (.output "sink is full") : Run Unit)
      { machine with sink := (machine.sink.write (line ++ "\n")).2 } = .error stop later at failed
  split at failed
  · cases failed
  · cases failed
    exact absurd rfl (other _ _)

variable (statement : StmtId → Run Flow) (steps : Nat) {stmt : Stmt}

theorem node_assign_leavesNoTrace {target value : ExprId} {op : Assign} (kind : stmt.kind = .assign target op value) :
    LeavesNoTrace (node tree statement steps stmt) machine := by
  unfold node
  rw [kind]
  exact (assign_leavesNoTrace tree target op value).giving fun _ => Flow.normal

theorem node_print_leavesNoTrace {values : List ExprId} (kind : stmt.kind = .print values) :
    LeavesNoTraceUnlessFull (node tree statement steps stmt) machine := by
  unfold node
  rw [kind]
  refine Fails.after_reading (valuesOf_readsOnly tree values) (fun _ _ => rfl) fun shown => ?_
  exact (printLine_leavesNoTrace _ _).giving fun _ => Flow.normal

theorem node_giveBack_leavesNoTrace {values : List ExprId} (kind : stmt.kind = .giveBack values) :
    LeavesNoTraceUnlessFull (node tree statement steps stmt) machine := by
  unfold node
  rw [kind]
  exact .after_reading (valuesOf_readsOnly tree values) (fun _ _ => rfl) fun shown => .pure _

end Execution

/-- The machine is as it was after an expression, after an assignment that failed, and after a line or a result that
failed before any of it was written. -/
theorem failures_leave_no_trace (tree : Tree) (machine : Machine) :
    (∀ id, remaining (Execution.valueOf tree id machine) = machine) ∧
      (∀ steps id stmt, tree.stmt? id = some stmt →
        (∀ target op value, stmt.kind = .assign target op value → LeavesNoTrace (execute tree steps id) machine) ∧
        (∀ values, stmt.kind = .print values ∨ stmt.kind = .giveBack values →
          LeavesNoTraceUnlessFull (execute tree steps id) machine)) := by
  refine ⟨fun id => (Execution.valueOf_readsOnly tree id machine).symm, fun steps id stmt found => ?_⟩
  cases steps with
  | zero =>
    -- without a step nothing is done
    refine ⟨fun _ _ _ _ stop later failed => ?_, fun _ _ stop later failed _ => ?_⟩
    · cases failed
      rfl
    · cases failed
      rfl
  | succ steps =>
    rw [execute, found]
    refine ⟨fun target op value kind => Execution.node_assign_leavesNoTrace tree _ steps kind, fun values kind => ?_⟩
    rcases kind with kind | kind
    · exact Execution.node_print_leavesNoTrace tree _ steps kind
    · exact Execution.node_giveBack_leavesNoTrace tree _ steps kind

/-- `a[9] = 7` for a row of two numbers, and `print b` without a `b`. -/
theorem outside_leaves_no_trace :
    let here : Span := ⟨⟨1, 1⟩, ⟨1, 1⟩⟩
    let tree : Tree := {
      exprs := #[⟨.name "a", here⟩, ⟨.int 9, here⟩, ⟨.indexed ⟨0⟩ [⟨1⟩], here⟩, ⟨.int 7, here⟩, ⟨.name "b", here⟩]
      stmts := #[⟨.assign ⟨2⟩ .plain ⟨3⟩, here⟩, ⟨.print [⟨4⟩], here⟩] }
    let machine : Machine := { memory := Memory.start.bind "a" (.matrix ⟨1, 2, .ints #[4, 5]⟩) }
    (∃ stop later, execute tree 1 ⟨0⟩ machine = .error stop later ∧ later = machine) ∧
      ∃ stop later, execute tree 1 ⟨1⟩ machine = .error stop later ∧ later = machine := by
  intro here tree machine
  have untouched := (failures_leave_no_trace tree machine).2 1
  refine ⟨⟨_, _, rfl, ?_⟩, ⟨_, _, rfl, ?_⟩⟩
  · exact (untouched ⟨0⟩ _ rfl).1 _ _ _ rfl _ _ rfl
  · exact (untouched ⟨1⟩ _ rfl).2 _ (.inl rfl) _ _ rfl nofun

end MatrixScript
