import MatrixScript.Proofs.Evaluation.Walk
import MatrixScript.Proofs.Scope.Memory

/-! The scope discipline of a run.

However a statement ends, it has left every scope that it entered, and new names are only in the scope where it was
started. A body that runs in a scope of its own writes to the frames around it and adds no name to them.
-/

set_option autoImplicit false

namespace MatrixScript

namespace Memory

variable {α : Type}

def SameNames (before after : Memory α) : Prop :=
  after.frames.map Frame.names = before.frames.map Frame.names

/-- The innermost frame may have got new names, and the others have the names they had. -/
structure Widens (before after : Memory α) : Prop where
  outer : after.outer.map Frame.names = before.outer.map Frame.names
  innermost : before.innermost.names ⊆ after.innermost.names

theorem SameNames.refl (memory : Memory α) : memory.SameNames memory := rfl

theorem SameNames.widens {before after : Memory α} (same : before.SameNames after) : before.Widens after := by
  obtain ⟨innermost, outer⟩ := List.cons.inj same
  exact ⟨outer, innermost ▸ List.Subset.refl _⟩

namespace Widens

theorem refl (memory : Memory α) : memory.Widens memory := (SameNames.refl memory).widens

theorem trans {first second third : Memory α} (earlier : first.Widens second) (later : second.Widens third) :
    first.Widens third where
  outer := later.outer.trans earlier.outer
  innermost := List.Subset.trans earlier.innermost later.innermost

theorem depth {before after : Memory α} (widens : before.Widens after) : after.depth = before.depth := by
  have count := congrArg List.length widens.outer
  simpa [Memory.depth] using count

theorem bind (memory : Memory α) (name : String) (value : α) : memory.Widens (memory.bind name value) := by
  have names := memory.names_bind name value
  split at names
  · exact SameNames.widens names
  · -- only a new name is added, and the innermost frame gets it
    obtain ⟨innermost, outer⟩ := List.cons.inj names
    exact ⟨outer, innermost ▸ List.subset_cons_self _ _⟩

theorem exit {memory later : Memory α} {label : String} (widens : (memory.enter label).Widens later) :
    memory.SameNames later.exit.2 := by
  have names : later.outer.map Frame.names = memory.frames.map Frame.names := widens.outer
  cases outer : later.outer with
  | nil => simp [outer, frames] at names
  | cons frame rest =>
    unfold SameNames
    rw [later.frames_exit outer, names]

end Widens

end Memory

/-- Statements that run their bodies in a scope of their own. -/
inductive StmtKind.Scoped : StmtKind → Prop where
  | forRange (name : String) (range : ExprId) (body : StmtId) : Scoped (.forRange name range body)
  | whileLoop (condition : ExprId) (body : StmtId) : Scoped (.whileLoop condition body)
  | branch (condition : ExprId) (thenBody : StmtId) (elseBody : Option StmtId) :
      Scoped (.branch condition thenBody elseBody)

def Machine.Widens (before after : Machine) : Prop := before.memory.Widens after.memory

def Machine.SameNames (before after : Machine) : Prop := before.memory.SameNames after.memory

instance : Std.Refl Machine.Widens := ⟨fun machine => .refl machine.memory⟩

instance : IsTrans Machine Machine.Widens := ⟨fun _ _ _ => .trans⟩

instance : Std.Refl Machine.SameNames := ⟨fun machine => .refl machine.memory⟩

namespace Execution

theorem bind_widens (name : String) (value : Value) : Keeps Machine.Widens (Execution.bind name value) :=
  fun machine => .bind machine.memory name value

theorem inScope_sameNames {α : Type} {body : Run α} (widens : Keeps Machine.Widens body) (label : String) :
    Keeps Machine.SameNames (inScope label body) :=
  widens.inScope label fun _ _ inside => inside.exit

theorem changeAt_widens (position : Position) (name : String) (change : Change Fault Value Unit) :
    Keeps Machine.Widens (changeAt position name change) := by
  have reads : ReadsOnly (readVariable name) := fun _ => rfl
  refine Keeps.after_reading reads fun found => ?_
  cases found with
  | none => exact .throw _
  | some current =>
    dsimp only
    cases change current with
    | ok value updated => exact bind_widens name updated
    | error fault left => exact (bind_widens name left).bind fun _ => .throw _

section

variable (tree : Tree)

theorem assignTo_widens (target : ExprId) (value : Value) : Keeps Machine.Widens (assignTo tree target value) := by
  unfold assignTo
  split
  · exact bind_widens _ value
  · split
    · exact .after_reading (selectors_readsOnly tree _) fun selected => changeAt_widens _ _ _
    · exact .throw _
  · exact .throw _

theorem assign_widens (target : ExprId) (op : Assign) (value : ExprId) :
    Keeps Machine.Widens (assign tree target op value) := by
  refine Keeps.after_reading (valueOf_readsOnly tree value) fun right => ?_
  cases op with
  | plain => exact assignTo_widens tree target right
  | compound op =>
    refine Keeps.after_reading (valueOf_readsOnly tree target) fun left => ?_
    exact .after_reading (locate_readsOnly _ _) fun combined => assignTo_widens tree target combined

end

/-- However many rounds a loop makes and however the last one ends, it only adds names to its own frame: its counter is
one more name there. -/
theorem widens_closed : Closed fun {α} => @Keeps α Machine.Widens :=
  Keeps.closed (fun label widens => (inScope_sameNames widens label).mono fun _ _ same => same.widens) fun name _ =>
    bind_widens name _

section

variable (tree : Tree) {statement : StmtId → Run Flow} (each : ∀ id, Keeps Machine.Widens (statement id)) (steps : Nat)
  {stmt : Stmt}
include each

theorem node_sameNames (own : stmt.kind.Scoped) : Keeps Machine.SameNames (node tree statement steps stmt) := by
  obtain ⟨kind, span⟩ := stmt
  cases own with
  | forRange name range body =>
    refine Keeps.after_reading (loopBounds_readsOnly tree range) fun bounds => ?_
    exact inScope_sameNames (widens_closed.counted (each body) name _ _) "loop"
  | whileLoop condition body =>
    have tested : Keeps Machine.Widens (holds tree condition) := .of_readsOnly (holds_readsOnly tree condition)
    exact inScope_sameNames (widens_closed.repeated tested (each body) steps) "loop"
  | branch condition thenBody elseBody =>
    refine inScope_sameNames (Keeps.after_reading (holds_readsOnly tree condition) fun truth => ?_) "if"
    cases truth with
    | true => exact each thenBody
    | false =>
      cases elseBody with
      | some body => exact each body
      | none => exact .pure _

end

end Execution

theorem execute_widens (tree : Tree) (steps : Nat) (id : StmtId) : Keeps Machine.Widens (execute tree steps id) := by
  induction steps generalizing id with
  | zero => exact .throw _
  | succ steps ih =>
    unfold execute
    cases tree.stmt? id with
    | none => exact .throw _
    | some stmt =>
      refine Execution.widens_closed.node steps ?parts fun body _ => ih body
      refine Keeps.parts (fun target op value _ => ?_) fun line => ?_
      · exact Execution.assign_widens tree target op value
      · exact Keeps.printLine (fun machine _ => .refl machine.memory) line _

/-- However a statement ends, the scopes are those it was started in. The frames around the innermost one have the names
they had and the innermost one has lost none, and where a body has a scope of its own, that one has none added. -/
theorem execute_keeps_scopes (tree : Tree) (steps : Nat) (id : StmtId) (machine : Machine) :
    (remaining (execute tree steps id machine)).memory.depth = machine.memory.depth ∧
      machine.memory.Widens (remaining (execute tree steps id machine)).memory ∧
      ∀ stmt, tree.stmt? id = some stmt → stmt.kind.Scoped →
        machine.memory.SameNames (remaining (execute tree steps id machine)).memory := by
  have widens := execute_widens tree steps id machine
  refine ⟨widens.depth, widens, fun stmt found own => ?_⟩
  cases steps with
  | zero => exact .refl machine.memory
  | succ steps =>
    unfold execute
    rw [found]
    exact Execution.node_sameNames tree (execute_widens tree steps) steps own machine

/-- The counter `i` and the name `x`, which a round of the loop binds, are gone after it. -/
theorem counted_keeps_scopes :
    let here : Span := ⟨⟨1, 1⟩, ⟨1, 1⟩⟩
    let tree : Tree := {
      exprs := #[⟨.int 0, here⟩, ⟨.int 3, here⟩, ⟨.range ⟨0⟩ ⟨1⟩, here⟩, ⟨.name "x", here⟩, ⟨.name "i", here⟩]
      stmts := #[⟨.assign ⟨3⟩ .plain ⟨4⟩, here⟩, ⟨.forRange "i" ⟨2⟩ ⟨0⟩, here⟩] }
    (remaining (execute tree 2 ⟨1⟩ {})).memory.frames.map Frame.names = [[]] := by
  intro here tree
  exact (execute_keeps_scopes tree 2 ⟨1⟩ {}).2.2 _ rfl (.forRange _ _ _)

end MatrixScript
