import MatrixScript.Proofs.Typing.Containment
import MatrixScript.Proofs.Typing.Ledger

/-! What an accepted program stores.

The checker comes to every statement of a program, and it refuses to store a condition under a name. A comparison is
always recorded as a condition, so no statement of an accepted program stores the value of one.
-/

set_option autoImplicit false

namespace MatrixScript

namespace Typing

section

variable {tree : Tree} {types : StaticTypes} {lo hi : Mark} {depth : Nat} {id : StmtId} {checker : Checker}

theorem enters_of_body {stmt : Stmt} {body : StmtId} (member : body ∈ stmt.kind.bodies) (depth : Nat)
    (checker : Checker) : ∃ later, Enters tree depth stmt checker body later := by
  obtain ⟨kind, span⟩ := stmt
  cases kind with
  | block ids =>
    obtain ⟨before, after, split⟩ := List.append_of_mem member
    exact ⟨_, .block (congrArg StmtKind.block split)⟩
  | forRange name range inner =>
    cases List.mem_singleton.mp member
    exact ⟨_, .forRange rfl⟩
  | whileLoop condition inner =>
    cases List.mem_singleton.mp member
    exact ⟨_, .whileLoop rfl⟩
  | branch condition thenBody elseBody =>
    rcases List.mem_cons.mp member with rfl | member
    · exact ⟨_, .thenBody rfl⟩
    · cases Option.mem_toList.mp member
      exact ⟨_, .elseBody rfl⟩
  | assign _ _ _ | breakLoop | continueLoop | giveBack _ | print _ => cases member

theorem Sits.stored (sits : Sits tree types lo hi (depth + 1) id checker) {target value : ExprId} {span : Span}
    {name : String} (found : tree.stmt? id = some ⟨.assign target .plain value, span⟩)
    (node : tree.kind? target = some (.name name)) : ∃ type, types.get? value = some type ∧ type.tag ≠ .bool := by
  obtain ⟨mid, a, b, first, second⟩ := sits.parts found
  obtain ⟨_, produced⟩ := second.node
  have quiet := sits.quiet
  have kept := sits.kept
  have typing := (typeOf_mirrors second).toFills.extended checker sits.ready.recorded
  have later : Advances (typeOf tree value checker).2
      (checkAssignment tree span.start.line target .plain value checker).2 :=
    (checkAssignment_ready first second sits.ready).1
  rw [checkWithin_apply found] at quiet kept
  -- the value has its type for good when the checker looks at the name, and it finds nothing there
  have rest : (typeOf tree value checker).2.Quiet
      (checkAssignment tree span.start.line target .plain value checker).2 :=
    (quiet.split typing.findings later.findings).2
  refine ⟨_, (later.types.trans kept) value _ (typeOf_held produced checker), fun condition => ?_⟩
  rw [checkAssignment_name node, assignName_plain, if_pos (.inl condition)] at rest
  exact Checker.Quiet.not_report rest

end

end Typing

open Typing

section

variable {program : Program} {id : StmtId}

theorem Accepted.visited (accepted : Accepted program) (reachable : program.tree.Reachable id) :
    ∃ depth checker, Visited program.tree depth id checker := by
  induction reachable with
  | program member =>
    obtain ⟨before, after, split⟩ := List.append_of_mem member
    exact ⟨_, _, .program split⟩
  | inside _ encloses ih =>
    obtain ⟨depth, checker, visited⟩ := ih
    obtain ⟨lo, hi, sits⟩ := accepted.sits visited
    obtain ⟨less, rfl⟩ := sits.deeper
    obtain ⟨kind, node, member⟩ := encloses
    obtain ⟨span, found⟩ := stmt?_of_kind node
    have member : _ ∈ (Stmt.mk kind span).kind.bodies := member
    obtain ⟨later, enters⟩ := enters_of_body member less checker
    exact ⟨less, later, .inside visited found enters⟩

theorem Accepted.compared (accepted : Accepted program) {value : ExprId} {type : StaticType} {kind : ExprKind}
    (typed : program.types.get? value = some type) (node : program.tree.kind? value = some kind)
    (compare : kind.isCompare) : type = .bool := by
  rw [accepted.types] at typed
  exact (Checker.after_inOrder program.tree [.program] value type typed).compared kind node compare

/-- No name is bound to a comparison as it is. -/
def Tree.StoresNoComparison (tree : Tree) : Prop :=
  ∀ id target value span name kind, tree.Reachable id → tree.stmt? id = some ⟨.assign target .plain value, span⟩ →
    tree.kind? target = some (.name name) → tree.kind? value = some kind → ¬kind.isCompare

theorem Accepted.storesNoComparison (accepted : Accepted program) : program.tree.StoresNoComparison := by
  intro id target value span name kind reachable found target_node value_node compare
  obtain ⟨depth, checker, visited⟩ := accepted.visited reachable
  obtain ⟨lo, hi, sits⟩ := accepted.sits visited
  obtain ⟨less, rfl⟩ := sits.deeper
  obtain ⟨type, typed, other⟩ := sits.stored found target_node
  cases accepted.compared typed value_node compare
  exact other rfl

end

end MatrixScript
