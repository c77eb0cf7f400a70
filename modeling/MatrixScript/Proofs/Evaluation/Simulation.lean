import Mathlib.Data.List.Induction
import MatrixScript.Proofs.Evaluation.Moments
import MatrixScript.Proofs.Evaluation.Outcome
import MatrixScript.Proofs.Typing.Statement

/-! A run stays in agreement with what the checker declared.

What one statement does with its own expressions is taken as given here, and what it needs to do is said once.
Everything else follows from the scopes: a body is run in a frame of its own, any number of times, and left in any
way, while the checker went through it once.
-/

set_option autoImplicit false

namespace MatrixScript

open Typing

section

variable (tree : Tree) (Fits : ExprId → Value → Prop) (Allowed : Fault → Prop)

/-- The expressions of a statement do what the checker took them for, and an assignment keeps the memory in
agreement. Assigning to a name of an outer scope must not change what fits it. -/
def Sound (checker : Checker) (stmt : Stmt) : Prop :=
  match stmt.kind with
  | .assign target op value =>
    let after := (checkAssignment tree stmt.span.start.line target op value checker).2
    Within Fits checker.declared after.declared ∧
      ∀ machine, Agrees Fits checker.declared machine.memory →
        Ends Allowed (fun _ later => Agrees Fits after.declared later.memory)
          (Execution.assign tree target op value machine)
  | .forRange name range _ =>
    checker.declared.lookup? name = none ∧
      (∃ start stop, tree.kind? range = some (.range start stop) ∧ ∀ counter, Fits start (.int counter)) ∧
      ∀ machine, Shows Fits checker.declared machine.memory →
        Ends Allowed (fun _ later => later = machine) (Execution.loopBounds tree range machine)
  | .whileLoop condition _ | .branch condition _ _ =>
    ∀ machine, Shows Fits checker.declared machine.memory →
      Ends Allowed (fun _ later => later = machine) (Execution.holds tree condition machine)
  | .giveBack values | .print values =>
    ∀ machine, Shows Fits checker.declared machine.memory →
      Ends Allowed (fun _ later => later = machine) (Execution.valuesOf tree values machine)
  | .block _ | .breakLoop | .continueLoop => True

structure SoundProgram : Prop where
  statement : ∀ {depth id checker stmt}, Visited tree depth id checker → tree.stmt? id = some stmt →
    Sound tree Fits Allowed checker stmt
  output : ∀ reason, Allowed (.output reason)

end

section

variable {Fits : ExprId → Value → Prop}

theorem forM_within {statement : StmtId → Check Unit} {checker : Checker} {ids : List StmtId}
    (each : ∀ before next after, ids = before ++ next :: after →
      Within Fits (before.forM statement checker).2.declared
        (statement next (before.forM statement checker).2).2.declared)
    {before after : List StmtId} (split : ids = before ++ after) :
    Within Fits checker.declared (before.forM statement checker).2.declared := by
  induction before using List.reverseRecOn generalizing after with
  | nil => exact .refl _
  | append_singleton before next ih =>
    rw [List.append_assoc, List.singleton_append] at split
    rw [forM_append]
    exact (ih split).trans (each before next after split)

end

section

variable {program : Program} {Fits : ExprId → Value → Prop} {Allowed : Fault → Prop} {depth : Nat} {id : StmtId}
  {checker : Checker} {span : Span}

def InnerWithin (tree : Tree) (Fits : ExprId → Value → Prop) (depth : Nat) (stmt : Stmt) (checker : Checker) : Prop :=
  ∀ next later, Enters tree depth stmt checker next later →
    Within Fits later.declared (checkWithin tree depth next later).2.declared

variable (accepted : Accepted program) (visited : Visited program.tree (depth + 1) id checker)
include accepted visited

theorem forRange_around {name : String} {range : ExprId} {body : StmtId}
    (sound : Sound program.tree Fits Allowed checker ⟨.forRange name range body, span⟩)
    (found : program.tree.stmt? id = some ⟨.forRange name range body, span⟩)
    (inner : InnerWithin program.tree Fits depth ⟨.forRange name range body, span⟩ checker) :
    Around Fits checker.declared (checkWithin program.tree (depth + 1) id checker).2.declared := by
  obtain ⟨lo, hi, sits⟩ := accepted.sits visited
  obtain ⟨new, ⟨start, stop, node, _⟩, _⟩ := sound
  have within := inner _ _ (.forRange rfl)
  rw [checkWithin_apply found, checkNode_forRange]
  simp only at within
  rw [sits.counter_declared found node new] at within
  exact Within.around ((Within.declare_push new "loop" start).trans within)

theorem while_around {condition : ExprId} {body : StmtId}
    (found : program.tree.stmt? id = some ⟨.whileLoop condition body, span⟩)
    (inner : InnerWithin program.tree Fits depth ⟨.whileLoop condition body, span⟩ checker) :
    Around Fits checker.declared (checkWithin program.tree (depth + 1) id checker).2.declared := by
  obtain ⟨lo, hi, sits⟩ := accepted.sits visited
  have around := Within.around (inner _ _ (.whileLoop rfl))
  rw [checkWithin_apply found, checkNode_whileLoop]
  rw [sits.while_declared found] at around
  exact around

theorem then_around {condition : ExprId} {thenBody : StmtId} {elseBody : Option StmtId}
    (found : program.tree.stmt? id = some ⟨.branch condition thenBody elseBody, span⟩)
    (inner : InnerWithin program.tree Fits depth ⟨.branch condition thenBody elseBody, span⟩ checker) :
    Around Fits checker.declared (leave 0 (checkWithin program.tree depth thenBody
      (enter "if" 0 (checkCondition program.tree condition checker).2)).2).declared := by
  obtain ⟨lo, hi, sits⟩ := accepted.sits visited
  have around := Within.around (inner _ _ (.thenBody rfl))
  rw [sits.branch_declared found] at around
  exact around

theorem branch_around {condition : ExprId} {thenBody : StmtId} {elseBody : Option StmtId}
    (found : program.tree.stmt? id = some ⟨.branch condition thenBody elseBody, span⟩)
    (inner : InnerWithin program.tree Fits depth ⟨.branch condition thenBody elseBody, span⟩ checker) :
    Around Fits checker.declared (checkWithin program.tree (depth + 1) id checker).2.declared := by
  have first := then_around accepted visited found inner
  rw [checkWithin_apply found]
  cases elseBody with
  | none => exact first
  | some elseBody =>
    have second := Within.around (inner _ _ (.elseBody rfl))
    exact first.trans second

end

section

variable {program : Program} {Fits : ExprId → Value → Prop} {Allowed : Fault → Prop} {depth : Nat} {id : StmtId}
  {checker : Checker}

theorem Accepted.within (accepted : Accepted program) (sound : SoundProgram program.tree Fits Allowed)
    (visited : Visited program.tree depth id checker) :
    Within Fits checker.declared (checkWithin program.tree depth id checker).2.declared := by
  induction depth generalizing id checker with
  | zero =>
    obtain ⟨lo, hi, sits⟩ := accepted.sits visited
    exact absurd sits.deep (Nat.not_lt_zero _)
  | succ depth ih =>
    obtain ⟨lo, hi, sits⟩ := accepted.sits visited
    obtain ⟨⟨kind, span⟩, found⟩ := sits.found
    have safe := sound.statement visited found
    have inner : InnerWithin program.tree Fits depth ⟨kind, span⟩ checker :=
      fun next later enters => ih (.inside visited found enters)
    -- an assignment declares names in the scope itself, a block does so through its statements, and nothing else does
    cases kind with
    | block ids =>
      rw [checkWithin_apply found]
      have whole : ids = ids ++ [] := (List.append_nil ids).symm
      refine forM_within (fun before next after split => ?_) whole
      exact inner _ _ (.block (congrArg StmtKind.block split))
    | assign target op value =>
      rw [checkWithin_apply found]
      exact safe.1
    | forRange name range body => exact (forRange_around accepted visited safe found inner).within
    | whileLoop condition body => exact (while_around accepted visited found inner).within
    | branch condition thenBody elseBody => exact (branch_around accepted visited found inner).within
    | breakLoop | continueLoop =>
      rw [checkWithin_apply found]
      exact .of_eq (stray_declared _ _ _)
    | giveBack values =>
      rw [checkWithin_apply found]
      exact .of_eq (sits.values_declared found (.inl rfl))
    | print values =>
      rw [checkWithin_apply found]
      exact .of_eq (sits.values_declared found (.inr rfl))

end

end MatrixScript
