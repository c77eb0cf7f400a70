import MatrixScript.Proofs.Typing.Containment
import MatrixScript.Proofs.Typing.Walk

/-! What the checker says about signals outside of loops.

It counts the loops around the current statement. Typing expressions leaves this count alone and has nothing to say
about signals, so what is said about them comes from the statements alone: one finding for every signal that is reached
without entering a loop.
-/

set_option autoImplicit false

namespace MatrixScript

open Typing

def Checker.Stray (checker : Checker) : Prop := ∃ finding ∈ checker.findings, finding.problem.isStray

theorem Checker.stray_report (line : Nat) (problem : Problem) (checker : Checker) :
    (Check.report line problem checker).2.Stray ↔ checker.Stray ∨ problem.isStray := by
  simp only [Stray, Check.report_apply, Array.mem_push]
  constructor
  · rintro ⟨finding, known | rfl, stray⟩
    · exact .inl ⟨finding, known, stray⟩
    · exact .inr stray
  · rintro (⟨finding, known, stray⟩ | stray)
    · exact ⟨finding, .inl known, stray⟩
    · exact ⟨_, .inr rfl, stray⟩

namespace Typing

variable {α β : Type}

/-- An action ends at the loop depth where it started, and outside of every loop it finds a signal exactly when there is
one to be found. -/
structure Finds (leaks : Prop) (action : Check α) : Prop where
  loopDepth : ∀ checker, (action checker).2.loopDepth = checker.loopDepth
  stray : ∀ checker, (action checker).2.Stray ↔ checker.Stray ∨ checker.loopDepth = 0 ∧ leaks

abbrev Calm (action : Check α) : Prop := Finds False action

theorem Finds.congr {leaks leaks' : Prop} {action : Check α} (finds : Finds leaks action) (same : leaks ↔ leaks') :
    Finds leaks' action :=
  propext same ▸ finds

theorem Finds.bind {first second : Prop} {action : Check α} {next : α → Check β} (earlier : Finds first action)
    (later : ∀ value, Finds second (next value)) : Finds (first ∨ second) (action >>= next) where
  loopDepth checker := by rw [Check.bind_apply, (later _).loopDepth, earlier.loopDepth]
  stray checker := by
    rw [Check.bind_apply, (later _).stray, earlier.stray, earlier.loopDepth, or_assoc, ← and_or_left]

namespace Calm

theorem of_eq {action : Check α} (findings : ∀ checker, (action checker).2.findings = checker.findings)
    (loopDepth : ∀ checker, (action checker).2.loopDepth = checker.loopDepth) : Calm action where
  loopDepth := loopDepth
  stray checker := by simp [Checker.Stray, findings]

theorem pure (value : α) : Calm (Pure.pure value) := .of_eq (fun _ => rfl) fun _ => rfl

theorem get : Calm MonadState.get := .of_eq (fun _ => rfl) fun _ => rfl

theorem declared? (name : String) : Calm (Check.declared? name) := .of_eq (fun _ => rfl) fun _ => rfl

theorem declare (name : String) (producer : ExprId) : Calm (Check.declare name producer) :=
  .of_eq (fun _ => rfl) fun _ => rfl

theorem recorded? (id : ExprId) : Calm (Check.recorded? id) := .of_eq (fun _ => rfl) fun _ => rfl

theorem record (id : ExprId) (type : StaticType) : Calm (Check.record id type) := .of_eq (fun _ => rfl) fun _ => rfl

theorem report (line : Nat) {problem : Problem} (other : problem.isStray = false) :
    Calm (Check.report line problem) where
  loopDepth _ := rfl
  stray checker := by
    rw [checker.stray_report]
    simp [other]

theorem bind {action : Check α} {next : α → Check β} (first : Calm action) (second : ∀ value, Calm (next value)) :
    Calm (action >>= next) :=
  (Finds.bind first second).congr or_self_iff

theorem before {leaks : Prop} {action : Check α} {next : α → Check β} (first : Calm action)
    (second : ∀ value, Finds leaks (next value)) : Finds leaks (action >>= next) :=
  (Finds.bind first second).congr (iff_of_eq (false_or leaks))

theorem closed : Closed fun {α} => @Calm α :=
  ⟨pure, bind, get, declared?, declare, fun line => report line⟩

end Calm

theorem typeWithin_calm (tree : Tree) (depth : Nat) (id : ExprId) : Calm (typeWithin tree depth id) := by
  induction depth generalizing id with
  | zero => exact (Calm.recorded? id).bind fun _ => .pure _
  | succ depth ih =>
    refine (Calm.recorded? id).bind fun known => ?_
    cases known with
    | some type => exact .pure _
    | none =>
      dsimp only
      cases tree.expr? id with
      | none => exact .pure _
      | some expr => exact (infer_walk Calm.closed ih expr).bind fun type => .record id type

theorem typeOf_calm (tree : Tree) (id : ExprId) : Calm (typeOf tree id) := typeWithin_calm tree _ id

namespace Finds

variable {leaks : Prop} {body : Check Unit}

theorem inScope (finds : Finds leaks body) (label : String) : Finds leaks (Check.inScope label body) where
  loopDepth checker := finds.loopDepth (enter label 0 checker)
  stray checker := finds.stray (enter label 0 checker)

theorem inLoop (finds : Finds leaks body) : Calm (Check.inLoop body) where
  loopDepth checker := by
    have same := finds.loopDepth (enter "loop" 1 checker)
    change (body (enter "loop" 1 checker)).2.loopDepth - 1 = checker.loopDepth
    rw [same]
    rfl
  stray checker := by
    have inside := finds.stray (enter "loop" 1 checker)
    change (body (enter "loop" 1 checker)).2.Stray ↔ _
    -- the count is not zero inside, so what leaks from the body is not reported
    rw [inside]
    simp [enter, Checker.Stray]

theorem forM {ι : Type} {finding : ι → Prop} {action : ι → Check PUnit} {items : List ι}
    (each : ∀ item ∈ items, Finds (finding item) (action item)) :
    Finds (∃ item ∈ items, finding item) (items.forM action) := by
  induction items with
  | nil => exact (Calm.pure _).congr (by simp)
  | cons item rest ih =>
    have first := each item List.mem_cons_self
    have others := ih fun other member => each other (List.mem_cons_of_mem _ member)
    exact (first.bind fun _ => others).congr (by simp)

theorem signal (line : Nat) {problem : Problem} (stray : problem.isStray) :
    Finds True (do if (← get).loopDepth = 0 then Check.report line problem) where
  loopDepth checker := by
    change ((if checker.loopDepth = 0 then Check.report line problem else pure ()) checker).2.loopDepth = _
    split
    · rfl
    · rfl
  stray checker := by
    change ((if checker.loopDepth = 0 then Check.report line problem else pure ()) checker).2.Stray ↔ _
    split
    · next outside =>
      rw [checker.stray_report]
      simp [stray, outside]
    · next inside => simp [inside]

end Finds

section

variable {tree : Tree} {statement : StmtId → Check Unit} {stmt : Stmt}

/-- What is found in a statement is the signal that it is, or what is found right inside when it is no loop. -/
theorem checkNode_finds (each : ∀ body ∈ stmt.kind.bodies, Finds (tree.Leaks body) (statement body)) :
    Finds (stmt.kind.isSignal ∨ ¬stmt.kind.isLoop ∧ ∃ body ∈ stmt.kind.bodies, tree.Leaks body)
      (checkNode tree statement stmt) := by
  have tested (condition : ExprId) : Calm (checkCondition tree condition) :=
    checkCondition_walk Calm.closed (typeOf_calm tree) condition
  obtain ⟨kind, span⟩ := stmt
  cases kind with
  | block body => exact (Finds.forM each).congr (by simp [StmtKind.isSignal, StmtKind.isLoop, StmtKind.bodies])
  | assign target op value =>
    have assigned := checkAssignment_walk Calm.closed (typeOf_calm tree) span.start.line target op value
    exact assigned.congr (by simp [StmtKind.isSignal, StmtKind.bodies])
  | forRange name range body =>
    -- whatever the body would let out has its place in the loop
    have inside := each body List.mem_cons_self
    have loop : Calm (Check.inLoop do declareCounter tree span.start.line name range; statement body) :=
      ((declareCounter_walk Calm.closed _ name range).before fun _ => inside).inLoop
    exact ((typeOf_calm tree range).bind fun _ => loop).congr (by simp [StmtKind.isSignal, StmtKind.isLoop])
  | whileLoop condition body =>
    have loop := (each body List.mem_cons_self).inLoop
    exact ((tested condition).bind fun _ => loop).congr (by simp [StmtKind.isSignal, StmtKind.isLoop])
  | branch condition thenBody elseBody =>
    have first := (each thenBody List.mem_cons_self).inScope "if"
    cases elseBody with
    | none =>
      exact ((tested condition).before fun _ => first.bind fun _ => Calm.pure _).congr
        (by simp [StmtKind.isSignal, StmtKind.isLoop, StmtKind.bodies])
    | some body =>
      have second := (each body (List.mem_cons_of_mem _ List.mem_cons_self)).inScope "else"
      exact ((tested condition).before fun _ => first.bind fun _ => second).congr
        (by simp [StmtKind.isSignal, StmtKind.isLoop, StmtKind.bodies])
  | breakLoop => exact (Finds.signal _ rfl).congr (by simp [StmtKind.isSignal])
  | continueLoop => exact (Finds.signal _ rfl).congr (by simp [StmtKind.isSignal])
  | giveBack values | print values =>
    have typed : Calm (values.forM fun id => discard (typeOf tree id)) :=
      Calm.closed.forM fun id _ => (typeOf_calm tree id).bind fun _ => .pure _
    exact typed.congr (by simp [StmtKind.isSignal, StmtKind.bodies])

end

section

variable {tree : Tree} {phrases : List Grammar.Phrase} (represents : tree.Represents phrases)
include represents

theorem checkWithin_finds {depth : Nat} {id : StmtId} (reachable : tree.Reachable id) (deep : id.index < depth) :
    Finds (tree.Leaks id) (checkWithin tree depth id) := by
  induction depth generalizing id with
  | zero => exact absurd deep (Nat.not_lt_zero _)
  | succ depth ih =>
    obtain ⟨lo, hi, phrase, layout⟩ := reachable.layout represents
    obtain ⟨kind, node⟩ := layout.node
    obtain ⟨span, found⟩ := stmt?_of_kind node
    -- a body has a smaller number than the statement around it, so the depth that is left is enough for it
    have inside : ∀ body ∈ kind.bodies, Finds (tree.Leaks body) (checkWithin tree depth body) := by
      intro body member
      have encloses : tree.Encloses id body := ⟨kind, node, member⟩
      have below := reachable.body_lt represents encloses
      exact ih (.inside reachable encloses) (by omega)
    rw [checkWithin_apply found]
    exact (checkNode_finds inside).congr (Tree.leaks_iff node).symm

end

end Typing

/-- The checker finds a stray signal exactly where one can get out of the program. -/
theorem check_stray {tree : Tree} {phrases : List Grammar.Phrase} (represents : tree.Represents phrases) :
    (∃ finding ∈ (check tree).findings, finding.problem.isStray) ↔ ∃ top ∈ tree.body, tree.Leaks top := by
  have finds : Finds (∃ top ∈ tree.body, tree.Leaks top) (checkProgram tree) := by
    refine Finds.forM fun top member => ?_
    have inside := (stretch_within represents top member).2
    exact checkWithin_finds represents (.program member) (Nat.lt_succ_of_lt inside)
  have stray := finds.stray (.start tree)
  have findings : (check tree).findings = (checkProgram tree (.start tree)).2.findings.toList := rfl
  simpa [findings, Checker.Stray, Checker.start] using stray

end MatrixScript
