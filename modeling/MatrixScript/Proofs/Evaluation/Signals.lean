import MatrixScript.Proofs.Evaluation.Outcome
import MatrixScript.Proofs.Typing.Source
import MatrixScript.Proofs.Typing.Strays

/-! Loop signals never leak.

A loop takes every signal of its body for itself. So a statement is left by a signal only if there is a way to one
inside it that enters no loop, and where the checker has found no stray signal there is no such way from the program.
-/

set_option autoImplicit false

namespace MatrixScript

def Flow.isSignal : Flow → Bool
  | .breaking | .continuing => true
  | .normal | .returning _ => false

/-- However it is run, no signal gets out of the action. -/
def Absorbs (action : Run Flow) : Prop :=
  ∀ machine, Ends (fun _ => True) (fun flow _ => flow.isSignal = false) (action machine)

namespace Absorbs

variable {α : Type} {action : Run Flow}

theorem of_ok (absorbs : Absorbs action) {machine later : Machine} {flow : Flow}
    (done : action machine = .ok flow later) : ¬flow.isSignal := by
  have ends := absorbs machine
  rw [done] at ends
  exact Bool.not_eq_true _ ▸ ends

theorem pure {flow : Flow} (other : flow.isSignal = false) : Absorbs (pure flow) := fun _ => other

theorem throw (stop : Stop) : Absorbs (throw stop) := by
  intro machine
  cases stop with
  | failed failure => trivial
  | unfinished => trivial

theorem after (first : Run α) {next : α → Run Flow} (last : ∀ value, Absorbs (next value)) :
    Absorbs (first >>= next) := by
  intro machine
  have anything : Ends (fun _ => True) (fun _ _ => True) (first machine) := by
    cases first machine with
    | ok value later => trivial
    | error stop later => cases stop <;> trivial
  exact anything.bind fun value later _ => last value later

theorem inScope (absorbs : Absorbs action) (label : String) : Absorbs (Execution.inScope label action) :=
  fun _ => Ends.inScope (absorbs _)

end Absorbs

namespace Execution

theorem counted_absorbs (name : String) (body : Run Flow) (count : Nat) (counter : Int64) :
    Absorbs (counted name body count counter) := by
  induction count generalizing counter with
  | zero => exact .pure rfl
  | succ count ih =>
    refine .after _ fun _ => .after body fun flow => ?_
    cases flow with
    | normal | continuing => exact ih (counter + 1)
    | breaking | returning _ => exact .pure rfl

theorem repeated_absorbs (condition : Run Bool) (body : Run Flow) (steps : Nat) :
    Absorbs (repeated condition body steps) := by
  induction steps with
  | zero => exact .throw _
  | succ steps ih =>
    refine .after condition fun truth => ?_
    cases truth with
    | false => exact .pure rfl
    | true =>
      refine .after body fun flow => ?_
      cases flow with
      | normal | continuing => exact ih
      | breaking | returning _ => exact .pure rfl

theorem sequence_absorbs {statement : StmtId → Run Flow} {ids : List StmtId}
    (each : ∀ id ∈ ids, Absorbs (statement id)) : Absorbs (sequence statement ids) := by
  induction ids with
  | nil => exact .pure rfl
  | cons id rest ih =>
    intro machine
    have first := each id List.mem_cons_self machine
    refine first.bind fun flow later other => ?_
    cases flow with
    -- a signal would end the sequence, but none gets out of its statements
    | normal => exact ih (fun other member => each other (List.mem_cons_of_mem _ member)) later
    | returning _ => exact rfl
    | breaking | continuing => cases other

/-- A signal gets out of a statement only if it is one, or out of a statement right inside it. -/
theorem node_absorbs (tree : Tree) {statement : StmtId → Run Flow} (steps : Nat) {stmt : Stmt}
    (other : ¬stmt.kind.isSignal)
    (each : ¬stmt.kind.isLoop → ∀ body ∈ stmt.kind.bodies, Absorbs (statement body)) :
    Absorbs (node tree statement steps stmt) := by
  obtain ⟨kind, span⟩ := stmt
  cases kind with
  | block body => exact sequence_absorbs (each Bool.false_ne_true)
  | assign target op value => exact .after _ fun _ => .pure rfl
  | forRange name range body =>
    exact .after _ fun bounds => (counted_absorbs name (statement body) _ _).inScope "loop"
  | whileLoop condition body => exact (repeated_absorbs _ (statement body) steps).inScope "loop"
  | branch condition thenBody elseBody =>
    have inside := each Bool.false_ne_true
    refine Absorbs.inScope (.after _ fun truth => ?_) "if"
    cases truth with
    | true => exact inside thenBody List.mem_cons_self
    | false =>
      cases elseBody with
      | some body => exact inside body (List.mem_cons_of_mem _ List.mem_cons_self)
      | none => exact .pure rfl
  | breakLoop | continueLoop => exact absurd rfl other
  | giveBack values => exact .after _ fun shown => .pure rfl
  | print values => exact .after _ fun shown => .after _ fun _ => .pure rfl

end Execution

section

variable {tree : Tree} {id : StmtId}

theorem execute_absorbs (steps : Nat) (sealed : ¬tree.Leaks id) : Absorbs (execute tree steps id) := by
  induction steps generalizing id with
  | zero => exact .throw _
  | succ steps ih =>
    unfold execute
    cases found : tree.stmt? id with
    | none => exact .throw _
    | some stmt =>
      have node := Tree.stmtKind?_of_stmt? found
      rw [Tree.leaks_iff node, not_or] at sealed
      -- nothing is asked of the body of a loop, and the other bodies are sealed like the statement
      refine Execution.node_absorbs tree steps sealed.1 fun noLoop body member => ih fun leaks => ?_
      exact sealed.2 ⟨noLoop, body, member, leaks⟩

theorem runBody_eq_ok {steps : Nat} (absorbs : Absorbs (Execution.sequence (execute tree steps) tree.body))
    {machine later : Machine} {values : List Value} (done : runBody tree steps machine = .ok values later) :
    (values = [] ∧ Execution.sequence (execute tree steps) tree.body machine = .ok .normal later) ∨
      Execution.sequence (execute tree steps) tree.body machine = .ok (.returning values) later := by
  rw [runBody, Execution.bind_apply] at done
  cases ended : Execution.sequence (execute tree steps) tree.body machine with
  | error stop left =>
    rw [ended] at done
    cases done
  | ok flow left =>
    have other := absorbs.of_ok ended
    rw [ended] at done
    cases flow with
    | normal =>
      cases done
      exact .inl ⟨rfl, rfl⟩
    | returning returned =>
      cases done
      exact .inr rfl
    | breaking | continuing => exact absurd rfl other

theorem Tree.IsLoop.not_leaks (isLoop : tree.IsLoop id) : ¬tree.Leaks id := by
  obtain ⟨kind, node, isLoop⟩ := isLoop
  rw [Tree.leaks_iff node]
  rintro (isSignal | ⟨noLoop, _⟩)
  · cases kind with
    | forRange _ _ _ | whileLoop _ _ => cases isSignal
    | block _ | assign _ _ _ | branch _ _ _ | breakLoop | continueLoop | giveBack _ | print _ => cases isLoop
  · exact noLoop isLoop

/-- The checker is content with the signals of a program exactly when each lies in a loop. No signal gets out of the
statements of such a program, so it runs to its end, returns or fails. No signal ever gets out of a loop. -/
theorem loop_signals_never_leak {tokens : List Token} (parsed : parse tokens = .ok tree) :
    ((∀ finding ∈ (check tree).findings, ¬finding.problem.isStray) ↔
      ∀ id, tree.Reachable id → tree.IsSignal id → tree.InLoop id) ∧
    ((∀ id, tree.Reachable id → tree.IsSignal id → tree.InLoop id) → ∀ steps machine,
      (∀ id ∈ tree.body, ∀ flow later, execute tree steps id machine = .ok flow later → ¬flow.isSignal) ∧
      ∀ values later, runBody tree steps machine = .ok values later →
        (values = [] ∧ Execution.sequence (execute tree steps) tree.body machine = .ok .normal later) ∨
          Execution.sequence (execute tree steps) tree.body machine = .ok (.returning values) later) ∧
    ∀ steps machine id flow later, tree.IsLoop id → execute tree steps id machine = .ok flow later →
      ¬flow.isSignal := by
  obtain ⟨body, represents, _⟩ := parse_represents parsed
  have placed : (¬∃ top ∈ tree.body, tree.Leaks top) ↔
      ∀ id, tree.Reachable id → tree.IsSignal id → tree.InLoop id := by
    rw [leaks_iff_not_inLoop represents]
    grind
  refine ⟨?_, fun inLoops steps machine => ?_, fun steps machine id flow later isLoop => ?_⟩
  · rw [← placed, ← check_stray represents]
    grind
  · have sealed : ∀ id ∈ tree.body, Absorbs (execute tree steps id) := fun id member =>
      execute_absorbs steps fun leaks => placed.mpr inLoops ⟨id, member, leaks⟩
    refine ⟨fun id member flow later done => (sealed id member).of_ok done, fun values later done => ?_⟩
    exact runBody_eq_ok (Execution.sequence_absorbs sealed) done
  · exact (execute_absorbs steps isLoop.not_leaks).of_ok

/-- A search that leaves its loop from inside a branch. -/
theorem search_signals_never_leak :
    ∃ tokens tree, parse tokens = .ok tree ∧
      (∀ id, tree.Reachable id → tree.IsSignal id → tree.InLoop id) ∧ ∀ steps machine, ∀ id ∈ tree.body,
        ∀ flow later, execute tree steps id machine = .ok flow later → ¬flow.isSignal := by
  obtain ⟨program, accepted, _⟩ := @exists_accepted
    "x = 9; while (x) { if (x < 4) { break; } else { x -= 2; continue; } } print x;" (fun _ => true) (by decide +kernel)
  obtain ⟨tokens, tree, _, parsed, clean, _⟩ := ofSource_eq_ok accepted
  obtain ⟨content, sealed, _⟩ := loop_signals_never_leak parsed
  have none : (check tree).findings = [] := by simpa [CheckResult.hasFindings] using clean
  have inLoops := content.mp (by simp [none])
  exact ⟨tokens, tree, parsed, inLoops, fun steps machine => (sealed inLoops steps machine).1⟩

end

end MatrixScript
