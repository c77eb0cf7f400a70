import Mathlib.Data.Finset.Card
import MatrixScript.Proofs.Evaluation.Steps
import MatrixScript.Proofs.Grammar.Layout
import MatrixScript.Proofs.Value.Shape

/-! Compound assignment is reading, combining and writing.

A compound assignment evaluates the value before the target, the combined expression the target before the value, and
the indices of the target are evaluated once more for the write. None of this changes the machine, so the order does
not matter. The combined expression nests one level deeper than its target. That is no obstacle: in a tree of `n` nodes
every expression that has a value nests at most `n` deep, also when other nodes of the tree go in circles.
-/

set_option autoImplicit false

namespace MatrixScript

namespace Evaluation

variable {tree : Tree} {memory : Memory Value}

variable (tree memory) in
def valuedWithin (depth : Nat) : Finset Nat :=
  (Finset.range tree.exprs.size).filter fun index => (evaluateWithin tree memory depth ⟨index⟩).toOption.isSome

theorem mem_valuedWithin {depth index : Nat} :
    index ∈ valuedWithin tree memory depth ↔ ∃ value, evaluateWithin tree memory depth ⟨index⟩ = .ok value := by
  rw [valuedWithin, Finset.mem_filter, Finset.mem_range]
  constructor
  · rintro ⟨_, valued⟩
    cases outcome : evaluateWithin tree memory depth ⟨index⟩ with
    | ok value => exact ⟨value, rfl⟩
    | error stop => rw [outcome] at valued; cases valued
  · rintro ⟨value, done⟩
    refine ⟨?_, by rw [done]; rfl⟩
    -- a number without a node has no value at any depth
    by_contra outside
    have absent : tree.expr? ⟨index⟩ = none := Array.getElem?_eq_none (Nat.le_of_not_lt outside)
    cases depth with
    | zero => cases done
    | succ depth =>
      rw [evaluateWithin, valueWithin, absent] at done
      cases done

theorem valuedWithin_mono {depth more : Nat} (le : depth ≤ more) :
    valuedWithin tree memory depth ⊆ valuedWithin tree memory more := by
  intro index valued
  obtain ⟨value, done⟩ := mem_valuedWithin.mp valued
  exact mem_valuedWithin.mpr ⟨value, evaluateWithin_refines le _ value done⟩

theorem refines_of_valuedWithin_eq {depth more : Nat} (le : depth ≤ more)
    (same : valuedWithin tree memory depth = valuedWithin tree memory more) (id : ExprId) :
    Refines (evaluateWithin tree memory more id) (evaluateWithin tree memory depth id) := by
  intro value done
  have valued := mem_valuedWithin.mpr ⟨value, done⟩
  rw [← same] at valued
  obtain ⟨value', done'⟩ := mem_valuedWithin.mp valued
  rw [done', ← done, evaluateWithin_refines le id value' done']

/-- Once one more level of nesting adds no node, no further level does: a node sees no more than its operands. -/
theorem valuedWithin_stable {depth : Nat}
    (same : valuedWithin tree memory depth = valuedWithin tree memory (depth + 1)) :
    valuedWithin tree memory (depth + 1) = valuedWithin tree memory (depth + 2) := by
  refine (valuedWithin_mono (Nat.le_succ _)).antisymm fun index valued => ?_
  obtain ⟨value, done⟩ := mem_valuedWithin.mp valued
  refine mem_valuedWithin.mpr ⟨value, ?_⟩
  rw [evaluateWithin, valueWithin] at done ⊢
  cases found : tree.expr? ⟨index⟩ with
  | none =>
    rw [found] at done
    cases done
  | some expr =>
    rw [found] at done
    exact node_refines (refines_of_valuedWithin_eq (Nat.le_succ depth) same) expr value done

/-- Each level of nesting but the last gives at least one further node a value, so there are no more levels than
nodes. -/
theorem evaluateWithin_settles (depth : Nat) (id : ExprId) :
    Refines (evaluateWithin tree memory depth id) (evaluateWithin tree memory tree.exprs.size id) := by
  rcases Nat.le_total depth tree.exprs.size with shallow | deep
  · exact evaluateWithin_refines shallow id
  · apply refines_of_valuedWithin_eq deep
    have bounded (level : Nat) : (valuedWithin tree memory level).card ≤ tree.exprs.size :=
      (Finset.card_filter_le _ _).trans_eq (Finset.card_range _)
    have settled : (valuedWithin tree memory depth).card = (valuedWithin tree memory tree.exprs.size).card := by
      refine Nat.stabilises_of_monotone (f := fun level => (valuedWithin tree memory level).card)
        (fun _ _ le => Finset.card_le_card (valuedWithin_mono le)) bounded (fun level same => ?_) deep
      exact congrArg Finset.card <| valuedWithin_stable <|
        Finset.eq_of_subset_of_card_le (valuedWithin_mono (Nat.le_succ level)) same.ge
    exact Finset.eq_of_subset_of_card_le (valuedWithin_mono deep) settled.le

end Evaluation

theorem locate_eq_ok_iff {α : Type} {position : Position} {outcome : Except Fault α} {value : α} :
    (locate position outcome : Eval α) = .ok value ↔ outcome = .ok value := by
  cases outcome with
  | ok result => constructor <;> (intro same; cases same; rfl)
  | error fault => exact iff_of_false nofun nofun

variable {tree : Tree}

theorem evaluate_elementwise_eq_ok_iff {memory : Memory Value} {id left right : ExprId} {op : Arith} {result : Value}
    (node : tree.kind? id = some (.elementwise left op right)) :
    evaluate tree memory id = .ok result ↔ ∃ a b, evaluate tree memory left = .ok a ∧
      evaluate tree memory right = .ok b ∧ Value.arithmetic op a b = .ok result := by
  obtain ⟨expr, found, known⟩ := Option.map_eq_some_iff.mp node
  let operand := Evaluation.evaluateWithin tree memory tree.exprs.size
  have opened : evaluate tree memory id = (operand left >>= fun a => operand right >>= fun b =>
      locate expr.span.start (Value.arithmetic op a b)) := by
    rw [evaluate, Evaluation.evaluateWithin, Evaluation.valueWithin, found]
    simp only [Evaluation.node, known]
    rfl
  rw [opened]
  constructor
  · intro done
    obtain ⟨a, first, done⟩ := Except.bind_eq_ok done
    obtain ⟨b, second, done⟩ := Except.bind_eq_ok done
    have deeper (id : ExprId) : Refines (operand id) (evaluate tree memory id) :=
      Evaluation.evaluateWithin_refines (Nat.le_succ _) id
    exact ⟨a, b, deeper left a first, deeper right b second, locate_eq_ok_iff.mp done⟩
  · rintro ⟨a, b, first, second, done⟩
    -- an operand that has a value has it one level below
    have first' : operand left = .ok a := Evaluation.evaluateWithin_settles _ left a first
    have second' : operand right = .ok b := Evaluation.evaluateWithin_settles _ right b second
    rw [first', second']
    exact locate_eq_ok_iff.mpr done

theorem Gives.bind_eq_ok_iff {α β : Type} {machine later : Machine} {outcome : Eval α} {action : Run α}
    {next : α → Run β} {result : β} (gives : Gives machine outcome action) :
    (action >>= next) machine = .ok result later ↔
      ∃ value, outcome = .ok value ∧ next value machine = .ok result later := by
  rw [Execution.bind_apply, gives]
  cases outcome with
  | ok value => exact ⟨fun done => ⟨value, rfl, done⟩, fun ⟨_, same, done⟩ => by cases same; exact done⟩
  | error stop => exact iff_of_false nofun nofun

namespace Execution

variable {machine later : Machine} {target value : ExprId}

theorem assign_plain_eq_ok_iff :
    assign tree target .plain value machine = .ok () later ↔
      ∃ right, evaluate tree machine.memory value = .ok right ∧ assignTo tree target right machine = .ok () later :=
  (valueOf_gives value).bind_eq_ok_iff

theorem assign_compound_eq_ok_iff {op : Arith} :
    assign tree target (.compound op) value machine = .ok () later ↔
      ∃ right, evaluate tree machine.memory value = .ok right ∧
        ∃ left, evaluate tree machine.memory target = .ok left ∧
          ∃ combined, Value.arithmetic op left right = .ok combined ∧
            assignTo tree target combined machine = .ok () later := by
  have opened : assign tree target (.compound op) value = (valueOf tree value >>= fun right => valueOf tree target >>=
      fun left => locate (tree.exprStart target) (Value.arithmetic op left right) >>= assignTo tree target) := rfl
  rw [opened, (valueOf_gives value).bind_eq_ok_iff]
  simp only [(valueOf_gives target).bind_eq_ok_iff, (Gives.locate _ _).bind_eq_ok_iff, locate_eq_ok_iff]

theorem assign_compound_iff_plain {op : Arith} {combined : ExprId}
    (node : tree.kind? combined = some (.elementwise target op value)) :
    assign tree target (.compound op) value machine = .ok () later ↔
      assign tree target .plain combined machine = .ok () later := by
  rw [assign_compound_eq_ok_iff, assign_plain_eq_ok_iff]
  simp only [evaluate_elementwise_eq_ok_iff node]
  constructor
  · rintro ⟨right, second, left, first, result, combines, written⟩
    exact ⟨result, ⟨left, right, first, second, combines⟩, written⟩
  · rintro ⟨result, ⟨left, right, first, second, combines⟩, written⟩
    exact ⟨right, second, left, first, result, combines, written⟩

theorem execute_assign_eq_ok_iff {steps : Nat} {id : StmtId} {op : Assign} {flow : Flow}
    (node : tree.stmtKind? id = some (.assign target op value)) :
    execute tree steps id machine = .ok flow later ↔
      0 < steps ∧ flow = .normal ∧ assign tree target op value machine = .ok () later := by
  obtain ⟨stmt, found, known⟩ := Option.map_eq_some_iff.mp node
  cases steps with
  | zero => exact iff_of_false nofun nofun
  | succ steps =>
    have opened : execute tree (steps + 1) id machine =
        (assign tree target op value >>= fun _ => pure Flow.normal) machine := by
      rw [execute, found]
      simp only [Execution.node, known]
    rw [opened, bind_apply]
    cases assign tree target op value machine with
    | ok done between =>
      constructor
      · intro done
        cases done
        exact ⟨Nat.succ_pos _, rfl, rfl⟩
      · rintro ⟨_, rfl, done⟩
        cases done
        rfl
    | error stop between => exact iff_of_false nofun fun h => nomatch h.2.2

end Execution

/-- A compound assignment succeeds where the plain assignment of the elementwise combination of its target and its value
does, and then leaves the same machine. The target may be anything, and may be made of the variable that is written. -/
theorem compound_assignment_expands (tree : Tree) (machine : Machine) (steps : Nat) {target value combined : ExprId}
    {op : Arith} {compound plain : StmtId} (node : tree.kind? combined = some (.elementwise target op value))
    (first : tree.stmtKind? compound = some (.assign target (.compound op) value))
    (second : tree.stmtKind? plain = some (.assign target .plain combined)) (flow : Flow) (later : Machine) :
    execute tree steps compound machine = .ok flow later ↔ execute tree steps plain machine = .ok flow later := by
  rw [Execution.execute_assign_eq_ok_iff first, Execution.execute_assign_eq_ok_iff second,
    Execution.assign_compound_iff_plain node]

/-- `A[A[0]] += A[1]` and `A[A[0]] = A[A[0]] .+ A[1]`, where `A[0]` is 2. -/
theorem selfIndexed_expands :
    let here : Span := ⟨⟨1, 1⟩, ⟨1, 1⟩⟩
    let tree : Tree := {
      exprs := #[⟨.name "A", here⟩, ⟨.int 0, here⟩, ⟨.indexed ⟨0⟩ [⟨1⟩], here⟩, ⟨.indexed ⟨0⟩ [⟨2⟩], here⟩,
        ⟨.int 1, here⟩, ⟨.indexed ⟨0⟩ [⟨4⟩], here⟩, ⟨.elementwise ⟨3⟩ .add ⟨5⟩, here⟩]
      stmts := #[⟨.assign ⟨3⟩ (.compound .add) ⟨5⟩, here⟩, ⟨.assign ⟨3⟩ .plain ⟨6⟩, here⟩] }
    let machine : Machine := { memory := Memory.start.bind "A" (.matrix ⟨1, 3, .ints #[2, 5, 7]⟩) }
    ∃ later, execute tree 1 ⟨0⟩ machine = .ok .normal later ∧ execute tree 1 ⟨1⟩ machine = .ok .normal later ∧
      later.memory.read? "A" = some (.matrix ⟨1, 3, .ints #[2, 5, 12]⟩) := by
  intro here tree machine
  have done : ∃ later, execute tree 1 ⟨0⟩ machine = .ok .normal later ∧
      later.memory.read? "A" = some (.matrix ⟨1, 3, .ints #[2, 5, 12]⟩) := ⟨_, rfl, rfl⟩
  obtain ⟨later, ran, read⟩ := done
  have node : tree.kind? ⟨6⟩ = some (.elementwise ⟨3⟩ .add ⟨5⟩) := rfl
  have first : tree.stmtKind? ⟨0⟩ = some (.assign ⟨3⟩ (.compound .add) ⟨5⟩) := rfl
  have second : tree.stmtKind? ⟨1⟩ = some (.assign ⟨3⟩ .plain ⟨6⟩) := rfl
  have expands := compound_assignment_expands tree machine 1 node first second .normal later
  exact ⟨later, ran, expands.mp ran, read⟩

end MatrixScript
