import MatrixScript.Proofs.Evaluation.Run
import MatrixScript.Proofs.Evaluation.Steps
import MatrixScript.Proofs.Typing.Knowledge
import MatrixScript.Proofs.Typing.Once
import MatrixScript.Proofs.Typing.Source
import MatrixScript.Proofs.Value.Conformance

/-! No accepted program reads a name that has no value. -/

set_option autoImplicit false

namespace MatrixScript

theorem Fault.Unforeseen.defined {fault : Fault} (unforeseen : fault.Unforeseen) : fault.Defined := by
  rintro name rfl
  exact unforeseen

namespace Value

theorem defined_of_ordinary (fault : Fault) (ordinary : fault.Ordinary) : fault.Defined := ordinary.defined

theorem orFault_defined {α : Type} (outcome : Except MatrixFault α) : FailsIn Fault.Defined (orFault outcome) :=
  (Checked.orFault fun _ _ => trivial).widen fun _ => Fault.Unforeseen.defined

theorem combine_defined (op : Arith) (left right : Matrix) :
    FailsIn Fault.Defined (Matrix.combine op.symbol (elementArith op) left right) :=
  ((combine_checked op left right).mono fun _ _ => trivial).widen fun _ => Fault.Unforeseen.defined

theorem arithmetic_defined (op : Arith) (left right : Value) : FailsIn Fault.Defined (arithmetic op left right) :=
  arithmetic_failsIn defined_of_ordinary fun _ _ _ _ => combine_defined _ _ _

theorem linear_defined (op : Arith) (left right : Value) : FailsIn Fault.Defined (linear op left right) :=
  linear_failsIn defined_of_ordinary (fun _ _ _ _ _ => orFault_defined _) fun _ _ _ _ _ => combine_defined _ _ _

theorem assignInto_defined (current : Value) (selectors : List Selector) (replacement : Value) :
    FailsIn Fault.Defined (current.assignInto selectors replacement) :=
  assignInto_failsIn defined_of_ordinary fun _ _ _ _ _ _ => orFault_defined _

end Value

open Typing

section

variable {tree : Tree} {types : StaticTypes} {declared : Declarations ExprId} {memory : Memory Value} {lo hi : Nat}

def Visible (declared : Declarations ExprId) (memory : Memory Value) : Prop :=
  Shows (fun _ _ => True) declared memory

theorem Visible.read? (visible : Visible declared memory) {name : String}
    (found : (declared.lookup? name).isSome) : ∃ value, memory.read? name = some value := by
  obtain ⟨producer, found⟩ := Option.isSome_iff_exists.mp found
  obtain ⟨value, read, _⟩ := visible name producer found
  exact ⟨value, read⟩

theorem arrayLiteral_defined {operand : ExprId → Eval Value} {items : List ExprId} (position : Position)
    (operands : ∀ item ∈ items, Evaluates Fault.Defined (fun _ => True) (operand item)) :
    Evaluates Fault.Defined (fun _ => True) (Evaluation.arrayLiteral tree operand position items) := by
  refine (Evaluates.mapM operands).bind fun values _ => ?_
  split
  · exact (Evaluates.locate (Value.orFault_defined _) _).bind fun _ _ => trivial
  · have rows (pair : ExprId × Value) : Evaluates Fault.Defined (fun _ => True)
        (Evaluation.rowOf tree pair.1 pair.2) := by
      unfold Evaluation.rowOf
      simp only
      split
      · split
        · trivial
        · exact nofun
      · exact nofun
    refine (Evaluates.mapM fun pair _ => rows pair).bind fun rows _ => ?_
    exact (Evaluates.locate (Value.orFault_defined _) _).bind fun _ _ => trivial

theorem builtin_defined {operand : ExprId → Eval Value} {arguments : List ExprId} (position : Position)
    (function : Builtin) (operands : ∀ item ∈ arguments, Evaluates Fault.Defined (fun _ => True) (operand item)) :
    Evaluates Fault.Defined (fun _ => True) (Evaluation.builtin tree operand position function arguments) := by
  have dims (id : ExprId) (member : id ∈ arguments) : Evaluates Fault.Defined (fun _ => True)
      (Evaluation.dimension tree operand function id) := by
    refine (operands id member).bind fun value _ => ?_
    simp only
    split
    · split
      · trivial
      · exact nofun
    · exact nofun
  refine (Evaluates.mapM dims).bind fun sizes _ => ?_
  split
  · exact (Evaluates.locate (Value.orFault_defined _) _).bind fun _ _ => trivial
  · exact (Evaluates.locate (Value.orFault_defined _) _).bind fun _ _ => trivial
  · exact nofun

theorem node_defined (understood : Understood tree types declared lo hi) (visible : Visible declared memory)
    {id : ExprId} {expr : Expr} {operand : ExprId → Eval Value} (placed : tree.Placed lo hi id)
    (found : tree.expr? id = some expr)
    (operands : ∀ child, tree.Placed lo id.index child →
      Evaluates Fault.Defined (fun _ => True) (operand child)) :
    Evaluates Fault.Defined (fun _ => True) (Evaluation.node tree (Evaluation.fetch memory) operand expr) := by
  have node : tree.kind? id = some expr.kind := by
    rw [Tree.kind?, found]
    rfl
  have inside := (understood.nested id expr.kind placed.above placed.below node).operand
  obtain ⟨kind, span⟩ := expr
  cases kind with
  | int _ | float _ | text _ => trivial
  | array items => exact arrayLiteral_defined _ fun item member => operands item (inside item member)
  | name name =>
    obtain ⟨_, type, same, _, judged⟩ := understood.settled id placed.above placed.below
    cases found.symm.trans same
    obtain ⟨producer, declared, _⟩ := (judged types (.refl _)).name_declared
    obtain ⟨value, read⟩ := visible.read? (by rw [declared]; rfl)
    rw [Evaluation.node_name rfl read]
    trivial
  | indexed base indices =>
    refine (operands base (inside base (by simp [ExprKind.operands]))).bind fun value _ => ?_
    have selects := Evaluation.selectors_evaluate fun child member =>
      Evaluation.operates_of_nested understood.nested placed node member operands fun _ _ _ _ _ =>
        .inr fun _ same => by cases same
    refine selects.bind fun selectors _ => ?_
    exact .locate (Value.index_failsIn Value.defined_of_ordinary _ _) _
  | linear left op right =>
    refine (operands left (inside left (by simp [ExprKind.operands]))).bind fun a _ => ?_
    refine (operands right (inside right (by simp [ExprKind.operands]))).bind fun b _ => ?_
    exact .locate (Value.linear_defined _ _ _) _
  | elementwise left op right =>
    refine (operands left (inside left (by simp [ExprKind.operands]))).bind fun a _ => ?_
    refine (operands right (inside right (by simp [ExprKind.operands]))).bind fun b _ => ?_
    exact .locate (Value.arithmetic_defined _ _ _) _
  | compare left op right =>
    refine (operands left (inside left (by simp [ExprKind.operands]))).bind fun a _ => ?_
    refine (operands right (inside right (by simp [ExprKind.operands]))).bind fun b _ => ?_
    exact .locate (Value.compare_failsIn Value.defined_of_ordinary _ _ _) _
  | negate inner =>
    refine (operands inner (inside inner (by simp [ExprKind.operands]))).bind fun value _ => ?_
    exact .locate (Value.negate_failsIn Value.defined_of_ordinary _) _
  | transpose inner =>
    refine (operands inner (inside inner (by simp [ExprKind.operands]))).bind fun value _ => ?_
    exact .locate (Value.transpose_failsIn Value.defined_of_ordinary _) _
  | builtin function arguments => exact builtin_defined _ _ fun item member => operands item (inside item member)
  -- only an index is a range, and its bounds are evaluated there one by one
  | range start stop => exact absurd ⟨start, stop, node⟩ placed.plain

theorem evaluate_defined (understood : Understood tree types declared lo hi) (visible : Visible declared memory)
    {id : ExprId} (placed : tree.Placed lo hi id) :
    Evaluates Fault.Defined (fun _ => True) (evaluate tree memory id) := by
  obtain ⟨expr, found⟩ := understood.present id placed.above placed.below
  have deep : id.index < tree.exprs.size + 1 := Nat.lt_succ_of_lt (Array.getElem?_eq_some_iff.mp found).1
  exact Evaluation.evaluateWithin_of_nodes (fun _ _ => True) understood.present
    (fun _ _ _ placed found operands => node_defined understood visible placed found operands) placed deep

theorem known_defined {ids : List ExprId} (known : Known tree types declared ids) (visible : Visible declared memory) :
    ∀ id ∈ ids, Evaluates Fault.Defined (fun _ => True) (evaluate tree memory id) := by
  obtain ⟨lo, hi, understood, placed⟩ := known
  exact fun id member => evaluate_defined understood visible (placed id member)

theorem single_defined {id : ExprId} (known : Known tree types declared [id]) (visible : Visible declared memory) :
    Evaluates Fault.Defined (fun _ => True) (evaluate tree memory id) :=
  known_defined known visible id (List.mem_singleton_self _)

theorem selectors_defined {target base : ExprId} {indices : List ExprId} (known : Known tree types declared [target])
    (visible : Visible declared memory) (node : tree.kind? target = some (.indexed base indices)) :
    Evaluates Fault.Defined (fun _ => True) (Evaluation.selectors tree (evaluate tree memory) indices) := by
  obtain ⟨lo, hi, understood, placed⟩ := known
  have place := placed target (List.mem_singleton_self _)
  have operands (child : ExprId) (inside : tree.Placed lo target.index child) :
      Evaluates Fault.Defined (fun _ => True) (evaluate tree memory child) :=
    evaluate_defined understood visible (inside.widen (Nat.le_refl _) (Nat.le_of_lt place.below))
  have selects := Evaluation.selectors_evaluate fun child member =>
    Evaluation.operates_of_nested understood.nested place node member operands fun _ _ _ _ _ => .inr nofun
  exact selects.mono fun _ _ => trivial

theorem assignTo_indexed_defined {target base : ExprId} {indices : List ExprId} {name : String} {machine : Machine}
    (known : Known tree types declared [target]) (agrees : Agrees (fun _ _ => True) declared machine.memory)
    (node : tree.kind? target = some (.indexed base indices)) (word : tree.kind? base = some (.name name))
    (value : Value) :
    Ends Fault.Defined (fun _ later => Agrees (fun _ _ => True) declared later.memory)
      (Execution.assignTo tree target value machine) := by
  have visible : Visible declared machine.memory := agrees.shows
  obtain ⟨producer, found, _⟩ := known.base_declared node word
  obtain ⟨current, read⟩ := visible.read? (by rw [found]; rfl)
  exact Execution.assignTo_indexed node word read (selectors_defined known visible node)
    (fun selectors _ => Value.assignInto_defined _ _ _) fun updated _ => agrees.rebind found trivial

theorem assigned_defined {after : Declarations ExprId} {target value : ExprId} {op : Assign} {machine : Machine}
    (assigned : Assigned tree types declared target op value after)
    (agrees : Agrees (fun _ _ => True) declared machine.memory) :
    Ends Fault.Defined (fun _ later => Agrees (fun _ _ => True) after later.memory)
      (Execution.assign tree target op value machine) := by
  have visible : Visible declared machine.memory := agrees.shows
  cases assigned with
  | @plain name _ _ node known _ =>
    refine Execution.assign_plain (single_defined known visible) fun result _ => ?_
    exact Execution.assignTo_name node (agrees.bind name trivial)
  | @compound name op _ producer current _ result node known found _ _ _ =>
    obtain ⟨held, read⟩ := visible.read? (by rw [found]; rfl)
    have target : Evaluates Fault.Defined (fun _ => True) (evaluate tree machine.memory target) := by
      rw [Execution.evaluate_name node read]
      trivial
    refine Execution.assign_compound (single_defined known visible) target
      (fun a b _ _ => Value.arithmetic_defined op a b) fun value _ => Execution.assignTo_name node ?_
    -- the name is declared anew only when the operator gives it another type
    split
    · exact agrees.bind name trivial
    · exact agrees.rebind found trivial
  | @indexed base _ indices name op _ _ _ node word known targeted _ _ _ _ =>
    cases op with
    | plain =>
      refine Execution.assign_plain (single_defined known visible) fun result _ => ?_
      exact assignTo_indexed_defined targeted agrees node word result
    | compound op =>
      refine Execution.assign_compound (single_defined known visible) (single_defined targeted visible)
        (fun a b _ _ => Value.arithmetic_defined op a b) fun result _ => ?_
      exact assignTo_indexed_defined targeted agrees node word result

end

section

variable {program : Program}

/-- Every statement of an accepted program can be run without finding a name undefined. -/
theorem Accepted.sound_defined (accepted : Accepted program) :
    SoundProgram program.tree (fun _ _ => True) Fault.Defined where
  output := fun _ => nofun
  statement := by
    intro depth id checker stmt visited found
    obtain ⟨lo, hi, sits⟩ := accepted.sits visited
    obtain ⟨depth, rfl⟩ := sits.deeper
    obtain ⟨kind, span⟩ := stmt
    cases kind with
    | block _ | breakLoop | continueLoop => trivial
    | assign target op value =>
      have assigned := sits.assigned found
      exact ⟨assigned.within fun _ _ _ _ _ _ _ => Iff.rfl, fun machine agrees => assigned_defined assigned agrees⟩
    | forRange name range body =>
      obtain ⟨new, start, stop, node, known, _⟩ := sits.range_known found
      refine ⟨new, ⟨start, stop, node, fun _ => trivial⟩, fun machine visible => ?_⟩
      have defined := known_defined known visible
      exact Execution.loopBounds_ends (fun _ _ => True) node (defined start (by simp)) (fun _ _ => .inr nofun)
        (defined stop (by simp)) fun _ _ => .inr nofun
    | whileLoop condition body =>
      obtain ⟨known, _⟩ := sits.while_known found
      intro machine visible
      exact Execution.holds_ends (single_defined known visible) fun _ _ => .inr nofun
    | branch condition thenBody elseBody =>
      obtain ⟨known, _⟩ := sits.branch_known found
      intro machine visible
      exact Execution.holds_ends (single_defined known visible) fun _ _ => .inr nofun
    | giveBack values =>
      intro machine visible
      exact Execution.valuesOf_ends (known_defined (sits.values_known found (.inl rfl)) visible)
    | print values =>
      intro machine visible
      exact Execution.valuesOf_ends (known_defined (sits.values_known found (.inr rfl)) visible)

end

/-- At every moment of a run of an accepted program, what the checker had declared at the current statement can be
read, and no run ends with an undefined name: whatever branches it takes, however often it repeats a body and however
it leaves one. -/
theorem run_never_undefined {source : String} {program : Program} (accepted : Program.ofSource source = .ok program)
    (steps : Nat) (sink : Sink) :
    (∀ id machine, program.tree.RunsTo steps sink id machine →
      (∃ depth checker, Visited program.tree depth id checker) ∧
        ∀ depth checker, Visited program.tree depth id checker →
          ∀ name, (checker.declared.lookup? name).isSome → (machine.memory.read? name).isSome) ∧
      ∀ failure name, (program.tree.run steps sink).outcome = .error (.failed failure) →
        failure.fault ≠ .undefined name := by
  have accepted := accepted_of_source accepted
  have sound := accepted.sound_defined
  refine ⟨fun id machine runs => ?_, fun failure name failed => run_ends accepted sound steps sink failed name⟩
  obtain ⟨depth, checker, visited, visible⟩ := runsTo_shows accepted sound runs
  refine ⟨⟨depth, checker, visited⟩, fun depth' checker' visited' name found => ?_⟩
  -- the checker comes to the statement once, so this is the state in which names are visible
  obtain ⟨_, rfl⟩ := accepted.visited_unique visited visited'
  obtain ⟨value, read⟩ := Visible.read? visible found
  rw [read]
  rfl

/-- A body that is left early and repeated, with a name that only one branch introduces. -/
theorem earlyExit_never_undefined :
    ∃ program, Program.ofSource "x = 1; while (x < 9) { y = x; if (x == 4) { z = y; break; } x += y; } print x;" =
        .ok program ∧
      ∀ steps sink failure name, (program.tree.run steps sink).outcome = .error (.failed failure) →
        failure.fault ≠ .undefined name := by
  cases accepted :
    Program.ofSource "x = 1; while (x < 9) { y = x; if (x == 4) { z = y; break; } x += y; } print x;" with
  | error rejection =>
    have fine : (Program.ofSource
        "x = 1; while (x < 9) { y = x; if (x == 4) { z = y; break; } x += y; } print x;").isOk := by decide +kernel
    rw [accepted] at fine
    cases fine
  | ok program => exact ⟨program, rfl, fun steps sink => (run_never_undefined accepted steps sink).2⟩

end MatrixScript
