import MatrixScript.Proofs.Evaluation.Expression
import MatrixScript.Proofs.Evaluation.Reading
import MatrixScript.Proofs.Scope.Agreement

/-! What single steps of a run do, given what the expressions in them evaluate to. -/

set_option autoImplicit false

namespace MatrixScript.Execution

variable {tree : Tree} {machine : Machine} {Allowed : Fault → Prop} {Good : Value → Prop}

theorem valueOf_ends {id : ExprId} (evaluates : Evaluates Allowed Good (evaluate tree machine.memory id)) :
    Ends Allowed (fun value later => Good value ∧ later = machine) (valueOf tree id machine) :=
  (valueOf_gives id).ends evaluates

theorem holds_ends {condition : ExprId} (evaluates : Evaluates Allowed Good (evaluate tree machine.memory condition))
    (truth : ∀ value, Good value → value.truth?.isSome ∨ Allowed (.invalidCondition value.typeName)) :
    Ends Allowed (fun _ later => later = machine) (holds tree condition machine) := by
  refine (valueOf_ends evaluates).bind fun value later good => ?_
  obtain ⟨good, rfl⟩ := good
  cases known : value.truth? with
  | some truth => rfl
  | none =>
    rcases truth value good with true | allowed
    · rw [known] at true
      cases true
    · exact allowed

theorem valuesOf_ends {ids : List ExprId}
    (each : ∀ id ∈ ids, Evaluates Allowed (fun _ => True) (evaluate tree machine.memory id)) :
    Ends Allowed (fun _ later => later = machine) (valuesOf tree ids machine) :=
  ((valuesOf_gives ids).ends (Evaluates.mapM each)).mono fun _ _ good => good.2

theorem loopBounds_ends (Good : ExprId → Value → Prop) {range start stop : ExprId}
    (node : tree.kind? range = some (.range start stop))
    (first : Evaluates Allowed (Good start) (evaluate tree machine.memory start))
    (one : Evaluation.Integral Allowed Good start)
    (second : Evaluates Allowed (Good stop) (evaluate tree machine.memory stop))
    (two : Evaluation.Integral Allowed Good stop) :
    Ends Allowed (fun _ later => later = machine) (loopBounds tree range machine) := by
  unfold loopBounds
  rw [node]
  have evaluates : Evaluates Allowed _ (Evaluation.bounds tree (evaluate tree machine.memory) start stop) :=
    Evaluation.bounds_evaluate first one second two
  exact ((Evaluation.bounds_gives valueOf_gives start stop).ends evaluates).mono fun _ _ good => good.2

theorem evaluate_name {memory : Memory Value} {id : ExprId} {name : String} {value : Value}
    (node : tree.kind? id = some (.name name)) (read : memory.read? name = some value) :
    evaluate tree memory id = .ok value := by
  simp only [Tree.kind?, Option.map_eq_some_iff] at node
  obtain ⟨expr, found, known⟩ := node
  rw [evaluate, Evaluation.evaluateWithin, Evaluation.valueWithin, found]
  exact Evaluation.node_name known read _

section

variable {target base : ExprId} {name : String} {value : Value} {Post : Machine → Prop}

theorem assignTo_name (node : tree.kind? target = some (.name name))
    (post : Post { machine with memory := machine.memory.bind name value }) :
    Ends Allowed (fun _ => Post) (assignTo tree target value machine) := by
  unfold assignTo
  rw [node]
  exact post

theorem readVariable_apply (name : String) : readVariable name machine = .ok (machine.memory.read? name) machine := rfl

theorem changeAt_apply {current : Value} (read : machine.memory.read? name = some current) (position : Position)
    (change : Change Fault Value Unit) :
    changeAt position name change machine =
      match change current with
      | .ok _ updated => .ok () { machine with memory := machine.memory.bind name updated }
      | .error fault left =>
        .error (.failed ⟨fault, position⟩) { machine with memory := machine.memory.bind name left } := by
  rw [changeAt, bind_apply, readVariable_apply, read]
  simp only
  cases change current with
  | ok value updated => rfl
  | error fault left => rfl

theorem changeAt_ends {current : Value} {change : Change Fault Value Unit}
    (read : machine.memory.read? name = some current) (updates : Checked Allowed Good (change.result current))
    (post : ∀ updated, Good updated → Post { machine with memory := machine.memory.bind name updated })
    (position : Position) : Ends Allowed (fun _ => Post) (changeAt position name change machine) := by
  rw [changeAt_apply read]
  unfold Change.result at updates
  cases done : change current with
  | ok value updated =>
    rw [done] at updates
    exact post updated updates
  | error fault left =>
    rw [done] at updates
    exact updates

theorem assignTo_indexed {indices : List ExprId} {current : Value} {Selected : List Selector → Prop}
    (node : tree.kind? target = some (.indexed base indices)) (word : tree.kind? base = some (.name name))
    (read : machine.memory.read? name = some current)
    (selects : Evaluates Allowed Selected (Evaluation.selectors tree (evaluate tree machine.memory) indices))
    (updates : ∀ selectors, Selected selectors → Checked Allowed Good (current.assignInto selectors value))
    (post : ∀ updated, Good updated → Post { machine with memory := machine.memory.bind name updated }) :
    Ends Allowed (fun _ => Post) (assignTo tree target value machine) := by
  unfold assignTo
  rw [node]
  simp only [word]
  refine ((Evaluation.selectors_gives valueOf_gives indices).ends selects).bind fun selectors later good => ?_
  obtain ⟨good, rfl⟩ := good
  exact changeAt_ends read (updates selectors good) post _

theorem assign_compound {op : Arith} {right : ExprId} {Left Combined : Value → Prop}
    (second : Evaluates Allowed Good (evaluate tree machine.memory right))
    (first : Evaluates Allowed Left (evaluate tree machine.memory target))
    (combines : ∀ a b, Left a → Good b → Checked Allowed Combined (Value.arithmetic op a b))
    (assigns : ∀ result, Combined result → Ends Allowed (fun _ => Post) (assignTo tree target result machine)) :
    Ends Allowed (fun _ => Post) (assign tree target (.compound op) right machine) := by
  refine (valueOf_ends second).bind fun b later good => ?_
  obtain ⟨bGood, rfl⟩ := good
  refine (valueOf_ends first).bind fun a later good => ?_
  obtain ⟨aGood, rfl⟩ := good
  refine ((Gives.locate _ _).ends (Evaluates.locate (combines a b aGood bGood) _)).bind fun result last good => ?_
  obtain ⟨good, rfl⟩ := good
  exact assigns result good

theorem assign_plain {right : ExprId} (evaluates : Evaluates Allowed Good (evaluate tree machine.memory right))
    (assigns : ∀ value, Good value → Ends Allowed (fun _ => Post) (assignTo tree target value machine)) :
    Ends Allowed (fun _ => Post) (assign tree target .plain right machine) := by
  refine (valueOf_ends evaluates).bind fun value later good => ?_
  obtain ⟨good, rfl⟩ := good
  exact assigns value good

end

end MatrixScript.Execution
