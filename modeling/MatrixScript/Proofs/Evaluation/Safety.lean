import MatrixScript.Proofs.Evaluation.Assignment
import MatrixScript.Proofs.Evaluation.Run
import MatrixScript.Proofs.Typing.Source

/-! Type safety.

A body may be run any number of times or not at all, while the checker goes through it once and keeps what it
declared there. What it keeps is right for every run when declaring a variable of an outer scope anew does not change
its type.
-/

set_option autoImplicit false

namespace MatrixScript

open Typing

/-- Wherever the checker declares a name anew that an outer scope introduced, the type stays what it was. -/
def Program.StableScopes (program : Program) : Prop :=
  ∀ depth id checker target op value span, Visited program.tree depth id checker →
    program.tree.stmt? id = some ⟨.assign target op value, span⟩ →
    ∀ name old new, checker.declared.lookup? name = some old → name ∉ checker.declared.innermost.names →
      (checkAssignment program.tree span.start.line target op value checker).2.declared.lookup? name = some new →
      program.types.get? new = program.types.get? old

section

variable {program : Program}

theorem fits_iff {types : StaticTypes} {old new : ExprId} (same : types.get? new = types.get? old) (value : Value) :
    Fits types old value ↔ Fits types new value := by
  unfold Fits
  rw [same]

theorem truth_of_condition {types : StaticTypes} {id : ExprId} {value : Value}
    (condition : isConditionTag (known types id).tag) (fits : Fits types id value) : value.truth?.isSome := by
  have tagged := fits.fitting.conforms.tagged
  generalize (known types id).tag = tag at condition tagged
  cases tagged with
  | int _ | float _ | bool _ => rfl
  | text _ | array _ | tainted _ => cases condition

/-- In stable scopes, every statement does what the checker took it for. -/
theorem Accepted.sound_fitting (accepted : Accepted program) (reliable : Reliable program.tree program.types)
    (stable : program.StableScopes) : SoundProgram program.tree (Fits program.types) Fault.Unforeseen where
  output := fun _ => trivial
  statement := by
    intro depth id checker stmt visited found
    obtain ⟨lo, hi, sits⟩ := accepted.sits visited
    obtain ⟨depth, rfl⟩ := sits.deeper
    obtain ⟨kind, span⟩ := stmt
    have holds {condition : ExprId} (known : Known program.tree program.types checker.declared [condition])
        (tag : isConditionTag ((program.types.get? condition).getD .unknown).tag) (machine : Machine)
        (shows : Shows (Fits program.types) checker.declared machine.memory) :
        Ends Fault.Unforeseen (fun _ later => later = machine) (Execution.holds program.tree condition machine) := by
      have evaluates := known_valued known reliable shows condition (List.mem_singleton_self _)
      exact Execution.holds_ends evaluates fun _ valued => .inl (truth_of_condition tag valued.fits)
    have values {ids : List ExprId} (known : Known program.tree program.types checker.declared ids) (machine : Machine)
        (shows : Shows (Fits program.types) checker.declared machine.memory) :
        Ends Fault.Unforeseen (fun _ later => later = machine) (Execution.valuesOf program.tree ids machine) :=
      Execution.valuesOf_ends fun id member =>
        (known_valued known reliable shows id member).mono fun _ _ => trivial
    cases kind with
    | block _ | breakLoop | continueLoop => trivial
    | assign target op value =>
      have assigned := sits.assigned found
      refine ⟨assigned.within fun name old new before outside after => ?_, fun machine agrees => ?_⟩
      · exact fits_iff (stable _ _ _ _ _ _ _ visited found name old new before outside after)
      · exact assigned_agrees reliable assigned agrees
    | forRange name range body =>
      obtain ⟨new, start, stop, node, bounds, settled⟩ := sits.range_known found
      obtain ⟨_, _, understood, placed⟩ := bounds
      have first := placed start (by simp)
      have last := placed stop (by simp)
      obtain ⟨_, type, found', typed, judged⟩ := settled
      obtain ⟨span, found⟩ := expr?_of_kind node
      cases found.symm.trans found'
      -- both bounds are integers, and so the counter is what was declared for it
      obtain ⟨startInt, stopInt⟩ := (judged _ (.refl _)).range_inversion
        (understood.known_clear reliable.clear first.above first.below)
        (understood.known_clear reliable.clear last.above last.below)
      obtain ⟨expr, foundStart⟩ := understood.present start first.above first.below
      have startTyped := (understood.judged first.above first.below foundStart).1
      have counts (counter : Int64) : Fitting (known program.types start) (.int counter) :=
        .scalar (startInt ▸ .int counter) nofun
      refine ⟨new, ⟨start, stop, node, fun counter => ⟨_, startTyped, counts counter⟩⟩, fun machine shows => ?_⟩
      exact Execution.loopBounds_ends (Valued program.tree program.types) node
        (evaluate_valued understood reliable shows first) (integral_of_int startInt)
        (evaluate_valued understood reliable shows last) (integral_of_int stopInt)
    | whileLoop condition body =>
      obtain ⟨known, tag⟩ := sits.while_known found
      exact holds known tag
    | branch condition thenBody elseBody =>
      obtain ⟨known, tag⟩ := sits.branch_known found
      exact holds known tag
    | giveBack ids => exact values (sits.values_known found (.inl rfl))
    | print ids => exact values (sits.values_known found (.inr rfl))

end

/-- The expressions of a statement that have types. A name that is assigned to is declared and not typed. -/
def Tree.expressions (tree : Tree) : StmtKind → List ExprId
  | .assign target _ value =>
    match tree.kind? target with
    | some (.name _) => [value]
    | _ => [target, value]
  | .forRange _ range _ => [range]
  | .whileLoop condition _ | .branch condition _ _ => [condition]
  | .giveBack values | .print values => values
  | .block _ | .breakLoop | .continueLoop => []

inductive Tree.PartOf (tree : Tree) (id : ExprId) : ExprId → Prop where
  | self : PartOf tree id id
  | child {root child : ExprId} {kind : ExprKind} :
      tree.kind? root = some kind → child ∈ kind.children → PartOf tree id child → PartOf tree id root

section

variable {tree : Tree} {types : StaticTypes} {declared : Declarations ExprId} {memory : Memory Value} {lo hi : Nat}

theorem Tree.PartOf.within {id root : ExprId} (part : tree.PartOf id root) (nested : tree.Nested lo hi)
    (above : lo ≤ root.index) (below : root.index < hi) : lo ≤ id.index ∧ id.index < hi := by
  induction part with
  | self => exact ⟨above, below⟩
  | child node member _ ih =>
    have supports := nested _ _ above below node
    rcases List.mem_append.mp member with operand | index
    · have inside := supports.operand _ operand
      exact ih inside.above (Nat.lt_trans inside.below below)
    · obtain ⟨start, stop⟩ := supports.index _ index
      exact ih start (Nat.lt_trans stop below)

theorem evaluateWithin_range {id : ExprId} (range : tree.IsRange id) (depth : Nat) (value : Value) :
    Evaluation.evaluateWithin tree memory depth id ≠ .ok value := by
  obtain ⟨start, stop, node⟩ := range
  obtain ⟨span, found⟩ := expr?_of_kind node
  cases depth with
  | zero =>
    intro done
    cases done
  | succ depth =>
    rw [Evaluation.evaluateWithin, Evaluation.valueWithin, found]
    intro done
    cases done

theorem evaluated_conforms (understood : Understood tree types declared lo hi) (reliable : Reliable tree types)
    (shows : Shows (Fits types) declared memory) {id : ExprId} (placed : tree.Placed lo hi id) {depth : Nat}
    {value : Value} (done : Evaluation.evaluateWithin tree memory depth id = .ok value) {type : StaticType}
    (typed : types.get? id = some type) : Conforms type value := by
  -- a deeper evaluation has the same value, and its depth is known to be enough
  have deeper := Evaluation.evaluateWithin_refines (Nat.le_add_right depth (id.index + 1)) id value done
  have valued := evaluateWithin_valued understood reliable shows placed
    (show id.index < depth + (id.index + 1) by omega)
  rw [deeper] at valued
  obtain ⟨_, typed', fitting⟩ := valued.fits
  cases typed.symm.trans typed'
  exact fitting.conforms

theorem Typing.Known.part {ids : List ExprId} (known : Known tree types declared ids) {root id : ExprId}
    (member : root ∈ ids) (part : tree.PartOf id root) (plain : ¬tree.IsRange id) :
    ∃ lo hi, Understood tree types declared lo hi ∧ tree.Placed lo hi id := by
  obtain ⟨lo, hi, understood, placed⟩ := known
  have place := placed root member
  obtain ⟨above, below⟩ := part.within understood.nested place.above place.below
  exact ⟨lo, hi, understood, above, below, plain⟩

end

section

variable {program : Program}

theorem statement_part (accepted : Accepted program) {depth : Nat} {id : StmtId} {checker : Checker}
    (visited : Visited program.tree depth id checker) {stmt : Stmt} (found : program.tree.stmt? id = some stmt)
    {root part : ExprId} (member : root ∈ program.tree.expressions stmt.kind) (inside : program.tree.PartOf part root)
    (plain : ¬program.tree.IsRange part) :
    ∃ lo hi, Understood program.tree program.types checker.declared lo hi ∧ program.tree.Placed lo hi part := by
  obtain ⟨lo, hi, sits⟩ := accepted.sits visited
  obtain ⟨depth, rfl⟩ := sits.deeper
  obtain ⟨kind, span⟩ := stmt
  cases kind with
  | block _ | breakLoop | continueLoop => cases member
  | assign target op value =>
    have assigned := sits.assigned found
    generalize (checkAssignment _ _ _ _ _ _).2.declared = after at assigned
    simp only [Tree.expressions] at member
    cases assigned with
    | plain node known _ | compound node known _ _ _ _ =>
      simp only [node] at member
      exact known.part member inside plain
    | indexed node _ known targeted _ _ _ _ =>
      simp only [node] at member
      rcases List.mem_cons.mp member with rfl | member
      · exact targeted.part (List.mem_singleton_self _) inside plain
      · exact known.part member inside plain
  | forRange name range body =>
    obtain ⟨_, start, stop, node, bounds, _⟩ := sits.range_known found
    obtain rfl := List.mem_singleton.mp member
    -- the range is nothing that has a value, so a part of it is a part of one of its bounds
    cases inside with
    | self => exact absurd ⟨start, stop, node⟩ plain
    | child node' member deeper =>
      cases node.symm.trans node'
      exact bounds.part ((List.mem_append.mp member).resolve_right nofun) deeper plain
  | whileLoop condition body => exact (sits.while_known found).1.part member inside plain
  | branch condition thenBody elseBody => exact (sits.branch_known found).1.part member inside plain
  | giveBack ids => exact (sits.values_known found (.inl rfl)).part member inside plain
  | print ids => exact (sits.values_known found (.inr rfl)).part member inside plain

/-- All values in a statement conform where the memory agrees with the declarations. -/
theorem statement_conforms (accepted : Accepted program) (reliable : Reliable program.tree program.types)
    {depth : Nat} {id : StmtId} {checker : Checker} (visited : Visited program.tree depth id checker)
    {machine : Machine} (shows : Shows (Fits program.types) checker.declared machine.memory) {stmt : Stmt}
    (found : program.tree.stmt? id = some stmt) {root part : ExprId}
    (member : root ∈ program.tree.expressions stmt.kind) (inside : program.tree.PartOf part root) {bound : Nat}
    {value : Value} (done : Evaluation.evaluateWithin program.tree machine.memory bound part = .ok value)
    {type : StaticType} (typed : program.types.get? part = some type) : Conforms type value := by
  have plain : ¬program.tree.IsRange part := fun range => evaluateWithin_range range bound value done
  obtain ⟨lo, hi, understood, placed⟩ := statement_part accepted visited found member inside plain
  exact evaluated_conforms understood reliable shows placed done typed

theorem reliable_of_source {source : String} (accepted : Program.ofSource source = .ok program)
    (size : source.utf8ByteSize ≤ Value.maxTextBytes) (clear : program.types.Clear) :
    Reliable program.tree program.types := by
  refine ⟨clear, ?_⟩
  have few := exprs_of_source accepted
  unfold Value.maxTextBytes at size
  unfold Integer.greatest
  omega

end

section

variable {program : Program}

theorem StaticTypes.all_of_entries {types : StaticTypes} {test : StaticType → Bool}
    (passes : types.entries.all fun entry => entry.all test) {id : ExprId} {type : StaticType}
    (typed : types.get? id = some type) : test type := by
  have held : types.entries[id.index]? = some (some type) := Option.join_eq_some_iff.mp typed
  exact Array.all_eq_true'.mp passes (some type) (Array.mem_of_getElem? held)

theorem stableScopes_of_uniform (accepted : Accepted program) {type : StaticType}
    (uniform : ∀ id known, program.types.get? id = some known → known = type) : program.StableScopes := by
  intro depth id checker target op value span visited found name old new before _ after
  obtain ⟨lo, hi, sits⟩ := accepted.sits visited
  obtain ⟨depth, rfl⟩ := sits.deeper
  obtain ⟨phrase, layout⟩ := sits.layout
  obtain ⟨advances, ready⟩ := checkWithin_carries layout sits.deep checker sits.ready
  have kept := sits.kept
  rw [checkWithin_apply found] at advances ready kept
  have typed {producer : ExprId} (held : (program.types.get? producer).isSome) :
      program.types.get? producer = some type := by
    obtain ⟨known, held⟩ := Option.isSome_iff_exists.mp held
    rw [held, uniform producer known held]
  rw [typed (kept.isSome (ready.recorded name new after)),
    typed ((advances.types.trans kept).isSome (sits.ready.recorded name old before))]

end

section

variable {source : String} {program : Program}

/-- Type safety under stable scopes. The source is a text, and so not longer than texts can be. No expression was left
without a type, and declaring a variable of an outer scope anew keeps its type. Then, at every moment of every run, what
a typed expression evaluates to conforms to its type, and a run ends with no other fault than those that types do not
exclude. -/
theorem run_type_safe (accepted : Program.ofSource source = .ok program)
    (size : source.utf8ByteSize ≤ Value.maxTextBytes) (clear : program.types.Clear) (stable : program.StableScopes)
    (steps : Nat) (sink : Sink) :
    (∀ id machine stmt root part type depth value, program.tree.RunsTo steps sink id machine →
      program.tree.stmt? id = some stmt → root ∈ program.tree.expressions stmt.kind →
      program.tree.PartOf part root → program.types.get? part = some type →
      Evaluation.evaluateWithin program.tree machine.memory depth part = .ok value → Conforms type value) ∧
      ∀ failure, (program.tree.run steps sink).outcome = .error (.failed failure) → failure.fault.Unforeseen := by
  have reliable := reliable_of_source accepted size clear
  have accepted := accepted_of_source accepted
  have sound := accepted.sound_fitting reliable stable
  refine ⟨?_, fun failure failed => run_ends accepted sound steps sink failed⟩
  intro id machine stmt root part type depth value runs found member inside typed done
  obtain ⟨_, checker, visited, shows⟩ := runsTo_shows accepted sound runs
  exact statement_conforms accepted reliable visited shows found member inside done typed

/-- A loop around a branch, which both count a variable of the program up. -/
theorem countUp_type_safe :
    ∃ program, Program.ofSource "x = 1; while (x - 9) { if (x) { x = x + 1; } else { x += 2; } } print x;" =
        .ok program ∧
      ∀ steps sink failure, (program.tree.run steps sink).outcome = .error (.failed failure) →
        failure.fault.Unforeseen := by
  have integers : (Program.ofSource
      "x = 1; while (x - 9) { if (x) { x = x + 1; } else { x += 2; } } print x;").toOption.any
        fun program => program.types.entries.all fun entry => entry.all (· = .int) := by
    decide +kernel
  obtain ⟨program, accepted, integers⟩ := exists_accepted integers
  have uniform (id : ExprId) (known : StaticType) (typed : program.types.get? id = some known) : known = .int :=
    of_decide_eq_true (StaticTypes.all_of_entries integers typed)
  have clear : program.types.Clear := by
    intro id type typed
    cases uniform id type typed
    exact nofun
  have stable := stableScopes_of_uniform (accepted_of_source accepted) uniform
  exact ⟨program, accepted, fun steps sink => (run_type_safe accepted (by decide +kernel) clear stable steps sink).2⟩

/-- In stable scopes, no run meets operands of unsupported types or a condition that is neither true nor false. -/
theorem run_never_unsupported (accepted : Program.ofSource source = .ok program)
    (size : source.utf8ByteSize ≤ Value.maxTextBytes) (clear : program.types.Clear) (stable : program.StableScopes)
    (steps : Nat) (sink : Sink) (failure : Failure)
    (failed : (program.tree.run steps sink).outcome = .error (.failed failure)) :
    (∀ operator left right, failure.fault ≠ .unsupported operator left right) ∧
      (∀ operator operand, failure.fault ≠ .unsupportedUnary operator operand) ∧
      ∀ typeName, failure.fault ≠ .invalidCondition typeName := by
  have reliable := reliable_of_source accepted size clear
  have accepted := accepted_of_source accepted
  have unforeseen := run_ends accepted (accepted.sound_fitting reliable stable) steps sink failed
  refine ⟨fun _ _ _ same => ?_, fun _ _ same => ?_, fun _ same => ?_⟩
  · rw [same] at unforeseen
    exact unforeseen
  · rw [same] at unforeseen
    exact unforeseen
  · rw [same] at unforeseen
    exact unforeseen

/-- A variable that is a text is declared anew, as an integer, in a branch that no run takes. -/
theorem skippedBranch_unsupported :
    ∃ program, Program.ofSource "x = \"a\"; if (1 == 2) { x = 1; } y = x - 1;" = .ok program ∧
      program.types.Clear ∧ ∃ failure, (program.tree.run 4 {}).outcome = .error (.failed failure) ∧
        failure.fault = .unsupported "-" "string" "int" := by
  have stopped : (Program.ofSource "x = \"a\"; if (1 == 2) { x = 1; } y = x - 1;").toOption.any fun program =>
      (program.types.entries.all fun entry => entry.all (·.tag ≠ .unknown)) &&
        (match (program.tree.run 4 {}).outcome with
        | .error (.failed failure) => failure.fault = .unsupported "-" "string" "int"
        | _ => false) := by
    decide +kernel
  obtain ⟨program, accepted, stopped⟩ := exists_accepted stopped
  obtain ⟨clear, stopped⟩ := (Bool.and_eq_true _ _).mp stopped
  refine ⟨program, accepted, fun id type typed => ?_, ?_⟩
  · exact of_decide_eq_true (StaticTypes.all_of_entries clear typed)
  · split at stopped
    · next failure outcome => exact ⟨failure, outcome, of_decide_eq_true stopped⟩
    · cases stopped

/-- A branch and a loop that change a number of the program to another number. -/
theorem countDown_never_unsupported :
    ∃ program, Program.ofSource "x = 9; if (x - 3) { x = x - 1; } while (x) { x -= 1; y = -x; } print x;" =
        .ok program ∧
      ∀ steps sink failure, (program.tree.run steps sink).outcome = .error (.failed failure) →
        ∀ operator left right, failure.fault ≠ .unsupported operator left right := by
  have integers : (Program.ofSource
      "x = 9; if (x - 3) { x = x - 1; } while (x) { x -= 1; y = -x; } print x;").toOption.any
        fun program => program.types.entries.all fun entry => entry.all (· = .int) := by
    decide +kernel
  obtain ⟨program, accepted, integers⟩ := exists_accepted integers
  have uniform (id : ExprId) (known : StaticType) (typed : program.types.get? id = some known) : known = .int :=
    of_decide_eq_true (StaticTypes.all_of_entries integers typed)
  have clear : program.types.Clear := by
    intro id type typed
    cases uniform id type typed
    exact nofun
  have stable := stableScopes_of_uniform (accepted_of_source accepted) uniform
  exact ⟨program, accepted, fun steps sink failure failed =>
    (run_never_unsupported accepted (by decide +kernel) clear stable steps sink failure failed).1⟩

end

end MatrixScript
