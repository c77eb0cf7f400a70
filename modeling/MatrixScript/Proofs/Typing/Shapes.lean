import MatrixScript.Proofs.Typing.Definite

/-! The types of a whole program are known.

The checker goes through a program once. As long as it finds nothing, every type in its table is one of which all is
known: an expression is typed from the table and from declared names, and a name is declared for a typed expression.
-/

set_option autoImplicit false

namespace MatrixScript

namespace Typing

open Check Grammar

section

variable {α : Type} {tree : Tree} {Size : Nat → Prop} {lo hi : Nat} {checker : Checker}

theorem Fills.definite {action : Check α} (fills : Fills tree lo hi action) (sized : tree.Sized Size)
    (nested : tree.Nested lo hi) (recorded : Recorded checker) (fresh : Fresh lo hi checker)
    (definite : checker.types.Definite Size) (quiet : checker.Quiet (action checker).2) :
    (action checker).2.types.Definite Size := by
  -- a node is typed by nodes in front of it, and by what was typed before them all
  intro id
  induction place : id.index using Nat.strongRecOn generalizing id with
  | ind index ih =>
    intro type typed
    by_cases within : lo ≤ id.index ∧ id.index < hi
    · obtain ⟨expr, known, found, typed', judged⟩ := fills.settled checker recorded fresh quiet id within.1 within.2
      cases typed.symm.trans typed'
      have node : tree.kind? id = some expr.kind := by
        rw [Tree.kind?, found]
        rfl
      refine (judged _ (.refl _)).definite found sized (fun child member => ?_) fun name producer declared => ?_
      · have inside := (nested id expr.kind within.1 within.2 node).operand child member
        have filled := fills.filled checker recorded fresh child inside.above (Nat.lt_trans inside.below within.2)
        obtain ⟨known, typed⟩ := Option.isSome_iff_exists.mp filled
        rw [known_of_typed typed]
        exact ih child.index (place ▸ inside.below) child rfl known typed
      · -- what a name stands for has been typed before the action
        obtain ⟨known, typed⟩ := Option.isSome_iff_exists.mp (recorded name producer declared)
        have before : ¬(lo ≤ producer.index ∧ producer.index < hi) := by
          rintro ⟨above, below⟩
          cases (fresh producer above below).symm.trans typed
        have kept := (fills.confined checker recorded producer before).trans typed
        rw [known_of_typed kept]
        exact definite producer known typed
    · rw [fills.confined checker recorded id within] at typed
      exact definite id type typed

/-- An action goes from nodes at `lo` to nodes at `hi` and types nothing that is not definite, unless it reports. -/
structure Determines (Size : Nat → Prop) (lo hi : Nat) (action : Check α) : Prop where
  carries : Carries lo hi action
  definite : ∀ checker, Ready lo checker → checker.types.Definite Size → checker.Quiet (action checker).2 →
    (action checker).2.types.Definite Size

theorem Fills.determines {action : Check α} (fills : Fills tree lo hi action) (sized : tree.Sized Size)
    (nested : tree.Nested lo hi) (le : lo ≤ hi) : Determines Size lo hi action where
  carries := (fills.carries (Nat.le_refl _)).lower le
  definite := fun _ ready => fills.definite sized nested ready.recorded (ready.freshTo _)

end

section

variable {tree : Tree} {Size : Nat → Prop} (sized : tree.Sized Size) {checker : Checker}

include sized

theorem checkAssignment_definite {line lo mid hi : Nat} {target value : ExprId} {a b : Term} {op : Assign}
    (first : ExprLayout tree lo mid target a) (second : ExprLayout tree mid hi value b) (ready : Ready lo checker)
    (definite : checker.types.Definite Size)
    (quiet : checker.Quiet (checkAssignment tree line target op value checker).2) :
    (checkAssignment tree line target op value checker).2.types.Definite Size := by
  have typing := (typeOf_mirrors second).toFills
  have extended := typing.extended checker ready.recorded
  have fresh : Fresh mid hi checker := fun id above _ => ready.fresh id (Nat.le_trans (Nat.le_of_lt first.lt) above)
  have later : Advances (typeOf tree value checker).2 (checkAssignment tree line target op value checker).2 :=
    (checkAssignment_ready first second ready).1
  -- the value is typed first, although its nodes lie behind those of the target
  obtain ⟨quiet, rest⟩ := quiet.split extended.findings later.findings
  replace definite := typing.definite sized second.nested ready.recorded fresh definite quiet
  obtain ⟨ready', fresh⟩ := valued_ready first second ready
  revert rest
  refine checkAssignment_cases
    (motive := fun result => (typeOf tree value checker).2.Quiet result.2 → result.2.types.Definite Size) first second
    ready ?name ?text ?indexed ?other
  case name =>
    intro name _ _
    rw [assignName_types ready'.recorded]
    exact definite
  case text => exact fun _ _ _ _ _ _ => definite
  case indexed =>
    intro _ _ _ baseType _ _ _ rest
    -- what is found about the target is found after it has been typed
    have whole := (typeOf_mirrors first).then (fun type =>
      .indexedFinding line op (typeOf tree value checker).1 type baseType) (Nat.le_of_lt first.lt)
    exact whole.toFills.definite sized first.nested ready'.recorded fresh definite rest
  case other =>
    intro _ _ _ rest
    have whole := (typeOf_mirrors first).then (fun type => .report line (.leftSide type.tag)) (Nat.le_of_lt first.lt)
    exact whole.toFills.definite sized first.nested ready'.recorded fresh definite rest

omit sized in
theorem declareCounter_types {range start stop : ExprId} (node : tree.kind? range = some (.range start stop))
    (line : Nat) (name : String) :
    (declareCounter tree line name range checker).2.types = checker.types := by
  rw [declareCounter_apply node]
  split <;> rfl

theorem checkCondition_determines {lo hi : Nat} {condition : ExprId} {term : Term}
    (layout : ExprLayout tree lo hi condition term) : Determines Size lo hi (checkCondition tree condition) :=
  (checkCondition_mirrors layout).toFills.determines sized layout.nested (Nat.le_of_lt layout.lt)

theorem definite_inherited : Inherited tree
    (fun _ _ _ before after => before.types.Definite Size → before.Quiet after → after.types.Definite Size)
    fun _ _ _ before after => before.types.Definite Size → before.Quiet after → after.types.Definite Size where
  nil definite _ := definite
  cons first others earlier later definite quiet := by
    obtain ⟨quiet, rest⟩ := quiet.split earlier.findings later.findings
    exact others (first definite quiet) rest
  block _ items := items
  assign target value _ ready := checkAssignment_definite sized target value ready
  forRange start stop range _ ready entered repeated inside definite quiet := by
    subst entered
    have nested := range_nested start stop range start.nested stop.nested
    obtain ⟨earlier, ready', typed⟩ := typeOf_range_ready start stop range ready
    obtain ⟨declared, _⟩ := (ready'.enter "loop" 1).declareCounter range typed _ _
    obtain ⟨quiet, rest⟩ := quiet.split earlier.findings (declared.findings.trans inside.findings)
    obtain ⟨_, rest⟩ := rest.split declared.findings inside.findings
    -- declaring the counter types nothing, so the body starts with what the range has typed
    refine repeated ?_ rest
    rw [declareCounter_types range]
    exact (typeOf_range_mirrors start stop range).toFills.definite sized nested ready.recorded (ready.freshTo _)
      definite quiet
  guarded condition _ _ ready inside later definite quiet := by
    have tested := checkCondition_determines sized condition
    obtain ⟨earlier, _⟩ := tested.carries _ ready
    obtain ⟨quiet, rest⟩ := quiet.split earlier.findings later.findings
    exact inside (tested.definite _ ready definite quiet) rest
  branchElse condition _ ready taken skipped between later definite quiet := by
    have tested := checkCondition_determines sized condition
    obtain ⟨earlier, _⟩ := tested.carries _ ready
    obtain ⟨quiet, rest⟩ := quiet.split earlier.findings (between.findings.trans later.findings)
    obtain ⟨quiet', rest⟩ := rest.split between.findings later.findings
    exact skipped (taken (tested.definite _ ready definite quiet) quiet') rest
  signal _ _ definite _ := by
    rw [stray_types]
    exact definite
  values values _ _ ready :=
    ((values_fills values).determines sized (ExprLayout.stretch_nested values)
      (ExprLayout.stretch_le values)).definite _ ready

end

end Typing

open Typing

section

variable {source : String} {program : Program} {Size : Nat → Prop}

theorem Accepted.definite (accepted : Accepted program) (sized : program.tree.Sized Size) :
    program.types.Definite Size := by
  obtain ⟨body, represents⟩ := accepted.represents
  rw [accepted.types]
  refine (definite_inherited sized).program represents (fun id type typed => ?_) accepted.quiet
  cases (StaticTypes.get?_ofSize _ id).symm.trans typed

theorem sized_of_source (accepted : Program.ofSource source = .ok program) (writes : program.tree.WritesSizes Size)
    (positive : ∀ size, 0 < size → Size size) : program.tree.Sized Size := by
  obtain ⟨tokens, tree, scanned, parsed, _, rfl⟩ := ofSource_eq_ok accepted
  have lawful := parse_lawful (scan_lawful scanned)
  rw [parsed] at lawful
  refine ⟨writes, fun id value node => ?_, positive⟩
  obtain ⟨span, found⟩ := expr?_of_kind node
  exact (lawful.exprs id _ found).unsigned value rfl

/-- Known shapes stay known. Where sizes are written as literals, no matter which, no expression of an accepted source
is left without a type or with a doubtful one, and of every array the checker knows the number of rows, the number of
columns and the type of the elements. -/
theorem known_shapes_stay_known (accepted : Program.ofSource source = .ok program)
    (writes : program.tree.WritesSizes fun _ => True) {id : ExprId} {type : StaticType}
    (typed : program.types.get? id = some type) :
    type.tag ≠ .unknown ∧ type.tag ≠ .tainted ∧ (type.tag = .array →
      ∃ rows cols elem, type.shape? = some ⟨.known rows, .known cols, elem⟩ ∧ (elem = .int ∨ elem = .float)) := by
  have sized := sized_of_source accepted writes fun _ _ => trivial
  have definite := (accepted_of_source accepted).definite sized id type typed
  refine ⟨definite.clear, definite.clean, fun array => ?_⟩
  obtain ⟨⟨rows, down, _⟩, ⟨cols, across, _⟩, elem⟩ := definite.shaped array
  unfold StaticType.shape at down across elem
  cases shape : type.shape? with
  | none =>
    rw [shape] at down
    cases down
  | some known =>
    rw [shape] at down across elem
    obtain ⟨_, _, known⟩ := known
    cases down
    cases across
    refine ⟨rows, cols, known, rfl, ?_⟩
    cases known with
    | int => exact .inl rfl
    | float => exact .inr rfl
    | unknown => exact absurd rfl elem

/-- A matrix that is filled row by row, and then turned around and taken apart. -/
theorem filledRows_stay_known :
    ∃ program, Program.ofSource
        "m = zeros(2, 3); for i = 0 : 2 m[i, 0 : 2] = [1, i]; if (m[0, 1] > 0) print m' * eye(2), [m[0], m[1]];" =
          .ok program ∧
      program.types.get? ⟨26⟩ = some (.array ⟨.known 3, .known 2, .int⟩) ∧
      ∀ id type, program.types.get? id = some type → type.tag = .array →
        ∃ rows cols elem, type.shape? = some ⟨.known rows, .known cols, elem⟩ ∧ (elem = .int ∨ elem = .float) := by
  have passes : (Program.ofSource
      "m = zeros(2, 3); for i = 0 : 2 m[i, 0 : 2] = [1, i]; if (m[0, 1] > 0) print m' * eye(2), [m[0], m[1]];"
        ).toOption.any fun program => program.types.get? ⟨26⟩ = some (.array ⟨.known 3, .known 2, .int⟩) ∧
          program.tree.WritesSizes fun _ => True := by
    decide +kernel
  obtain ⟨program, accepted, passes⟩ := exists_accepted passes
  obtain ⟨product, writes⟩ := of_decide_eq_true passes
  exact ⟨program, accepted, product, fun id type typed => (known_shapes_stay_known accepted writes typed).2.2⟩

end

end MatrixScript
