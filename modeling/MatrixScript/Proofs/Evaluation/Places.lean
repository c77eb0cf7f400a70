import MatrixScript.Proofs.Evaluation.Walk
import MatrixScript.Proofs.Grammar.WellFormed
import MatrixScript.Proofs.Source.Lines

/-! Where failures are.

A run fails at the start of a node of its tree, and the nodes start where tokens do. So the failures of a run are at
places of its source, like those of scanning and parsing it.
-/

set_option autoImplicit false

namespace MatrixScript

/-- Wherever the action fails, that is at a place. -/
def FailsAt {α : Type} (place : Position → Prop) (action : Run α) : Prop :=
  ∀ machine failure later, action machine = .error (.failed failure) later → place failure.position

namespace FailsAt

variable {α β : Type} {place : Position → Prop}

theorem of_ok {action : Run α} (done : ∀ machine, ∃ value later, action machine = .ok value later) :
    FailsAt place action := by
  intro machine failure later failed
  obtain ⟨value, after, ended⟩ := done machine
  rw [ended] at failed
  cases failed

theorem pure (value : α) : FailsAt place (pure value) := of_ok fun machine => ⟨value, machine, rfl⟩

theorem readVariable (name : String) : FailsAt place (Execution.readVariable name) := of_ok fun _ => ⟨_, _, rfl⟩

theorem bindName (name : String) (value : Value) : FailsAt place (Execution.bind name value) :=
  of_ok fun _ => ⟨_, _, rfl⟩

theorem unfinished : FailsAt place (throw .unfinished : Run α) := by
  intro machine failure later failed
  cases failed

theorem fail {position : Position} (here : place position) (fault : Fault) :
    FailsAt place (Execution.fail position fault : Run α) := by
  intro machine failure later failed
  cases failed
  exact here

theorem locate {position : Position} (here : place position) (outcome : Except Fault α) :
    FailsAt place (locate position outcome : Run α) := by
  cases outcome with
  | ok value => exact .pure value
  | error fault => exact .fail here fault

theorem bind {action : Run α} {next : α → Run β} (first : FailsAt place action)
    (second : ∀ value, FailsAt place (next value)) : FailsAt place (action >>= next) := by
  intro machine failure later failed
  rw [Execution.bind_apply] at failed
  cases outcome : action machine with
  | ok value between =>
    rw [outcome] at failed
    exact second value between failure later failed
  | error stop between =>
    rw [outcome] at failed
    cases failed
    exact first machine failure later outcome

theorem inScope {body : Run α} (label : String) (fails : FailsAt place body) :
    FailsAt place (Execution.inScope label body) := by
  intro machine failure later failed
  unfold Execution.inScope at failed
  cases outcome : body { machine with memory := machine.memory.enter label } with
  | ok value between =>
    rw [outcome] at failed
    cases failed
  | error stop between =>
    rw [outcome] at failed
    cases failed
    exact fails _ failure between outcome

theorem mapM {action : β → Run α} {items : List β} (each : ∀ item ∈ items, FailsAt place (action item)) :
    FailsAt place (items.mapM action) := by
  induction items with
  | nil => exact .pure _
  | cons item rest ih =>
    rw [List.mapM_cons]
    refine (each item List.mem_cons_self).bind fun value => ?_
    exact (ih fun other member => each other (List.mem_cons_of_mem _ member)).bind fun values => .pure _

theorem closed : Execution.Closed fun {α} => @FailsAt α place where
  pure := pure
  unfinished := unfinished
  bind := bind
  inScope := inScope
  counter name _ := bindName name _

end FailsAt

/-- The nodes of a tree start at places, and so do all expressions that they refer to. -/
structure Tree.Sited (place : Position → Prop) (tree : Tree) : Prop where
  exprs : ∀ id expr, tree.expr? id = some expr →
    place expr.span.start ∧ ∀ child ∈ expr.kind.children, place (tree.exprStart child)
  stmts : ∀ id stmt, tree.stmt? id = some stmt →
    place stmt.span.start ∧ ∀ expr ∈ stmt.kind.exprs, place (tree.exprStart expr)

theorem Tree.Sited.kind {place : Position → Prop} {tree : Tree} (sited : tree.Sited place) {id : ExprId}
    {kind : ExprKind} (node : tree.kind? id = some kind) : ∀ child ∈ kind.children, place (tree.exprStart child) := by
  obtain ⟨span, found⟩ := Typing.expr?_of_kind node
  exact (sited.exprs id _ found).2

namespace Evaluation

variable {tree : Tree} {place : Position → Prop} {operand : ExprId → Run Value}
  (operands : ∀ id, FailsAt place (operand id))
include operands

theorem integer_failsAt {id : ExprId} (here : place (tree.exprStart id)) :
    FailsAt place (integer tree operand id) := by
  refine (operands id).bind fun value => ?_
  cases value with
  | int number => exact .pure number
  | float _ | text _ | bool _ | matrix _ => exact .locate here _

theorem bounds_failsAt {start stop : ExprId} (first : place (tree.exprStart start))
    (last : place (tree.exprStart stop)) : FailsAt place (bounds tree operand start stop) :=
  (integer_failsAt operands first).bind fun _ => (integer_failsAt operands last).bind fun _ => .pure _

theorem dimension_failsAt (function : Builtin) {id : ExprId} (here : place (tree.exprStart id)) :
    FailsAt place (dimension tree operand function id) := by
  refine (operands id).bind fun value => ?_
  cases value with
  | int size =>
    dsimp only
    split
    · exact .pure _
    · exact .locate here _
  | float _ | text _ | bool _ | matrix _ => exact .locate here _

omit operands in
theorem rowOf_failsAt {id : ExprId} (here : place (tree.exprStart id)) (value : Value) :
    FailsAt place (rowOf tree id value : Run Matrix) := by
  cases value with
  | matrix row =>
    unfold rowOf
    dsimp only
    split
    · exact .pure _
    · exact .locate here _
  | int _ | float _ | text _ | bool _ => exact .locate here (.error _)

section

variable (sited : tree.Sited place)
include sited

theorem selector_failsAt {id : ExprId} (here : place (tree.exprStart id)) :
    FailsAt place (selector tree operand id) := by
  unfold selector
  split
  · next start stop node =>
    have children := sited.kind node
    refine (bounds_failsAt operands (children start ?_) (children stop ?_)).bind fun _ => .pure _
    · simp [ExprKind.children, ExprKind.operands]
    · simp [ExprKind.children, ExprKind.operands]
  · exact (integer_failsAt operands here).bind fun _ => .pure _

theorem selectors_failsAt {ids : List ExprId} (here : ∀ id ∈ ids, place (tree.exprStart id)) :
    FailsAt place (selectors tree operand ids) :=
  .mapM fun id member => selector_failsAt operands sited (here id member)

omit sited in
theorem arrayLiteral_failsAt {position : Position} (start : place position) {items : List ExprId}
    (here : ∀ id ∈ items, place (tree.exprStart id)) : FailsAt place (arrayLiteral tree operand position items) := by
  refine (FailsAt.mapM fun id _ => operands id).bind fun values => ?_
  split
  · exact (FailsAt.locate start _).bind fun _ => .pure _
  · refine (FailsAt.mapM fun pair member => ?_).bind fun rows => (FailsAt.locate start _).bind fun _ => .pure _
    exact rowOf_failsAt (here pair.1 (List.of_mem_zip member).1) pair.2

omit sited in
theorem builtin_failsAt {position : Position} (start : place position) (function : Builtin) {arguments : List ExprId}
    (here : ∀ id ∈ arguments, place (tree.exprStart id)) :
    FailsAt place (builtin tree operand position function arguments) := by
  refine (FailsAt.mapM fun id member => dimension_failsAt operands function (here id member)).bind fun dims => ?_
  split
  · exact (FailsAt.locate start _).bind fun _ => .pure _
  · exact (FailsAt.locate start _).bind fun _ => .pure _
  · exact .locate start _

theorem node_failsAt {id : ExprId} {expr : Expr} (found : tree.expr? id = some expr) :
    FailsAt place (node tree Execution.readVariable operand expr) := by
  obtain ⟨start, children⟩ := sited.exprs id expr found
  obtain ⟨kind, span⟩ := expr
  have operandStart : ∀ child ∈ kind.operands, place (tree.exprStart child) := fun child member =>
    children child (List.mem_append_left _ member)
  have indexStart : ∀ child ∈ kind.indices, place (tree.exprStart child) := fun child member =>
    children child (List.mem_append_right _ member)
  cases kind with
  | int _ | float _ | text _ => exact .pure _
  | array items => exact arrayLiteral_failsAt operands start operandStart
  | name name =>
    refine (FailsAt.readVariable name).bind fun found => ?_
    cases found with
    | some value => exact .pure value
    | none => exact .locate start _
  | indexed base indices =>
    refine (operands base).bind fun value => ?_
    exact (selectors_failsAt operands sited indexStart).bind fun _ => .locate start _
  | linear left op right | elementwise left op right | compare left op right =>
    exact (operands left).bind fun _ => (operands right).bind fun _ => .locate start _
  | negate inner | transpose inner => exact (operands inner).bind fun _ => .locate start _
  | builtin function arguments =>
    exact builtin_failsAt operands start function operandStart
  | range _ _ => exact .locate start (.error _)

omit operands in
theorem valueWithin_failsAt (depth : Nat) (id : ExprId) :
    FailsAt place (valueWithin tree Execution.readVariable depth id) := by
  induction depth generalizing id with
  | zero => exact .unfinished
  | succ depth ih =>
    unfold valueWithin
    cases found : tree.expr? id with
    | none => exact .unfinished
    | some expr => exact node_failsAt ih sited found

end

end Evaluation

namespace Execution

theorem printLine_failsAt {place : Position → Prop} {position : Position} (start : place position) (line : String) :
    FailsAt place (printLine line position) := by
  unfold printLine
  refine (FailsAt.of_ok fun _ => ⟨_, _, rfl⟩).bind fun complete => ?_
  cases complete with
  | true => exact .pure ()
  | false => exact .fail start _

theorem changeAt_failsAt {place : Position → Prop} {position : Position} (start : place position) (name : String)
    (change : Change Fault Value Unit) : FailsAt place (changeAt position name change) := by
  refine (FailsAt.readVariable name).bind fun found => ?_
  cases found with
  | none => exact .fail start _
  | some current =>
    dsimp only
    cases change current with
    | ok value updated => exact .bindName name updated
    | error fault left => exact (FailsAt.bindName name left).bind fun _ => .fail start fault

section

variable {place : Position → Prop} {tree : Tree} (sited : tree.Sited place)
include sited

theorem valueOf_failsAt (id : ExprId) : FailsAt place (valueOf tree id) :=
  Evaluation.valueWithin_failsAt sited _ id

theorem valuesOf_failsAt (ids : List ExprId) : FailsAt place (valuesOf tree ids) :=
  .mapM fun id _ => valueOf_failsAt sited id

theorem holds_failsAt {condition : ExprId} (start : place (tree.exprStart condition)) :
    FailsAt place (holds tree condition) := by
  refine (valueOf_failsAt sited condition).bind fun value => ?_
  cases value.truth? with
  | some truth => exact .pure truth
  | none => exact .fail start _

theorem assignTo_failsAt {target : ExprId} (start : place (tree.exprStart target)) (value : Value) :
    FailsAt place (assignTo tree target value) := by
  unfold assignTo
  split
  · exact .bindName _ value
  · next base indices node =>
    have base : place (tree.exprStart base) := sited.kind node base List.mem_cons_self
    have indices : ∀ id ∈ indices, place (tree.exprStart id) := fun id member =>
      sited.kind node id (List.mem_append_right _ member)
    split
    · refine (Evaluation.selectors_failsAt (valueOf_failsAt sited) sited indices).bind fun selected => ?_
      exact changeAt_failsAt start _ _
    · exact .fail base _
  · exact .fail start _

theorem assign_failsAt {target : ExprId} (start : place (tree.exprStart target)) (op : Assign) (value : ExprId) :
    FailsAt place (assign tree target op value) := by
  refine (valueOf_failsAt sited value).bind fun right => ?_
  cases op with
  | plain => exact assignTo_failsAt sited start right
  | compound op =>
    refine (valueOf_failsAt sited target).bind fun left => ?_
    exact (FailsAt.locate start _).bind fun combined => assignTo_failsAt sited start combined

theorem loopBounds_failsAt {range : ExprId} (start : place (tree.exprStart range)) :
    FailsAt place (loopBounds tree range) := by
  unfold loopBounds
  split
  · next first last node =>
    have bound := sited.kind node
    exact Evaluation.bounds_failsAt (valueOf_failsAt sited) (bound first List.mem_cons_self)
      (bound last (List.mem_cons_of_mem _ List.mem_cons_self))
  · exact .fail start _

theorem parts_failAt {id : StmtId} {stmt : Stmt} (found : tree.stmt? id = some stmt) :
    Parts (fun {α} => @FailsAt α place) tree stmt := by
  obtain ⟨start, exprs⟩ := sited.stmts id stmt found
  obtain ⟨kind, span⟩ := stmt
  cases kind with
  | assign target op value => exact assign_failsAt sited (exprs target List.mem_cons_self) op value
  | forRange name range body => exact loopBounds_failsAt sited (exprs range List.mem_cons_self)
  | whileLoop condition body => exact holds_failsAt sited (exprs condition List.mem_cons_self)
  | branch condition thenBody elseBody => exact holds_failsAt sited (exprs condition List.mem_cons_self)
  | giveBack values => exact valuesOf_failsAt sited values
  | print values => exact ⟨valuesOf_failsAt sited values, printLine_failsAt start⟩
  | block _ | breakLoop | continueLoop => trivial

end

end Execution

theorem Tree.Sited.run_failsAt {place : Position → Prop} {tree : Tree} (sited : tree.Sited place) {steps : Nat}
    {sink : Sink} {failure : Failure} (failed : (tree.run steps sink).outcome = .error (.failed failure)) :
    place failure.position := by
  have fails : FailsAt place (runBody tree steps) :=
    runBody_walk FailsAt.closed (fun id stmt _ found => Execution.parts_failAt sited found) steps
  obtain ⟨later, failed⟩ := Tree.run_eq_error failed
  exact fails { sink } failure later failed

/-- What the tree of a program refers to is there, so it starts at a place like all nodes. -/
theorem Tree.Represents.sited {place : Position → Prop} {tree : Tree} {phrases : List Grammar.Phrase}
    (represents : tree.Represents phrases) (lawful : tree.Lawful place) : tree.Sited place := by
  -- a missing node would start at no place, but every reference is the id of a node
  have starts : ∀ id ∈ tree.exprReferences, place (tree.exprStart id) := by
    intro id member
    obtain ⟨index, inside, rfl⟩ := List.mem_map.mp (represents.exprs_once.subset member)
    have inside := List.mem_range.mp inside
    have found : tree.expr? ⟨index⟩ = some tree.exprs[index] := Array.getElem?_eq_getElem inside
    have start := (lawful.exprs _ _ found).start
    rw [Tree.exprStart, Tree.exprSpan, found]
    exact start
  constructor
  case exprs =>
    intro id expr found
    refine ⟨(lawful.exprs id expr found).start, fun child member => starts child (List.mem_append_left _ ?_)⟩
    exact List.mem_flatMap.mpr ⟨expr, Array.mem_toList_iff.mpr (Array.mem_of_getElem? found), member⟩
  case stmts =>
    intro id stmt found
    refine ⟨(lawful.stmts id stmt found).start, fun expr member => starts expr (List.mem_append_right _ ?_)⟩
    exact List.mem_flatMap.mpr ⟨stmt, Array.mem_toList_iff.mpr (Array.mem_of_getElem? found), member⟩

/-- The failures that a source can lead to. A program is run whether it was checked or not. -/
inductive Raises (source : String) : Failure → Prop where
  | scanning {failure : Failure} : scan source = .error failure → Raises source failure
  | parsing {tokens : List Token} {failure : Failure} :
      scan source = .ok tokens → parse tokens = .error failure → Raises source failure
  | running {tree : Tree} {steps : Nat} {sink : Sink} {failure : Failure} :
      Tree.ofSource source = .ok tree → (tree.run steps sink).outcome = .error (.failed failure) →
        Raises source failure

theorem Raises.placeIn {source : String} {failure : Failure} (raises : Raises source failure) :
    PlaceIn source.toList failure.position := by
  cases raises with
  | scanning failed =>
    have accounts := scan_accounts source
    rw [failed] at accounts
    obtain ⟨before, c, after, _, split, rfl, _⟩ := accounts
    exact ⟨before, c :: after, split, rfl⟩
  | parsing scanned failed =>
    have lawful := parse_lawful (scan_lawful scanned)
    rw [failed] at lawful
    exact lawful
  | running read failed =>
    obtain ⟨tokens, scanned, parsed⟩ := Tree.ofSource_eq_ok read
    obtain ⟨phrases, represents, _⟩ := parse_represents parsed
    have lawful := parse_lawful (scan_lawful scanned)
    rw [parsed] at lawful
    exact (represents.sited lawful).run_failsAt failed

/-- Wherever a failure comes from, its line is the number of newlines in front of its offset and one, and the line that
is shown for its offset is that one, with the place of the offset in it. No line is shown exactly for the end of the
source. -/
theorem failures_agree_with_lines (source : String) (failure : Failure) (raises : Raises source failure) :
    failure.position.Agrees source :=
  raises.placeIn.agrees

/-- A division in the body of a loop, behind a character of two bytes. Its divisor is zero in the second round. -/
theorem division_agrees_with_lines :
    ∃ failure, Raises "x = 2;\nfor i = 0 : 3\n  print \"é\", x / (1 - i);\n" failure ∧
      failure.position = ⟨35, 3⟩ ∧
      failure.position.Agrees "x = 2;\nfor i = 0 : 3\n  print \"é\", x / (1 - i);\n" := by
  obtain ⟨tree, read, stopped⟩ := @exists_ok _ _
    (Tree.ofSource "x = 2;\nfor i = 0 : 3\n  print \"é\", x / (1 - i);\n")
    (fun tree => match (tree.run 9 {}).outcome with
      | .error (.failed failure) => failure.position = ⟨35, 3⟩
      | _ => false) (by decide +kernel)
  split at stopped
  · next failure failed =>
    have raises : Raises _ failure := .running read failed
    exact ⟨failure, raises, of_decide_eq_true stopped, failures_agree_with_lines _ failure raises⟩
  · cases stopped

end MatrixScript
