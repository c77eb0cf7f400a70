import MatrixScript.Proofs.Scope.Agreement
import MatrixScript.Proofs.Typing.Judgement

/-! The states in which the checker comes to the statements of a program. -/

set_option autoImplicit false

namespace MatrixScript.Typing

open Check Grammar

def enter (label : String) (loops : Nat) (checker : Checker) : Checker :=
  { checker with declared := checker.declared.push label, loopDepth := checker.loopDepth + loops }

def leave (loops : Nat) (checker : Checker) : Checker :=
  { checker with declared := checker.declared.pop.2, loopDepth := checker.loopDepth - loops }

section

variable (tree : Tree)

/-- Checking a statement in one state takes the checker to a statement right inside it in another. -/
inductive Enters (depth : Nat) (stmt : Stmt) (checker : Checker) : StmtId → Checker → Prop where
  | block {before after : List StmtId} {next : StmtId} :
      stmt.kind = .block (before ++ next :: after) →
        Enters depth stmt checker next (before.forM (checkWithin tree depth) checker).2
  | forRange {name : String} {range : ExprId} {body : StmtId} :
      stmt.kind = .forRange name range body →
        Enters depth stmt checker body
          (declareCounter tree stmt.span.start.line name range (enter "loop" 1 (typeOf tree range checker).2)).2
  | whileLoop {condition : ExprId} {body : StmtId} :
      stmt.kind = .whileLoop condition body →
        Enters depth stmt checker body (enter "loop" 1 (checkCondition tree condition checker).2)
  | thenBody {condition : ExprId} {body : StmtId} {elseBody : Option StmtId} :
      stmt.kind = .branch condition body elseBody →
        Enters depth stmt checker body (enter "if" 0 (checkCondition tree condition checker).2)
  | elseBody {condition : ExprId} {thenBody body : StmtId} :
      stmt.kind = .branch condition thenBody (some body) →
        Enters depth stmt checker body (enter "else" 0 (leave 0
          (checkWithin tree depth thenBody (enter "if" 0 (checkCondition tree condition checker).2)).2))

/-- The checker comes to a statement of the program, which it may nest `depth` deep. -/
inductive Visited : Nat → StmtId → Checker → Prop where
  | program {before after : List StmtId} {next : StmtId} :
      tree.body = before ++ next :: after →
        Visited (tree.stmts.size + 1) next (before.forM (checkStatement tree) (.start tree)).2
  | inside {depth : Nat} {id next : StmtId} {stmt : Stmt} {checker later : Checker} :
      Visited (depth + 1) id checker → tree.stmt? id = some stmt → Enters tree depth stmt checker next later →
        Visited depth next later

end

section

variable {tree : Tree}

theorem checkWithin_apply {id : StmtId} {stmt : Stmt} (found : tree.stmt? id = some stmt) (depth : Nat) :
    checkWithin tree (depth + 1) id = checkNode tree (checkWithin tree depth) stmt := by
  rw [checkWithin, found]

variable (statement : StmtId → Check Unit) (span : Span) (checker : Checker)

theorem checkNode_forRange (name : String) (range : ExprId) (body : StmtId) :
    (checkNode tree statement ⟨.forRange name range body, span⟩ checker).2 =
      leave 1 (statement body
        (declareCounter tree span.start.line name range (enter "loop" 1 (typeOf tree range checker).2)).2).2 := rfl

theorem checkNode_whileLoop (condition : ExprId) (body : StmtId) :
    (checkNode tree statement ⟨.whileLoop condition body, span⟩ checker).2 =
      leave 1 (statement body (enter "loop" 1 (checkCondition tree condition checker).2)).2 := rfl

theorem checkNode_branch (condition : ExprId) (thenBody : StmtId) :
    (checkNode tree statement ⟨.branch condition thenBody none, span⟩ checker).2 =
      leave 0 (statement thenBody (enter "if" 0 (checkCondition tree condition checker).2)).2 := rfl

theorem checkNode_branchElse (condition : ExprId) (thenBody body : StmtId) :
    (checkNode tree statement ⟨.branch condition thenBody (some body), span⟩ checker).2 =
      leave 0 (statement body (enter "else" 0 (leave 0
        (statement thenBody (enter "if" 0 (checkCondition tree condition checker).2)).2))).2 := rfl

theorem forM_cons (id : StmtId) (rest : List StmtId) :
    (id :: rest).forM statement checker = rest.forM statement (statement id checker).2 := rfl

theorem forM_append (before after : List StmtId) :
    (before ++ after).forM statement checker = after.forM statement (before.forM statement checker).2 := by
  induction before generalizing checker with
  | nil => rfl
  | cons id rest ih => rw [List.cons_append, forM_cons, forM_cons, ih]

end

/-- Checking a statement adds types and findings and keeps the scopes around the current one. -/
structure Advances (before after : Checker) : Prop where
  types : before.types.Extends after.types
  findings : before.findings.toList <+: after.findings.toList
  outer : after.declared.outer = before.declared.outer

namespace Advances

theorem refl (checker : Checker) : Advances checker checker :=
  ⟨.refl _, List.prefix_refl _, rfl⟩

theorem trans {first second third : Checker} (earlier : Advances first second) (later : Advances second third) :
    Advances first third :=
  ⟨earlier.types.trans later.types, earlier.findings.trans later.findings, later.outer.trans earlier.outer⟩

end Advances

theorem advances_of_extends {before after : Checker} (extended : before.Extends after) : Advances before after :=
  ⟨extended.types, extended.findings, by rw [extended.declared]⟩

/-- The checker is ready for expressions whose nodes lie from `place` on. -/
structure Ready (place : Nat) (checker : Checker) : Prop where
  recorded : Recorded checker
  fresh : ∀ id : ExprId, place ≤ id.index → checker.types.get? id = none

def Carries {α : Type} (lo hi : Nat) (action : Check α) : Prop :=
  ∀ checker, Ready lo checker → Advances checker (action checker).2 ∧ Ready hi (action checker).2

section

variable {tree : Tree} {α β : Type} {lo mid hi : Nat}

theorem Carries.bind {action : Check α} {next : α → Check β} (first : Carries lo mid action)
    (second : ∀ value, Carries mid hi (next value)) : Carries lo hi (action >>= next) := by
  intro checker ready
  obtain ⟨earlier, ready⟩ := first checker ready
  obtain ⟨later, ready⟩ := second _ _ ready
  exact ⟨earlier.trans later, ready⟩

theorem Carries.pure (value : α) : Carries lo lo (Pure.pure value : Check α) :=
  fun checker ready => ⟨.refl checker, ready⟩

theorem Carries.report (line : Nat) (problem : Problem) : Carries lo lo (Check.report line problem) :=
  fun checker ready => ⟨advances_of_extends (.report checker line problem), ready.recorded, ready.fresh⟩

theorem Fills.carries {action : Check α} (fills : Fills tree lo mid action) {place : Nat} (above : mid ≤ place) :
    Carries place place action := by
  intro checker ready
  have extended := fills.extended checker ready.recorded
  refine ⟨advances_of_extends extended, ready.recorded.extend extended, fun id beyond => ?_⟩
  rw [fills.confined checker ready.recorded id (by omega)]
  exact ready.fresh id beyond

theorem Ready.raise {checker : Checker} (ready : Ready lo checker) (le : lo ≤ hi) : Ready hi checker :=
  ⟨ready.recorded, fun id above => ready.fresh id (Nat.le_trans le above)⟩

theorem Carries.lower {action : Check α} (carries : Carries hi hi action) (le : lo ≤ hi) : Carries lo hi action :=
  fun checker ready => carries checker (ready.raise le)

theorem checkCondition_mirrors {condition : ExprId} {term : Term} (layout : ExprLayout tree lo hi condition term) :
    Mirrors tree lo hi (checkCondition tree condition) fun later =>
      ask later condition >>= fun type =>
        if isConditionTag type.tag then pure () else report (tree.exprStart condition).line (.conditionType type.tag) := by
  refine (typeOf_mirrors layout).then (fun type => ?_) (Nat.le_of_lt layout.lt)
  dsimp only
  split
  · exact .pure _
  · exact .report _ _

theorem checkCondition_carries {condition : ExprId} {term : Term} (layout : ExprLayout tree lo hi condition term) :
    Carries lo hi (checkCondition tree condition) :=
  ((checkCondition_mirrors layout).toFills.carries (Nat.le_refl _)).lower (Nat.le_of_lt layout.lt)

end

theorem Ready.enter {place : Nat} {checker : Checker} (ready : Ready place checker) (label : String) (loops : Nat) :
    Ready place (enter label loops checker) :=
  ⟨ready.recorded, ready.fresh⟩

theorem Advances.leave {checker after : Checker} {label : String} {loops place : Nat}
    (inside : Advances (enter label loops checker) after) (ready : Ready place after) :
    Advances checker (leave loops after) ∧ Ready place (leave loops after) := by
  have some : after.declared.outer = checker.declared.innermost :: checker.declared.outer := inside.outer
  have scopes := after.declared.scopes_pop some
  rw [some] at scopes
  refine ⟨⟨inside.types, inside.findings, (List.cons.inj scopes).2⟩, fun name producer found => ?_, ready.fresh⟩
  have found : after.declared.outside? name = _ := (after.declared.lookup?_pop some name).symm.trans found
  unfold Declarations.outside? at found
  split at found
  · cases found
  · exact ready.recorded name producer found

theorem Ready.declare {place : Nat} {checker : Checker} (ready : Ready place checker) {name : String}
    {producer : ExprId} (typed : (checker.types.get? producer).isSome) :
    Advances checker (Check.declare name producer checker).2 ∧ Ready place (Check.declare name producer checker).2 := by
  refine ⟨⟨.refl _, List.prefix_refl _, checker.declared.outer_declare name producer⟩, ?_, ready.fresh⟩
  intro other known found
  simp only [declare_apply, Declarations.lookup?_declare] at found
  split at found
  · cases found
    exact typed
  · exact ready.recorded other known found

theorem Ready.report {place : Nat} {checker : Checker} (ready : Ready place checker) (line : Nat) (problem : Problem) :
    Advances checker (Check.report line problem checker).2 ∧ Ready place (Check.report line problem checker).2 :=
  Carries.report line problem checker ready

section

variable {tree : Tree} {checker : Checker} {line place : Nat} {name : String} {value : ExprId} {tag : Tag}

theorem assignName_plain :
    assignName tree line name .plain value tag checker =
      if tag = .bool ∨ tag = .range then report line (.rightSide tag) checker else declare name value checker := by
  cases tag <;> rfl

theorem assignName_undeclared {op : Arith} (undeclared : checker.declared.lookup? name = none) :
    assignName tree line name (.compound op) value tag checker = report line (.undeclared name) checker := by
  rw [assignName, bind_apply, declared?_apply, undeclared]

/-- A compound assignment declares the name again when its type changes. -/
theorem assignName_compound {op : Arith} {producer : ExprId} {type : StaticType}
    (found : checker.declared.lookup? name = some producer) (typed : checker.types.get? producer = some type) :
    assignName tree line name (.compound op) value tag checker =
      (match Compatibility.numeric op [.type type.tag, .type tag] with
      | .type result => if result ≠ type.tag then declare name value else pure ()
      | .bind => pure ()
      | _ => report line (.cannotAssign (.compound op) tag (.type type.tag))) checker := by
  rw [assignName, bind_apply, declared?_apply, found]
  simp only
  rw [bind_apply, typeOf, typeWithin_of_recorded typed]
  rfl

theorem assignName_cases {motive : Unit × Checker → Prop} {op : Assign} (recorded : Recorded checker)
    (refused : ∀ problem, motive (report line problem checker)) (bound : motive (declare name value checker))
    (kept : motive ((), checker)) : motive (assignName tree line name op value tag checker) := by
  cases op with
  | plain =>
    rw [assignName_plain]
    split
    · exact refused _
    · exact bound
  | compound op =>
    cases found : checker.declared.lookup? name with
    | none =>
      rw [assignName_undeclared found]
      exact refused _
    | some producer =>
      obtain ⟨type, known⟩ := Option.isSome_iff_exists.mp (recorded name producer found)
      rw [assignName_compound found known]
      generalize Compatibility.numeric op [.type type.tag, .type tag] = verdict
      cases verdict with
      | type result =>
        by_cases changed : result ≠ type.tag
        · simp only [if_pos changed]
          exact bound
        · simp only [if_neg changed]
          exact kept
      | bind => exact kept
      | unsupported | leftInvalid | rightInvalid => exact refused _

theorem assignName_ready {op : Assign} (ready : Ready place checker) (typed : (checker.types.get? value).isSome) :
    Advances checker (assignName tree line name op value tag checker).2 ∧
      Ready place (assignName tree line name op value tag checker).2 :=
  assignName_cases (motive := fun result => Advances checker result.2 ∧ Ready place result.2) ready.recorded
    (fun problem => ready.report line problem) (ready.declare typed) ⟨.refl _, ready⟩

theorem assignName_types {op : Assign} (recorded : Recorded checker) :
    (assignName tree line name op value tag checker).2.types = checker.types :=
  assignName_cases (motive := fun result => result.2.types = checker.types) recorded (fun _ => rfl) rfl rfl

end

section

variable {tree : Tree} {line lo mid hi : Nat} {target value : ExprId} {a b : Term} {op : Assign} {checker : Checker}

theorem base_of_indexed (layout : ExprLayout tree lo mid target a) {base : ExprId} {ids : List ExprId}
    (node : tree.kind? target = some (.indexed base ids)) :
    lo ≤ base.index ∧ base.index < mid ∧ ∃ known : Base, tree.kind? base = some known.kind := by
  cases layout with
  | @indexed _ hi _ _ _ known _ stretch root =>
    rw [root] at node
    cases node
    have := stretch.le (fun n => n) fun _ _ _ _ _ => IndexLayout.lt
    exact ⟨Nat.le_refl _, by show lo < hi + 1; omega, _, known⟩
  | int _ root | float _ root | text root | name root | array _ root | linear _ _ root | elementwise _ _ root
  | compare _ _ root | negate _ root | transpose _ root | builtin _ root =>
    rw [root] at node
    cases node

/-- What is found about writing a value into an indexed target, once everything has a type. -/
def indexedFinding (line : Nat) (op : Assign) (value : StaticType) (target base : StaticType) : Check Unit := do
  if base.tag = .text ∧ op ≠ .plain then
    report line .compoundSubstring
  else
    match (Operator.assign op).verdict [.indexed, .type target.tag, .type value.tag] with
    | .bind | .type _ =>
      if target.tag.isArrayLike ∧ op = .plain then
        if target.shape.rows.conflicts value.shape.rows || target.shape.cols.conflicts value.shape.cols then
          report line .assignedDimensions
    | .unsupported =>
      let destination : Destination :=
        if base.tag.isArrayLike then .arrayOf base.shape.elem.tag else .type target.tag
      report line (.cannotAssign op value.tag destination)
    | .rightInvalid => report line (.rightSide value.tag)
    | .leftInvalid => report line (.leftSide target.tag)

theorem Steady.indexedFinding (line : Nat) (op : Assign) (value target base : StaticType) :
    Steady tree (indexedFinding line op value target base) := by
  unfold Typing.indexedFinding
  split
  · exact .report _ _
  · split
    · split
      · split
        · exact .report _ _
        · exact .pure _
      · exact .pure _
    · split
      · split
        · exact .report _ _
        · exact .pure _
      · exact .pure _
    · exact .report _ _
    · exact .report _ _
    · exact .report _ _

theorem assignIndexed_text {base : ExprId} {text : String} {tag : Tag}
    (found : tree.kind? base = some (.text text)) :
    assignIndexed tree line target base op value tag checker = report line .notVariable checker := by
  unfold assignIndexed
  rw [found]

theorem assignIndexed_name {base : ExprId} {name : String} (found : tree.kind? base = some (.name name))
    {valueType baseType : StaticType}
    (valued : (typeOf tree target checker).2.types.get? value = some valueType)
    (known : (typeOf tree target checker).2.types.get? base = some baseType) :
    assignIndexed tree line target base op value valueType.tag checker =
      indexedFinding line op valueType (typeOf tree target checker).1 baseType (typeOf tree target checker).2 := by
  have asked : typeOf tree base (typeOf tree target checker).2 = (baseType, (typeOf tree target checker).2) :=
    typeWithin_of_recorded known _
  have valued : typeOf tree value (typeOf tree target checker).2 = (valueType, (typeOf tree target checker).2) :=
    typeWithin_of_recorded valued _
  unfold assignIndexed indexedFinding
  rw [found]
  simp only []
  rw [bind_apply, bind_apply, asked]
  simp only []
  by_cases substring : baseType.tag = .text ∧ op ≠ .plain
  · simp only [if_pos substring]
  · simp only [if_neg substring]
    generalize (Operator.assign op).verdict _ = verdict
    cases verdict with
    | bind | type _ =>
      by_cases whole : (typeOf tree target checker).1.tag.isArrayLike = true ∧ op = .plain
      · simp only [if_pos whole]
        rw [bind_apply, valued]
      · simp only [if_neg whole]
    | unsupported | leftInvalid | rightInvalid => rfl

theorem valued_ready (first : ExprLayout tree lo mid target a) (second : ExprLayout tree mid hi value b)
    (ready : Ready lo checker) :
    Ready hi (typeOf tree value checker).2 ∧ Fresh lo mid (typeOf tree value checker).2 := by
  have typing := (typeOf_mirrors second).toFills
  have extended := typing.extended checker ready.recorded
  have below := first.lt
  have above := second.lt
  refine ⟨⟨ready.recorded.extend extended, fun id beyond => ?_⟩, fun id inside _ => ?_⟩
  · rw [typing.confined checker ready.recorded id (by omega)]
    exact ready.fresh id (by omega)
  · rw [typing.confined checker ready.recorded id (by omega)]
    exact ready.fresh id inside

theorem checkAssignment_name {name : String} (node : tree.kind? target = some (.name name)) :
    checkAssignment tree line target op value checker =
      assignName tree line name op value (typeOf tree value checker).1.tag (typeOf tree value checker).2 := by
  rw [checkAssignment, bind_apply, node]

theorem checkAssignment_indexed {base : ExprId} {ids : List ExprId}
    (node : tree.kind? target = some (.indexed base ids)) :
    checkAssignment tree line target op value checker =
      assignIndexed tree line target base op value (typeOf tree value checker).1.tag (typeOf tree value checker).2 := by
  rw [checkAssignment, bind_apply, node]

theorem other_leftInvalid (op : Assign) (left right : Tag) :
    (Operator.assign op).verdict [.type left, .type right] = .leftInvalid := by
  cases op <;> rfl

theorem checkAssignment_other {kind : ExprKind} (node : tree.kind? target = some kind) (other : ¬kind.isLvalue) :
    checkAssignment tree line target op value checker =
      (typeOf tree target >>= fun type => report line (.leftSide type.tag)) (typeOf tree value checker).2 := by
  rw [checkAssignment, bind_apply, node]
  cases kind with
  | name _ | indexed _ _ => exact absurd rfl other
  | int | float | text | array | linear | elementwise | compare | negate | transpose | builtin | range =>
    simp only [other_leftInvalid, if_true]

/-- What becomes of an assignment once its value has been typed, by what its target is: a name, a part of a text, a part
of what a name stands for, or nothing that can be assigned to. -/
theorem checkAssignment_cases {motive : Unit × Checker → Prop} (first : ExprLayout tree lo mid target a)
    (second : ExprLayout tree mid hi value b) (ready : Ready lo checker)
    (name : ∀ name, tree.kind? target = some (.name name) →
      motive (assignName tree line name op value (typeOf tree value checker).1.tag (typeOf tree value checker).2))
    (text : ∀ base ids content, tree.kind? target = some (.indexed base ids) →
      tree.kind? base = some (.text content) → motive (report line .notVariable (typeOf tree value checker).2))
    (indexed : ∀ base ids name baseType, tree.kind? target = some (.indexed base ids) →
      tree.kind? base = some (.name name) →
      (typeOf tree target (typeOf tree value checker).2).2.types.get? base = some baseType →
      motive ((typeOf tree target >>= fun type => indexedFinding line op (typeOf tree value checker).1 type baseType)
        (typeOf tree value checker).2))
    (other : ∀ kind, tree.kind? target = some kind → ¬kind.isLvalue →
      motive ((typeOf tree target >>= fun type => report line (.leftSide type.tag)) (typeOf tree value checker).2)) :
    motive (checkAssignment tree line target op value checker) := by
  obtain ⟨ready, fresh⟩ := valued_ready first second ready
  obtain ⟨_, produced⟩ := second.node
  have valued := typeOf_held produced checker
  obtain ⟨kind, node⟩ := first.node
  by_cases assignable : kind.isLvalue
  · cases kind with
    | name word =>
      rw [checkAssignment_name node]
      exact name word node
    | indexed base ids =>
      rw [checkAssignment_indexed node]
      obtain ⟨above, below, known, found⟩ := base_of_indexed first node
      cases known with
      | text content =>
        rw [assignIndexed_text found]
        exact text base ids content node found
      | name word =>
        -- the types of the value and of the base are known by the time they are compared
        have typing := (typeOf_mirrors first).toFills
        have extended := typing.extended _ ready.recorded
        obtain ⟨baseType, typed⟩ :=
          Option.isSome_iff_exists.mp (typing.filled _ ready.recorded fresh base above below)
        rw [assignIndexed_name found (extended.types _ _ valued) typed]
        exact indexed base ids word baseType node found typed
    | _ => cases assignable
  · rw [checkAssignment_other node assignable]
    exact other kind node assignable

theorem checkAssignment_ready (first : ExprLayout tree lo mid target a) (second : ExprLayout tree mid hi value b)
    (ready : Ready lo checker) :
    Advances (typeOf tree value checker).2 (checkAssignment tree line target op value checker).2 ∧
      Ready hi (checkAssignment tree line target op value checker).2 := by
  obtain ⟨ready', _⟩ := valued_ready first second ready
  obtain ⟨_, produced⟩ := second.node
  have valued := typeOf_held produced checker
  have typing := (typeOf_mirrors first).toFills.carries (Nat.le_of_lt second.lt)
  refine checkAssignment_cases
    (motive := fun result => Advances (typeOf tree value checker).2 result.2 ∧ Ready hi result.2) first second ready
    ?name ?text ?indexed ?other
  case name => exact fun name _ => assignName_ready ready' (by rw [valued]; rfl)
  case text => exact fun _ _ _ _ _ => ready'.report _ _
  case indexed =>
    intro _ _ _ baseType _ _ _
    have whole := (typeOf_mirrors first).then (fun type =>
      .indexedFinding line op (typeOf tree value checker).1 type baseType) (Nat.le_of_lt first.lt)
    exact whole.toFills.carries (Nat.le_of_lt second.lt) _ ready'
  case other => exact fun _ _ _ => typing.bind (fun type => .report _ _) _ ready'

theorem checkAssignment_carries (first : ExprLayout tree lo mid target a) (second : ExprLayout tree mid hi value b) :
    Carries lo hi (checkAssignment tree line target op value) := by
  intro checker ready
  have earlier := advances_of_extends ((typeOf_mirrors second).extended checker ready.recorded)
  obtain ⟨later, ready⟩ := checkAssignment_ready first second ready
  exact ⟨earlier.trans later, ready⟩

end

end MatrixScript.Typing
