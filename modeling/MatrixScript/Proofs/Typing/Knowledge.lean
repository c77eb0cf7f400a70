import MatrixScript.Proofs.Grammar.Nesting
import MatrixScript.Proofs.Typing.Statement

/-! What is known about the expressions of a statement in an accepted program. -/

set_option autoImplicit false

namespace MatrixScript.Typing

open Check Grammar

/-- The nodes `[lo, hi)` are those of expressions, and their types follow from one another. -/
structure Understood (tree : Tree) (types : StaticTypes) (declared : Declarations ExprId) (lo hi : Nat) : Prop where
  nested : tree.Nested lo hi
  settled : ∀ id : ExprId, lo ≤ id.index → id.index < hi → Settled tree types declared id

/-- Some expressions are known, with all their nodes. -/
def Known (tree : Tree) (types : StaticTypes) (declared : Declarations ExprId) (ids : List ExprId) : Prop :=
  ∃ lo hi, Understood tree types declared lo hi ∧ ∀ id ∈ ids, tree.Placed lo hi id

section

variable {tree : Tree} {types : StaticTypes} {lo hi : Nat} {checker : Checker} {α : Type}

theorem Fills.understood {action : Check α} (fills : Fills tree lo hi action) (nested : tree.Nested lo hi)
    (recorded : Recorded checker) (fresh : Fresh lo hi checker) (quiet : checker.Quiet (action checker).2)
    (kept : (action checker).2.types.Extends types) : Understood tree types checker.declared lo hi :=
  ⟨nested, fun id above below => (fills.settled checker recorded fresh quiet id above below).extend kept⟩

theorem Understood.present {declared : Declarations ExprId} (understood : Understood tree types declared lo hi)
    (id : ExprId) (above : lo ≤ id.index) (below : id.index < hi) : ∃ expr, tree.expr? id = some expr := by
  obtain ⟨expr, _, found, _⟩ := understood.settled id above below
  exact ⟨expr, found⟩

theorem Ready.freshTo (ready : Ready lo checker) (hi : Nat) : Fresh lo hi checker :=
  fun id above _ => ready.fresh id above

theorem not_reported {line : Nat} {problem : Problem} {table : StaticTypes} {declared : Declarations ExprId}
    (silence : report line problem (silent table declared) = ((), silent table declared)) : False := by
  have size := congrArg (fun result => result.2.findings.size) silence
  simp [silent] at size

theorem Judged.name_declared {declared : Declarations ExprId} {name : String} {span : Span} {type : StaticType}
    (judged : Judged tree types declared ⟨.name name, span⟩ type) :
    ∃ producer, declared.lookup? name = some producer ∧ type = (types.get? producer).getD .unknown := by
  obtain ⟨table, judged⟩ := judged
  simp only [infer, bind_apply, declared?_apply, silent] at judged
  cases found : declared.lookup? name with
  | none =>
    rw [found] at judged
    have size := congrArg (fun result => result.2.findings.size) judged
    simp at size
  | some producer =>
    rw [found] at judged
    exact ⟨producer, rfl, (congrArg Prod.fst judged).symm⟩

theorem Known.base_declared {declared : Declarations ExprId} {target base : ExprId} {indices : List ExprId}
    {name : String} (known : Known tree types declared [target])
    (node : tree.kind? target = some (.indexed base indices)) (word : tree.kind? base = some (.name name)) :
    ∃ producer, declared.lookup? name = some producer ∧
      types.get? base = some ((types.get? producer).getD .unknown) := by
  obtain ⟨lo, hi, understood, placed⟩ := known
  have place := placed target (List.mem_singleton_self _)
  have inside := (understood.nested target _ place.above place.below node).operand base (List.mem_singleton_self _)
  obtain ⟨expr, type, found, typed, judged⟩ :=
    understood.settled base inside.above (Nat.lt_trans inside.below place.below)
  obtain ⟨span, found'⟩ := expr?_of_kind word
  cases found.symm.trans found'
  obtain ⟨producer, declared, rfl⟩ := (judged types (.refl _)).name_declared
  exact ⟨producer, declared, typed⟩

theorem checkCondition_known {condition : ExprId} {term : Term} (layout : ExprLayout tree lo hi condition term)
    (ready : Ready lo checker) (quiet : checker.Quiet (checkCondition tree condition checker).2)
    (kept : (checkCondition tree condition checker).2.types.Extends types) :
    Known tree types checker.declared [condition] ∧
      isConditionTag ((types.get? condition).getD .unknown).tag := by
  have mirrors := checkCondition_mirrors layout
  have fresh := ready.freshTo hi
  refine ⟨⟨lo, hi, mirrors.understood layout.nested ready.recorded fresh quiet kept, ?_⟩, ?_⟩
  · intro id member
    obtain rfl := List.mem_singleton.mp member
    exact layout.placed
  · have mirrored := mirrors.mirrored checker ready.recorded fresh quiet types kept types
    rw [bind_apply, ask, pure_apply] at mirrored
    by_cases holds : isConditionTag ((types.get? condition).getD .unknown).tag
    · exact holds
    · simp only [if_neg holds] at mirrored
      exact absurd mirrored not_reported

end

section

variable {tree : Tree} {types : StaticTypes} {lo hi : Mark} {depth : Nat} {id : StmtId} {checker : Checker}
  {span : Span}

theorem Sits.while_known {condition : ExprId} {body : StmtId}
    (sits : Sits tree types lo hi (depth + 1) id checker)
    (found : tree.stmt? id = some ⟨.whileLoop condition body, span⟩) :
    Known tree types checker.declared [condition] ∧
      isConditionTag ((types.get? condition).getD .unknown).tag := by
  obtain ⟨last, a, phrase, layout, inner⟩ := sits.parts found
  have quiet := sits.quiet
  have kept := sits.kept
  have deep := sits.deep
  have root : id.index = body.index + 1 := inner.root
  rw [checkWithin_apply found, checkNode_whileLoop] at quiet kept
  obtain ⟨typing, ready⟩ := checkCondition_carries layout checker sits.ready
  have inside : body.index < depth := by omega
  obtain ⟨later, _⟩ := (checkWithin_carries inner inside).scoped "loop" 1 ready
  exact checkCondition_known layout sits.ready (quiet.split typing.findings later.findings).1 (later.types.trans kept)

theorem Sits.branch_known {condition : ExprId} {thenBody : StmtId} {elseBody : Option StmtId}
    (sits : Sits tree types lo hi (depth + 1) id checker)
    (found : tree.stmt? id = some ⟨.branch condition thenBody elseBody, span⟩) :
    Known tree types checker.declared [condition] ∧
      isConditionTag ((types.get? condition).getD .unknown).tag := by
  have parts := sits.parts found
  have quiet := sits.quiet
  have kept := sits.kept
  have deep := sits.deep
  rw [checkWithin_apply found] at quiet kept
  cases elseBody with
  | none =>
    obtain ⟨last, a, phrase, layout, inner⟩ := parts
    have root : id.index = thenBody.index + 1 := inner.root
    rw [checkNode_branch] at quiet kept
    obtain ⟨typing, ready⟩ := checkCondition_carries layout checker sits.ready
    have inside : thenBody.index < depth := by omega
    obtain ⟨later, _⟩ := (checkWithin_carries inner inside).scoped "if" 0 ready
    exact checkCondition_known layout sits.ready (quiet.split typing.findings later.findings).1
      (later.types.trans kept)
  | some elseBody =>
    obtain ⟨last, middle, a, _, _, layout, first, second⟩ := parts
    have root := first.root
    have root' : id.index = elseBody.index + 1 := second.root
    have above := second.le_root
    rw [checkNode_branchElse] at quiet kept
    obtain ⟨typing, ready⟩ := checkCondition_carries layout checker sits.ready
    have inside : thenBody.index < depth := by omega
    have inside' : elseBody.index < depth := by omega
    obtain ⟨between, ready⟩ := (checkWithin_carries first inside).scoped "if" 0 ready
    obtain ⟨later, _⟩ := (checkWithin_carries second inside').scoped "else" 0 ready
    have rest := between.trans later
    exact checkCondition_known layout sits.ready (quiet.split typing.findings rest.findings).1 (rest.types.trans kept)

theorem Sits.values_known {values : List ExprId} {kind : StmtKind}
    (sits : Sits tree types lo hi (depth + 1) id checker) (found : tree.stmt? id = some ⟨kind, span⟩)
    (known : kind = .giveBack values ∨ kind = .print values) : Known tree types checker.declared values := by
  have quiet := sits.quiet
  have kept := sits.kept
  rw [checkWithin_apply found] at quiet kept
  have parts := sits.parts found
  rcases known with rfl | rfl
  all_goals
    obtain ⟨terms, stretch⟩ := parts
    exact ⟨_, _, (values_fills stretch).understood (ExprLayout.stretch_nested stretch) sits.ready.recorded
      (sits.ready.freshTo _) quiet kept, ExprLayout.stretch_placed stretch⟩

theorem Sits.range_known {name : String} {range : ExprId} {body : StmtId}
    (sits : Sits tree types lo hi (depth + 1) id checker)
    (found : tree.stmt? id = some ⟨.forRange name range body, span⟩) :
    checker.declared.lookup? name = none ∧ ∃ start stop, tree.kind? range = some (.range start stop) ∧
      Known tree types checker.declared [start, stop] ∧ Settled tree types checker.declared range := by
  obtain ⟨mid, last, start, stop, a, b, phrase, first, second, rfl, range, inner⟩ := sits.parts found
  have quiet := sits.quiet
  have kept := sits.kept
  have deep := sits.deep
  have root : id.index = body.index + 1 := inner.root
  have inside : body.index < depth := by omega
  rw [checkWithin_apply found, checkNode_forRange] at quiet kept
  obtain ⟨typing, ready, typed⟩ := typeOf_range_ready first second range sits.ready
  obtain ⟨declared, ready'⟩ := (ready.enter "loop" 1).declareCounter range typed span.start.line name
  obtain ⟨later, _⟩ := checkWithin_carries inner inside _ ready'
  have mirrors := typeOf_range_mirrors first second range
  have extended := mirrors.extended checker sits.ready.recorded
  obtain ⟨quiet, rest⟩ := quiet.split typing.findings (declared.findings.trans later.findings)
  have nested := range_nested first second range first.nested second.nested
  have understood := mirrors.understood nested sits.ready.recorded (sits.ready.freshTo _) quiet
    ((declared.types.trans later.types).trans kept)
  refine ⟨?_, start, stop, range, ⟨_, _, understood, ?_⟩, ?_⟩
  · -- a counter that was known before would have been reported
    cases known : checker.declared.lookup? name with
    | none => rfl
    | some producer =>
      have counter := (rest.split declared.findings later.findings).1
      rw [declareCounter_apply range] at counter
      have held : (enter "loop" 1 (typeOf tree ⟨last⟩ checker).2).declared.lookup? name = some producer := by
        show (typeOf tree ⟨last⟩ checker).2.declared.lookup? name = some producer
        rw [extended.declared]
        exact known
      rw [held] at counter
      exact absurd counter Checker.Quiet.not_report
  · intro id member
    exact (pair_placed first second id member).widen (Nat.le_refl _) (Nat.le_succ _)
  · exact understood.settled ⟨last⟩ (Nat.le_trans (Nat.le_of_lt first.lt) (Nat.le_of_lt second.lt)) (Nat.lt_succ_self _)

end

/-- Nothing is wrong with writing a value into an indexed target, by the types of the indexed variable, of the target and
of the value. -/
structure Writes (op : Assign) (base target value : StaticType) : Prop where
  whole : ¬(base.tag = .text ∧ op ≠ .plain)
  verdict : (Operator.assign op).verdict [.indexed, .type target.tag, .type value.tag] = .bind
  agree : target.tag.isArrayLike ∧ op = .plain →
    (target.shape.rows.conflicts value.shape.rows || target.shape.cols.conflicts value.shape.cols) = false

section

variable (tree : Tree) (types : StaticTypes) (declared : Declarations ExprId)

/-- All that a checked assignment can be, and what is declared behind it. -/
inductive Assigned (target : ExprId) : Assign → ExprId → Declarations ExprId → Prop where
  | plain {name : String} {value : ExprId} {type : StaticType} :
      tree.kind? target = some (.name name) → Known tree types declared [value] → types.get? value = some type →
        Assigned target .plain value (declared.declare name value)
  | compound {name : String} {op : Arith} {value producer : ExprId} {current type : StaticType} {result : Tag} :
      tree.kind? target = some (.name name) → Known tree types declared [value] →
        declared.lookup? name = some producer → types.get? producer = some current → types.get? value = some type →
        Compatibility.numeric op [.type current.tag, .type type.tag] = .type result →
        Assigned target (.compound op) value
          (if result ≠ current.tag then declared.declare name value else declared)
  | indexed {base value : ExprId} {indices : List ExprId} {name : String} {op : Assign}
      {type targetType baseType : StaticType} :
      tree.kind? target = some (.indexed base indices) → tree.kind? base = some (.name name) →
        Known tree types declared [value] → Known tree types declared [target] → types.get? value = some type →
        types.get? target = some targetType → types.get? base = some baseType → Writes op baseType targetType type →
        Assigned target op value declared

end

section

variable {tree : Tree} {types : StaticTypes} {line lo mid hi : Nat} {target value : ExprId} {a b : Term} {op : Assign}
  {checker : Checker}

theorem numeric_ne_bind (op : Arith) (left right : Tag) :
    Compatibility.numeric op [.type left, .type right] ≠ .bind := by
  cases op <;> cases left <;> cases right <;> decide

theorem indexed_ne_type (op : Assign) (left right result : Tag) :
    (Operator.assign op).verdict [.indexed, .type left, .type right] ≠ .type result := by
  cases op <;> cases left <;> cases right <;> nofun

theorem indexedFinding_quiet {valueType targetType baseType : StaticType}
    (quiet : checker.Quiet (indexedFinding line op valueType targetType baseType checker).2) :
    Writes op baseType targetType valueType := by
  unfold indexedFinding at quiet
  by_cases substring : baseType.tag = .text ∧ op ≠ .plain
  · simp only [if_pos substring] at quiet
    exact absurd quiet Checker.Quiet.not_report
  · simp only [if_neg substring] at quiet
    have untyped := indexed_ne_type op targetType.tag valueType.tag
    cases verdict : (Operator.assign op).verdict [.indexed, .type targetType.tag, .type valueType.tag] with
    | bind =>
      refine ⟨substring, verdict, fun array => ?_⟩
      rw [verdict] at quiet
      simp only [if_pos array] at quiet
      split at quiet
      · exact absurd quiet Checker.Quiet.not_report
      · next agree => exact Bool.eq_false_iff.mpr agree
    | type result => exact absurd verdict (untyped result)
    | unsupported | leftInvalid | rightInvalid =>
      rw [verdict] at quiet
      exact absurd quiet Checker.Quiet.not_report

theorem known_single {declared : Declarations ExprId} {id : ExprId} {term : Term}
    (layout : ExprLayout tree lo hi id term) (understood : Understood tree types declared lo hi) :
    Known tree types declared [id] := by
  refine ⟨lo, hi, understood, fun other member => ?_⟩
  obtain rfl := List.mem_singleton.mp member
  exact layout.placed

theorem assignName_assigned {name : String} {type : StaticType}
    (node : tree.kind? target = some (.name name)) (known : Known tree types checker.declared [value])
    (ready : Ready lo checker) (valued : checker.types.get? value = some type)
    (quiet : checker.Quiet (assignName tree line name op value type.tag checker).2)
    (kept : checker.types.Extends types) :
    Assigned tree types checker.declared target op value
      (assignName tree line name op value type.tag checker).2.declared := by
  cases op with
  | plain =>
    rw [assignName_plain] at quiet ⊢
    split at quiet
    · exact absurd quiet Checker.Quiet.not_report
    · next other =>
      rw [if_neg other]
      exact .plain node known (kept _ _ valued)
  | compound op =>
    cases found : checker.declared.lookup? name with
    | none =>
      rw [assignName_undeclared found] at quiet
      exact absurd quiet Checker.Quiet.not_report
    | some producer =>
      obtain ⟨current, typed⟩ := Option.isSome_iff_exists.mp (ready.recorded name producer found)
      rw [assignName_compound found typed] at quiet ⊢
      cases verdict : Compatibility.numeric op [.type current.tag, .type type.tag] with
      | type result =>
        have assigned := Assigned.compound node known found (kept _ _ typed) (kept _ _ valued) verdict
        -- the name is declared again only for a result of another type
        by_cases changed : result ≠ current.tag
        · rw [if_pos changed] at assigned
          simp only [if_pos changed]
          exact assigned
        · rw [if_neg changed] at assigned
          simp only [if_neg changed]
          exact assigned
      | bind => exact absurd verdict (numeric_ne_bind _ _ _)
      | unsupported | leftInvalid | rightInvalid =>
        rw [verdict] at quiet
        exact absurd quiet Checker.Quiet.not_report

theorem checkAssignment_assigned (first : ExprLayout tree lo mid target a) (second : ExprLayout tree mid hi value b)
    (ready : Ready lo checker) (quiet : checker.Quiet (checkAssignment tree line target op value checker).2)
    (kept : (checkAssignment tree line target op value checker).2.types.Extends types) :
    Assigned tree types checker.declared target op value
      (checkAssignment tree line target op value checker).2.declared := by
  have typing := (typeOf_mirrors second).toFills
  have extended := typing.extended checker ready.recorded
  have later : Advances (typeOf tree value checker).2 (checkAssignment tree line target op value checker).2 :=
    (checkAssignment_ready first second ready).1
  obtain ⟨quiet, rest⟩ := quiet.split extended.findings later.findings
  have understood := typing.understood second.nested ready.recorded
    (fun id above below => ready.fresh id (Nat.le_trans (Nat.le_of_lt first.lt) above)) quiet
    (later.types.trans kept)
  have known := known_single second understood
  obtain ⟨ready', fresh⟩ := valued_ready first second ready
  obtain ⟨_, produced⟩ := second.node
  have valued := typeOf_held produced checker
  have targeting := (typeOf_mirrors first).toFills
  have targeted := targeting.extended _ ready'.recorded
  rw [← extended.declared] at known ⊢
  revert rest kept
  refine checkAssignment_cases (motive := fun result => result.2.types.Extends types →
    (typeOf tree value checker).2.Quiet result.2 →
      Assigned tree types (typeOf tree value checker).2.declared target op value result.2.declared) first second ready
    ?name ?text ?indexed ?other
  case name =>
    intro name node kept rest
    rw [assignName_types ready'.recorded] at kept
    exact assignName_assigned node known ready' valued rest kept
  case text => exact fun _ _ _ _ _ _ rest => absurd rest Checker.Quiet.not_report
  case indexed =>
    intro base ids name baseType node found typed kept rest
    -- the target is typed first, and what is wrong with it as a whole is found after that
    have finding : Steady tree (indexedFinding line op (typeOf tree value checker).1
        (typeOf tree target (typeOf tree value checker).2).1 baseType) := .indexedFinding line op _ _ baseType
    have later := (finding 0).extended _ (ready'.recorded.extend targeted)
    obtain ⟨quiet, rest⟩ := rest.split targeted.findings later.findings
    have understood := targeting.understood first.nested ready'.recorded fresh quiet (later.types.trans kept)
    have held := typeOf_held node (typeOf tree value checker).2
    rw [bind_apply, later.declared, targeted.declared]
    exact .indexed node found known (known_single first understood)
      (kept _ _ (later.types _ _ (targeted.types _ _ valued))) (kept _ _ (later.types _ _ held))
      (kept _ _ (later.types _ _ typed)) (indexedFinding_quiet rest)
  case other =>
    -- what cannot be assigned to is always reported
    intro _ _ _ _ rest
    exact absurd (rest.split targeted.findings (Checker.Extends.report _ _ _).findings).2 Checker.Quiet.not_report

end

theorem Assigned.within {α : Type} {Fits : ExprId → α → Prop} {tree : Tree} {types : StaticTypes}
    {before after : Declarations ExprId} {target value : ExprId} {op : Assign}
    (assigned : Assigned tree types before target op value after)
    (stable : ∀ name old new, before.lookup? name = some old → name ∉ before.innermost.names →
      after.lookup? name = some new → ∀ value, Fits old value ↔ Fits new value) : Within Fits before after := by
  have declare (name : String) (same : after = before.declare name value) : Within Fits before after := by
    subst same
    refine .declare before name value fun old found outside => stable name old value found outside ?_
    rw [before.lookup?_declare, if_pos rfl]
  cases assigned with
  | @plain name _ _ _ _ _ => exact declare name rfl
  | @compound name _ _ _ current _ result _ _ _ _ _ _ =>
    by_cases changed : result ≠ current.tag
    · exact declare name (if_pos changed)
    · exact .of_eq (if_neg changed)
  | indexed _ _ _ _ _ _ _ _ => exact .refl _

theorem Sits.assigned {tree : Tree} {types : StaticTypes} {lo hi : Mark} {depth : Nat} {id : StmtId}
    {checker : Checker} {target value : ExprId} {op : Assign} {span : Span}
    (sits : Sits tree types lo hi (depth + 1) id checker)
    (found : tree.stmt? id = some ⟨.assign target op value, span⟩) :
    Assigned tree types checker.declared target op value
      (checkAssignment tree span.start.line target op value checker).2.declared := by
  obtain ⟨mid, a, b, first, second⟩ := sits.parts found
  have quiet := sits.quiet
  have kept := sits.kept
  rw [checkWithin_apply found] at quiet kept
  exact checkAssignment_assigned first second sits.ready quiet kept

end MatrixScript.Typing
