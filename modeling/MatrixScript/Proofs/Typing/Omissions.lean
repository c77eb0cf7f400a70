import MatrixScript.Proofs.Evaluation.Safety
import MatrixScript.Proofs.Grammar.Ownership
import MatrixScript.Proofs.Typing.Shapes

/-! What the checker leaves without a type.

Whatever is found on the way, the checker goes on to the next operand, the next body and the next statement. It looks at
a name that is assigned to without typing it, and leaves a target that is about a text alone. Every other expression has
a type in the end.
-/

set_option autoImplicit false

namespace MatrixScript

namespace Tree

variable (tree : Tree)

/-- An assignment leaves an expression without a type: the name that it is about, or a part of a target that is about a
text. -/
inductive Omits (stmt : StmtId) : ExprId → Prop where
  | name {target value : ExprId} {op : Assign} {name : String} :
      tree.stmtKind? stmt = some (.assign target op value) → tree.kind? target = some (.name name) →
        Omits stmt target
  | text {target value base id : ExprId} {op : Assign} {indices : List ExprId} {text : String} :
      tree.stmtKind? stmt = some (.assign target op value) → tree.kind? target = some (.indexed base indices) →
        tree.kind? base = some (.text text) → tree.PartOf id target → Omits stmt id

def OmittedIn (lo hi : Nat) (id : ExprId) : Prop :=
  ∃ stmt : StmtId, lo ≤ stmt.index ∧ stmt.index < hi ∧ tree.Omits stmt id

variable {tree}

theorem Omits.assign {stmt : StmtId} {id : ExprId} (omits : tree.Omits stmt id) :
    ∃ target op value, tree.stmtKind? stmt = some (.assign target op value) ∧ tree.PartOf id target := by
  cases omits with
  | name node _ => exact ⟨_, _, _, node, .self⟩
  | text node _ _ part => exact ⟨_, _, _, node, part⟩

theorem OmittedIn.append {lo mid hi : Nat} (le : lo ≤ mid) (le' : mid ≤ hi) (id : ExprId) :
    tree.OmittedIn lo hi id ↔ tree.OmittedIn lo mid id ∨ tree.OmittedIn mid hi id := by
  constructor
  · rintro ⟨stmt, above, below, omits⟩
    by_cases earlier : stmt.index < mid
    · exact .inl ⟨stmt, above, earlier, omits⟩
    · exact .inr ⟨stmt, Nat.le_of_not_lt earlier, below, omits⟩
  · rintro (⟨stmt, above, below, omits⟩ | ⟨stmt, above, below, omits⟩)
    · exact ⟨stmt, above, Nat.lt_of_lt_of_le below le', omits⟩
    · exact ⟨stmt, Nat.le_trans le above, below, omits⟩

theorem OmittedIn.empty {place : Nat} {id : ExprId} : ¬tree.OmittedIn place place id := by
  rintro ⟨stmt, above, below, _⟩
  omega

theorem OmittedIn.single {place : Nat} {id : ExprId} : tree.OmittedIn place (place + 1) id ↔ tree.Omits ⟨place⟩ id := by
  constructor
  · rintro ⟨⟨index⟩, above, below, omits⟩
    obtain rfl : index = place := by
      simp only at above below
      omega
    exact omits
  · exact fun omits => ⟨⟨place⟩, Nat.le_refl _, Nat.lt_succ_self _, omits⟩

theorem PartOf.trans {first second third : ExprId} (inner : tree.PartOf first second)
    (outer : tree.PartOf second third) :
    tree.PartOf first third := by
  induction outer with
  | self => exact inner
  | child node member _ ih => exact .child node member ih

end Tree

namespace Grammar

variable {tree : Tree}

theorem ExprLayout.part {lo hi : Nat} {root : ExprId} {term : Term} (layout : ExprLayout tree lo hi root term) {n : Nat}
    (above : lo ≤ n) (below : n < hi) : tree.PartOf ⟨n⟩ root := by
  have nested := layout.nested
  have owned := layout.owned.parents
  -- a node that is not the root is a child of a later one
  induction later : hi - n using Nat.strongRecOn generalizing n with
  | ind size ih =>
    have member : ⟨n⟩ ∈ pool (fun n => [ExprId.mk n]) lo hi :=
      (mem_pool _).mpr ⟨n, ⟨above, below⟩, List.mem_singleton_self _⟩
    rw [← owned, Multiset.mem_add] at member
    rcases member with self | child
    · obtain rfl := List.mem_singleton.mp (Multiset.mem_coe.mp self)
      exact .self
    · obtain ⟨parent, ⟨from_lo, to_hi⟩, child⟩ := (mem_pool _).mp child
      cases node : tree.kind? ⟨parent⟩ with
      | none =>
        rw [node] at child
        cases child
      | some kind =>
        rw [node] at child
        replace child : ⟨n⟩ ∈ kind.children := child
        have one : tree.PartOf ⟨n⟩ ⟨parent⟩ := .child node child .self
        have before : n < parent := by
          have supports := nested ⟨parent⟩ kind from_lo to_hi node
          rcases List.mem_append.mp child with operand | index
          · exact (supports.operand _ operand).below
          · exact (supports.index _ index).2
        exact one.trans (ih _ (by omega) from_lo to_hi rfl)

end Grammar

namespace Typing

open Check Grammar

/-- Between two marks, an expression is without a type in the later table when one of the statements there leaves it so.
All other expressions are as they were. -/
structure Covered (tree : Tree) (lo hi : Mark) (before after : StaticTypes) : Prop where
  exprs_le : lo.exprs ≤ hi.exprs
  stmts_le : lo.stmts ≤ hi.stmts
  confined : ∀ id : ExprId, ¬(lo.exprs ≤ id.index ∧ id.index < hi.exprs) → after.get? id = before.get? id
  exact : ∀ id : ExprId, lo.exprs ≤ id.index → id.index < hi.exprs →
    (after.get? id = none ↔ tree.OmittedIn lo.stmts hi.stmts id)
  placed : ∀ id : ExprId, tree.OmittedIn lo.stmts hi.stmts id → lo.exprs ≤ id.index ∧ id.index < hi.exprs

section

variable {tree : Tree} {types : StaticTypes}

namespace Covered

theorem refl (place : Mark) : Covered tree place place types types where
  exprs_le := Nat.le_refl _
  stmts_le := Nat.le_refl _
  confined _ _ := rfl
  exact _ above below := by omega
  placed _ omitted := absurd omitted Tree.OmittedIn.empty

theorem trans {lo mid hi : Mark} {first second third : StaticTypes} (earlier : Covered tree lo mid first second)
    (later : Covered tree mid hi second third) : Covered tree lo hi first third where
  exprs_le := Nat.le_trans earlier.exprs_le later.exprs_le
  stmts_le := Nat.le_trans earlier.stmts_le later.stmts_le
  confined id outside := by
    have := earlier.exprs_le
    have := later.exprs_le
    rw [later.confined id (by omega), earlier.confined id (by omega)]
  exact id above below := by
    rw [Tree.OmittedIn.append earlier.stmts_le later.stmts_le]
    by_cases within : id.index < mid.exprs
    · have elsewhere : ¬tree.OmittedIn mid.stmts hi.stmts id := by
        intro omitted
        have placed := later.placed id omitted
        omega
      rw [later.confined id (by omega), earlier.exact id above within, or_iff_left elsewhere]
    · have elsewhere : ¬tree.OmittedIn lo.stmts mid.stmts id := by
        intro omitted
        have placed := earlier.placed id omitted
        omega
      rw [later.exact id (by omega) below, or_iff_right elsewhere]
  placed id omitted := by
    have := earlier.exprs_le
    have := later.exprs_le
    rcases (Tree.OmittedIn.append earlier.stmts_le later.stmts_le id).mp omitted with omitted | omitted
    · have := earlier.placed id omitted
      omega
    · have := later.placed id omitted
      omega

theorem of_fills {α : Type} {action : Check α} {lo hi : Nat} (fills : Fills tree lo hi action) {checker : Checker}
    (le : lo ≤ hi) (ready : Ready lo checker) (place : Nat) :
    Covered tree ⟨lo, place⟩ ⟨hi, place⟩ checker.types (action checker).2.types where
  exprs_le := le
  stmts_le := Nat.le_refl _
  confined := fills.confined checker ready.recorded
  exact id above below := by
    have typed := fills.filled checker ready.recorded (ready.freshTo hi) id above below
    constructor
    · intro untyped
      rw [untyped] at typed
      cases typed
    · exact fun omitted => absurd omitted Tree.OmittedIn.empty
  placed _ omitted := absurd omitted Tree.OmittedIn.empty

theorem node {lo hi : Mark} {before after : StaticTypes} (covered : Covered tree lo hi before after) {kind : StmtKind}
    (found : tree.stmtKind? ⟨hi.stmts⟩ = some kind) (other : ∀ target op value, kind ≠ .assign target op value) :
    Covered tree lo ⟨hi.exprs, hi.stmts + 1⟩ before after := by
  have same (id : ExprId) : tree.OmittedIn lo.stmts (hi.stmts + 1) id ↔ tree.OmittedIn lo.stmts hi.stmts id := by
    rw [Tree.OmittedIn.append covered.stmts_le (Nat.le_succ _), Tree.OmittedIn.single]
    apply or_iff_left
    intro omits
    obtain ⟨target, op, value, node, _⟩ := omits.assign
    cases found.symm.trans node
    exact other target op value rfl
  exact {
    exprs_le := covered.exprs_le
    stmts_le := Nat.le_succ_of_le covered.stmts_le
    confined := covered.confined
    exact := fun id above below => by rw [same, covered.exact id above below]
    placed := fun id omitted => covered.placed id ((same id).mp omitted) }

end Covered

section

variable {lo mid hi place line : Nat} {target value : ExprId} {op : Assign} {a b : Term}
  (first : ExprLayout tree lo mid target a) (second : ExprLayout tree mid hi value b)
  (node : tree.stmtKind? ⟨place⟩ = some (.assign target op value))

include first node

/-- An assignment leaves out parts of its target only. -/
theorem omits_within {id : ExprId} (omits : tree.Omits ⟨place⟩ id) : lo ≤ id.index ∧ id.index < mid := by
  obtain ⟨_, _, _, known, part⟩ := omits.assign
  cases node.symm.trans known
  have root := first.placed
  exact part.within first.nested root.above root.below

/-- The value of an assignment is typed, and its target is looked at after it. -/
theorem Covered.assign {before valued after : StaticTypes}
    (typed : Covered tree ⟨mid, place⟩ ⟨hi, place⟩ before valued)
    (confined : ∀ id : ExprId, ¬(lo ≤ id.index ∧ id.index < mid) → after.get? id = valued.get? id)
    (exact : ∀ id : ExprId, lo ≤ id.index → id.index < mid → (after.get? id = none ↔ tree.Omits ⟨place⟩ id)) :
    Covered tree ⟨lo, place⟩ ⟨hi, place + 1⟩ before after := by
  have le := Nat.le_of_lt first.lt
  have le' : mid ≤ hi := typed.exprs_le
  refine ⟨Nat.le_trans le le', Nat.le_succ _, ?_, ?_, ?_⟩
  · intro id outside
    simp only at outside
    rw [confined id (by omega), typed.confined id (by simp only; omega)]
  · intro id above below
    rw [Tree.OmittedIn.single]
    by_cases within : id.index < mid
    · exact exact id above within
    · have elsewhere : ¬tree.Omits ⟨place⟩ id := fun omits => within (omits_within first node omits).2
      rw [confined id (by omega), typed.exact id (Nat.le_of_not_lt within) below]
      exact iff_of_false Tree.OmittedIn.empty elsewhere
  · intro id omitted
    obtain ⟨above, below⟩ := omits_within first node (Tree.OmittedIn.single.mp omitted)
    exact ⟨above, Nat.lt_of_lt_of_le below le'⟩

include second

theorem checkAssignment_covered {checker : Checker} (ready : Ready lo checker) :
    Covered tree ⟨lo, place⟩ ⟨hi, place + 1⟩ checker.types
      (checkAssignment tree line target op value checker).2.types := by
  have le := Nat.le_of_lt first.lt
  have typed := Covered.of_fills (typeOf_mirrors second).toFills (Nat.le_of_lt second.lt) (ready.raise le) place
  obtain ⟨ready', fresh⟩ := valued_ready first second ready
  obtain ⟨_, produced⟩ := second.node
  have valued := typeOf_held produced checker
  -- a target that is not left out is typed after the value
  have filled {α : Type} {action : Check α} (fills : Fills tree lo mid action)
      (kept : ∀ id, ¬tree.Omits ⟨place⟩ id) :
      Covered tree ⟨lo, place⟩ ⟨hi, place + 1⟩ checker.types (action (typeOf tree value checker).2).2.types := by
    apply typed.assign first node (fills.confined _ ready'.recorded)
    intro id above below
    obtain ⟨type, given⟩ := Option.isSome_iff_exists.mp (fills.filled _ ready'.recorded fresh id above below)
    rw [given]
    exact iff_of_false (Option.some_ne_none type) (kept id)
  refine checkAssignment_cases
    (motive := fun result => Covered tree ⟨lo, place⟩ ⟨hi, place + 1⟩ checker.types result.2.types) first second ready
    ?name ?text ?indexed ?other
  case name =>
    intro name known
    rw [assignName_types ready'.recorded]
    apply typed.assign first node fun _ _ => rfl
    intro id above below
    apply iff_of_true (fresh id above below)
    -- a name has no parts but itself
    have part := first.part above below
    cases part with
    | self => exact .name node known
    | child known' member _ =>
      cases known.symm.trans known'
      cases member
  case text =>
    intro base indices text known found
    apply typed.assign first node fun _ _ => rfl
    intro id above below
    exact iff_of_true (fresh id above below) (.text node known found (first.part above below))
  case indexed =>
    intro base indices name baseType known found _
    have whole := (typeOf_mirrors first).then (fun type =>
      .indexedFinding line op (typeOf tree value checker).1 type baseType) le
    apply filled whole.toFills
    intro id omits
    cases omits with
    | name node' known' =>
      cases node.symm.trans node'
      cases known.symm.trans known'
    | text node' known' found' _ =>
      cases node.symm.trans node'
      cases known.symm.trans known'
      cases found.symm.trans found'
  case other =>
    intro kind known assignable
    have whole := (typeOf_mirrors first).then (fun type => .report line (.leftSide type.tag)) le
    apply filled whole.toFills
    intro id omits
    cases omits with
    | name node' known' | text node' known' _ _ =>
      cases node.symm.trans node'
      cases known.symm.trans known'
      exact assignable rfl

end

theorem loopRange_covered {lo mid hi : Nat} {start stop : ExprId} {a b : Term}
    (first : ExprLayout tree lo mid start a) (second : ExprLayout tree mid hi stop b)
    (node : tree.kind? ⟨hi⟩ = some (.range start stop)) {checker : Checker} (ready : Ready lo checker)
    (place line : Nat) (name : String) :
    Covered tree ⟨lo, place⟩ ⟨hi + 1, place⟩ checker.types
      (declareCounter tree line name ⟨hi⟩ (enter "loop" 1 (typeOf tree ⟨hi⟩ checker).2)).2.types := by
  have below := first.lt
  have above := second.lt
  rw [declareCounter_types node]
  exact .of_fills (typeOf_range_mirrors first second node).toFills (by omega) ready place

theorem checkCondition_covered {lo hi : Nat} {condition : ExprId} {term : Term}
    (layout : ExprLayout tree lo hi condition term) {checker : Checker} (ready : Ready lo checker) (place : Nat) :
    Covered tree ⟨lo, place⟩ ⟨hi, place⟩ checker.types (checkCondition tree condition checker).2.types :=
  .of_fills (checkCondition_mirrors layout).toFills (Nat.le_of_lt layout.lt) ready place

/-- What the bodies of a statement leave out, it leaves out, and nothing else unless it is an assignment. -/
theorem Covered.inherited : Inherited tree (fun lo hi _ before after => Covered tree lo hi before.types after.types)
    fun lo hi _ before after => Covered tree lo hi before.types after.types where
  nil := .refl _
  cons first others _ _ := first.trans others
  -- entering and leaving a scope does not touch the types
  block found items := items.node (Tree.stmtKind?_of_stmt? found) nofun
  assign target value found ready := checkAssignment_covered target value (Tree.stmtKind?_of_stmt? found) ready
  forRange start stop range found ready entered repeated _ := by
    subst entered
    exact ((loopRange_covered start stop range ready _ _ _).trans repeated).node (Tree.stmtKind?_of_stmt? found) nofun
  guarded condition known found ready inside _ :=
    ((checkCondition_covered condition ready _).trans inside).node (Tree.stmtKind?_of_stmt? found) (by
      rcases known with rfl | rfl
      · exact nofun
      · exact nofun)
  branchElse condition found ready taken skipped _ _ :=
    (((checkCondition_covered condition ready _).trans taken).trans skipped).node (Tree.stmtKind?_of_stmt? found) nofun
  signal known found := by
    rw [stray_types]
    refine (Covered.refl _).node (Tree.stmtKind?_of_stmt? found) ?_
    rcases known with rfl | rfl
    · exact nofun
    · exact nofun
  values values known found ready :=
    (Covered.of_fills (values_fills values) (ExprLayout.stretch_le values) ready _).node
      (Tree.stmtKind?_of_stmt? found) (by
        rcases known with rfl | rfl
        · exact nofun
        · exact nofun)

end

end Typing

open Typing Grammar

theorem Tree.Represents.covered {tree : Tree} {body : List Phrase} (represents : tree.Represents body) :
    Covered tree ⟨0, 0⟩ tree.mark (.ofSize tree.exprs.size) (check tree).types := by
  exact Covered.inherited.program represents

/-- No expression escapes the checker. The expressions of a source that are without a type after it has been checked are
the names that assignments are about, and all parts of the targets that are about a text; whatever is found, all others
have types. -/
theorem checker_misses_targets_only {source : String} {tree : Tree} (read : Tree.ofSource source = .ok tree)
    (id : ExprId) (inside : id.index < tree.exprs.size) :
    (check tree).types.get? id = none ↔ ∃ stmt, tree.Omits stmt id := by
  obtain ⟨tokens, _, parsed⟩ := Tree.ofSource_eq_ok read
  obtain ⟨body, represents, _⟩ := parse_represents parsed
  rw [represents.covered.exact id (Nat.zero_le _) inside]
  constructor
  · rintro ⟨stmt, _, _, omits⟩
    exact ⟨stmt, omits⟩
  · rintro ⟨stmt, omits⟩
    obtain ⟨target, op, value, node, _⟩ := omits.assign
    obtain ⟨span, found⟩ := stmt?_of_kind node
    obtain ⟨below, _⟩ := Array.getElem?_eq_some_iff.mp found
    exact ⟨stmt, Nat.zero_le _, below, omits⟩

/-- The index of a target about a text is never looked at, although it would be a declared name. -/
theorem writtenText_index_missed :
    ∃ tree, Tree.ofSource "x = 1; \"ab\"[x] = 2; if (y) z = -x;" = .ok tree ∧ 3 < tree.exprs.size ∧
      tree.kind? ⟨3⟩ = some (.name "x") ∧ (check tree).types.get? ⟨3⟩ = none := by
  have passes : (Tree.ofSource "x = 1; \"ab\"[x] = 2; if (y) z = -x;").toOption.any fun tree =>
      3 < tree.exprs.size ∧ tree.kind? ⟨3⟩ = some (.name "x") ∧ tree.kind? ⟨4⟩ = some (.indexed ⟨2⟩ [⟨3⟩]) ∧
        tree.kind? ⟨2⟩ = some (.text "ab") ∧ tree.stmtKind? ⟨1⟩ = some (.assign ⟨4⟩ .plain ⟨5⟩) := by
    decide +kernel
  obtain ⟨tree, read, passes⟩ := exists_ok passes
  obtain ⟨size, index, target, base, node⟩ := of_decide_eq_true passes
  refine ⟨tree, read, size, index, (checker_misses_targets_only read ⟨3⟩ size).mpr ⟨⟨1⟩, ?_⟩⟩
  exact .text node target base (.child target (by decide) .self)

end MatrixScript
