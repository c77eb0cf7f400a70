import MatrixScript.Proofs.Grammar.Lawful
import MatrixScript.Proofs.Grammar.Ownership
import MatrixScript.Proofs.Typing.Source

/-! Parsed trees are well-formed.

Checking and running a program take its tree as it is: that it has an entry for every id, that it is a tree, that loops
run over ranges and that only names and texts are indexed.
-/

set_option autoImplicit false

namespace MatrixScript

namespace Tree

/-- Every place of a tree that refers to an expression, node by node. -/
def exprReferences (tree : Tree) : List ExprId :=
  tree.exprs.toList.flatMap (·.kind.children) ++ tree.stmts.toList.flatMap (·.kind.exprs)

/-- Every place of a tree that refers to a statement, the program itself last. -/
def stmtReferences (tree : Tree) : List StmtId :=
  tree.stmts.toList.flatMap (·.kind.bodies) ++ tree.body

/-- What can be relied on in the tree of a program. -/
structure WellFormed (tree : Tree) : Prop where
  /-- Every expression is referred to at one place, and nothing else is. -/
  exprs_once : tree.exprReferences.Perm ((List.range tree.exprs.size).map ExprId.mk)
  stmts_once : tree.stmtReferences.Perm ((List.range tree.stmts.size).map StmtId.mk)
  children_before : ∀ id kind, tree.kind? id = some kind → ∀ child ∈ kind.children, child.index < id.index
  bodies_before : ∀ id kind, tree.stmtKind? id = some kind → ∀ body ∈ kind.bodies, body.index < id.index
  indexed : ∀ id base indices, tree.kind? id = some (.indexed base indices) →
    indices ≠ [] ∧
      ((∃ name, tree.kind? base = some (.name name)) ∨ ∃ value, tree.kind? base = some (.text value))
  loops_range : ∀ id name range body, tree.stmtKind? id = some (.forRange name range body) → tree.IsRange range
  operands_plain : ∀ id kind, tree.kind? id = some kind → ∀ operand ∈ kind.operands, ¬tree.IsRange operand
  exprs_plain : ∀ id kind, tree.stmtKind? id = some kind → ∀ expr ∈ kind.exprs, tree.IsRange expr →
    ∃ name body, kind = .forRange name expr body
  prints_some : ∀ id values, tree.stmtKind? id = some (.print values) → values ≠ []
  unsigned : ∀ id value, tree.kind? id = some (.int value) → 0 ≤ value.toInt

end Tree

namespace Grammar

variable {tree : Tree}

theorem IndexLayout.nested {lo hi : Nat} {id : ExprId} {index : Component Term}
    (layout : IndexLayout tree lo hi id index) : tree.Nested lo hi := by
  cases layout with
  | point inner => exact inner.nested
  | span first second node => exact range_nested first second node first.nested second.nested

theorem IndexLayout.supports {lo hi : Nat} {id : ExprId} {index : Component Term} {kind : ExprKind}
    (layout : IndexLayout tree lo hi id index) (node : tree.kind? id = some kind) : tree.Supports lo id.index kind := by
  have rising := layout.lt
  have root := layout.root
  exact layout.nested id kind (by omega) (by omega) node

theorem IndexLayout.base {lo hi : Nat} {id base : ExprId} {index : Component Term} {indices : List ExprId}
    (layout : IndexLayout tree lo hi id index) (node : tree.kind? id = some (.indexed base indices)) :
    (∃ name, tree.kind? base = some (.name name)) ∨ ∃ value, tree.kind? base = some (.text value) := by
  cases layout with
  | span _ _ known => cases node.symm.trans known
  | point inner =>
    cases inner with
    | @indexed _ _ base _ _ name _ _ known =>
      cases node.symm.trans known
      cases base with
      | name word => exact .inl ⟨word, name⟩
      | text value => exact .inr ⟨value, name⟩
    | int _ known | float _ known | text known | name known | array _ known | linear _ _ known
    | elementwise _ _ known | compare _ _ known | negate _ known | transpose _ known | builtin _ known =>
      cases node.symm.trans known

theorem StmtLayout.exprs_plain {lo hi : Mark} {id : StmtId} {phrase : Phrase} {kind : StmtKind}
    (layout : StmtLayout tree lo hi id phrase) (node : tree.stmtKind? id = some kind) {expr : ExprId}
    (member : expr ∈ kind.exprs) (range : tree.IsRange expr) : ∃ name body, kind = .forRange name expr body := by
  cases layout with
  | assign target value known =>
    cases node.symm.trans known
    exact absurd range (pair_placed target value expr member).plain
  | forRange _ _ _ _ known =>
    cases node.symm.trans known
    rw [List.mem_singleton.mp member]
    exact ⟨_, _, rfl⟩
  | whileLoop condition _ known | branch condition _ known | branchElse condition _ _ known =>
    cases node.symm.trans known
    rw [List.mem_singleton.mp member] at range
    exact absurd range condition.placed.plain
  | giveBack values known | print values known =>
    cases node.symm.trans known
    exact absurd range (ExprLayout.stretch_placed values expr member).plain
  | block _ known | breakLoop known | continueLoop known =>
    cases node.symm.trans known
    cases member

theorem StmtLayout.range {lo hi : Mark} {id body : StmtId} {phrase : Phrase} {name : String} {range : ExprId}
    (layout : StmtLayout tree lo hi id phrase) (node : tree.stmtKind? id = some (.forRange name range body)) :
    tree.IsRange range := by
  cases layout with
  | forRange _ _ range _ known =>
    cases node.symm.trans known
    exact ⟨_, _, range⟩
  | assign _ _ known | whileLoop _ _ known | branch _ _ known | branchElse _ _ _ known | giveBack _ known
  | print _ known | block _ known | breakLoop known | continueLoop known => cases node.symm.trans known

end Grammar

section

variable {tree : Tree} {phrases : List Grammar.Phrase} (represents : tree.Represents phrases)
include represents

theorem Tree.Represents.rooted {id : ExprId} {kind : ExprKind} (node : tree.kind? id = some kind) :
    ∃ lo hi index, Grammar.IndexLayout tree lo hi id index :=
  represents.housed.rooted id.index (Nat.zero_le _) (Typing.kind?_lt node)

theorem Tree.Represents.grounded {id : StmtId} {kind : StmtKind} (node : tree.stmtKind? id = some kind) :
    ∃ lo hi phrase, Grammar.StmtLayout tree lo hi id phrase := by
  obtain ⟨span, found⟩ := Typing.stmt?_of_kind node
  exact represents.housed.grounded id.index (Nat.zero_le _) (Array.getElem?_eq_some_iff.mp found).1

/-- The children of all nodes and the expressions of all statements are all expressions, each of them once. -/
theorem Tree.Represents.exprs_once :
    tree.exprReferences.Perm ((List.range tree.exprs.size).map ExprId.mk) := by
  have children : tree.childrenOf 0 tree.exprs.size = (tree.exprs.toList.flatMap (·.kind.children) : List ExprId) := by
    rw [← pool_entries]
    simp only [Tree.childrenOf, Tree.kind?, Tree.expr?, Option.map_map, Function.comp_def]
  have exprs : tree.exprsOf 0 tree.stmts.size = (tree.stmts.toList.flatMap (·.kind.exprs) : List ExprId) := by
    rw [← pool_entries]
    simp only [Tree.exprsOf, Tree.stmtKind?, Tree.stmt?, Option.map_map, Function.comp_def]
  have owned : tree.exprsOf 0 tree.stmts.size + tree.childrenOf 0 tree.exprs.size = _ := represents.housed.exprs
  rw [← Multiset.coe_eq_coe, ← pool_singletons, Tree.exprReferences, ← Multiset.coe_add, ← children, ← exprs,
    add_comm]
  exact owned

theorem Tree.Represents.stmts_once :
    tree.stmtReferences.Perm ((List.range tree.stmts.size).map StmtId.mk) := by
  have bodies : tree.bodiesOf 0 tree.stmts.size = (tree.stmts.toList.flatMap (·.kind.bodies) : List StmtId) := by
    rw [← pool_entries]
    simp only [Tree.bodiesOf, Tree.stmtKind?, Tree.stmt?, Option.map_map, Function.comp_def]
  have housed : (tree.body : Multiset StmtId) + tree.bodiesOf 0 tree.stmts.size = _ := represents.housed.stmts
  rw [← Multiset.coe_eq_coe, ← pool_singletons, Tree.stmtReferences, ← Multiset.coe_add, ← bodies, add_comm]
  exact housed

end

/-- The tree of every source that can be scanned and parsed is well-formed. -/
theorem Tree.ofSource_wellFormed {source : String} {tree : Tree} (read : Tree.ofSource source = .ok tree) :
    tree.WellFormed := by
  obtain ⟨tokens, scanned, parsed⟩ := Tree.ofSource_eq_ok read
  obtain ⟨phrases, represents, _⟩ := parse_represents parsed
  have lawful := parse_lawful (scan_lawful scanned)
  rw [parsed] at lawful
  -- most is known from where the nodes lie; the last two are what the parser sees to at single nodes
  constructor
  case exprs_once => exact represents.exprs_once
  case stmts_once => exact represents.stmts_once
  case children_before =>
    intro id kind node child member
    obtain ⟨lo, hi, index, layout⟩ := represents.rooted node
    have supports := layout.supports node
    rcases List.mem_append.mp member with member | member
    · exact (supports.operand child member).below
    · exact (supports.index child member).2
  case bodies_before =>
    intro id kind node body member
    obtain ⟨lo, hi, phrase, layout⟩ := represents.grounded node
    exact (closed_behind_body layout node member).1
  case indexed =>
    intro id base indices node
    obtain ⟨lo, hi, index, layout⟩ := represents.rooted node
    exact ⟨(layout.supports node).chosen base indices rfl, layout.base node⟩
  case loops_range =>
    intro id name range body node
    obtain ⟨lo, hi, phrase, layout⟩ := represents.grounded node
    exact layout.range node
  case operands_plain =>
    intro id kind node operand member
    obtain ⟨lo, hi, index, layout⟩ := represents.rooted node
    exact ((layout.supports node).operand operand member).plain
  case exprs_plain =>
    intro id kind node expr member
    obtain ⟨lo, hi, phrase, layout⟩ := represents.grounded node
    exact layout.exprs_plain node member
  case prints_some =>
    rintro id values node rfl
    obtain ⟨span, found⟩ := Typing.stmt?_of_kind node
    exact (lawful.stmts id _ found).fed rfl
  case unsigned =>
    intro id value node
    obtain ⟨span, found⟩ := Typing.expr?_of_kind node
    exact (lawful.exprs id _ found).unsigned value rfl

/-- A loop in which rows are printed and parts of them transposed. -/
theorem rowLoop_wellFormed :
    ∃ tree, Tree.ofSource "x = [1, 2]; for i = 0 : 2 print x[i], -x[0, 0 : 1]';" = .ok tree ∧
      tree.exprs.size = 18 ∧ tree.WellFormed := by
  obtain ⟨tree, read, size⟩ := @exists_ok _ _
    (Tree.ofSource "x = [1, 2]; for i = 0 : 2 print x[i], -x[0, 0 : 1]';") (·.exprs.size == 18) (by decide +kernel)
  exact ⟨tree, read, beq_iff_eq.mp size, Tree.ofSource_wellFormed read⟩

end MatrixScript
