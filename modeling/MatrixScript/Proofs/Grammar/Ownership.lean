import Mathlib.Algebra.BigOperators.Intervals
import MatrixScript.Proofs.Grammar.Nesting
import MatrixScript.Proofs.Typing.Once

/-! Every node of a parsed tree has one parent.

The nodes of an expression are numbered without gaps, and the stretches of its operands follow one another. So the
nodes of a stretch are its roots together with all children of nodes in it, each of them once.
-/

set_option autoImplicit false

namespace MatrixScript

/-- What the numbers `[lo, hi)` contribute. -/
def pool {α : Type} (parts : Nat → List α) (lo hi : Nat) : Multiset α :=
  ∑ n ∈ Finset.Ico lo hi, (parts n : Multiset α)

section

variable {α : Type} (parts : Nat → List α)

@[simp] theorem pool_self (place : Nat) : pool parts place place = 0 := by
  simp [pool]

theorem pool_append {lo mid hi : Nat} (le : lo ≤ mid) (le' : mid ≤ hi) :
    pool parts lo mid + pool parts mid hi = pool parts lo hi :=
  Finset.sum_Ico_consecutive _ le le'

theorem pool_succ {lo hi : Nat} (le : lo ≤ hi) :
    pool parts lo (hi + 1) = pool parts lo hi + (parts hi : Multiset α) :=
  Finset.sum_Ico_succ_top le _

theorem mem_pool {lo hi : Nat} {item : α} : item ∈ pool parts lo hi ↔ ∃ n, (lo ≤ n ∧ n < hi) ∧ item ∈ parts n := by
  simp [pool, Multiset.mem_sum]

theorem pool_eq_flatMap (count : Nat) : pool parts 0 count = ((List.range count).flatMap parts : List α) := by
  induction count with
  | zero => rfl
  | succ count ih =>
    rw [pool_succ parts (Nat.zero_le _), ih, List.range_succ, List.flatMap_append, ← Multiset.coe_add]
    simp

theorem pool_singletons (make : Nat → α) (count : Nat) :
    pool (fun n => [make n]) 0 count = ((List.range count).map make : List α) := by
  rw [pool_eq_flatMap, List.map_eq_flatMap]

theorem pool_entries {β : Type} (entries : Array β) (part : β → List α) :
    pool (fun n => (entries[n]?.map part).getD []) 0 entries.size = (entries.toList.flatMap part : List α) := by
  have inOrder (items : List β) :
      ((List.range items.length).flatMap fun n => (items[n]?.map part).getD []) = items.flatMap part := by
    induction items with
    | nil => rfl
    | cons first rest ih =>
      rw [List.length_cons, List.range_succ_eq_map, List.flatMap_cons, List.flatMap_map, List.flatMap_cons, ← ih]
      rfl
  rw [pool_eq_flatMap, ← inOrder entries.toList]
  simp

end

def StmtKind.exprs : StmtKind → List ExprId
  | .assign target _ value => [target, value]
  | .forRange _ range _ => [range]
  | .whileLoop condition _ | .branch condition _ _ => [condition]
  | .giveBack values | .print values => values
  | .block _ | .breakLoop | .continueLoop => []

namespace Tree

variable (tree : Tree)

def childrenOf (lo hi : Nat) : Multiset ExprId :=
  pool (fun n => ((tree.kind? ⟨n⟩).map ExprKind.children).getD []) lo hi

def exprsOf (lo hi : Nat) : Multiset ExprId :=
  pool (fun n => ((tree.stmtKind? ⟨n⟩).map StmtKind.exprs).getD []) lo hi

def bodiesOf (lo hi : Nat) : Multiset StmtId :=
  pool (fun n => ((tree.stmtKind? ⟨n⟩).map StmtKind.bodies).getD []) lo hi

end Tree

namespace Grammar

variable {tree : Tree}

/-- The expressions `[lo, hi)` are the given roots and the children of each other. -/
structure Owned (tree : Tree) (lo hi : Nat) (roots : List ExprId) : Prop where
  le : lo ≤ hi
  parents : (roots : Multiset ExprId) + tree.childrenOf lo hi = pool (fun n => [⟨n⟩]) lo hi
  rooted : ∀ n, lo ≤ n → n < hi → ∃ first last index, IndexLayout tree first last ⟨n⟩ index

namespace Owned

variable {lo mid hi : Nat} {roots more : List ExprId}

theorem empty (place : Nat) : Owned tree place place [] where
  le := Nat.le_refl _
  parents := by simp [Tree.childrenOf]
  rooted _ above below := absurd below (Nat.not_lt.mpr above)

theorem append (first : Owned tree lo mid roots) (second : Owned tree mid hi more) :
    Owned tree lo hi (roots ++ more) where
  le := Nat.le_trans first.le second.le
  parents := by
    have one := first.parents
    have two := second.parents
    unfold Tree.childrenOf at *
    rw [← pool_append _ first.le second.le, ← pool_append _ first.le second.le, ← one, ← two,
      ← Multiset.coe_add]
    exact add_add_add_comm _ _ _ _
  rooted n above below := by
    by_cases earlier : n < mid
    · exact first.rooted n above earlier
    · exact second.rooted n (Nat.le_of_not_lt earlier) below

theorem node {kind : ExprKind} {first last : Nat} {index : Component Term} (owned : Owned tree lo hi kind.children)
    (found : tree.kind? ⟨hi⟩ = some kind) (layout : IndexLayout tree first last ⟨hi⟩ index) :
    Owned tree lo (hi + 1) [⟨hi⟩] where
  le := Nat.le_succ_of_le owned.le
  parents := by
    have inside := owned.parents
    unfold Tree.childrenOf at *
    rw [pool_succ _ owned.le, pool_succ _ owned.le, found, ← inside]
    simp only [Option.map_some, Option.getD_some]
    ac_rfl
  rooted n above below := by
    rcases Nat.lt_succ_iff_lt_or_eq.mp below with earlier | rfl
    · exact owned.rooted n above earlier
    · exact ⟨first, last, index, layout⟩

theorem stretch {α : Type} {lies : Nat → Nat → ExprId → α → Prop} {ids : List ExprId} {xs : List α}
    (stretch : Stretch lies lo hi ids xs) (rising : ∀ first last id x, lies first last id x → first < last)
    (each : ∀ first last id x, last ≤ hi → lies first last id x → Owned tree first last [id]) :
    Owned tree lo hi ids := by
  induction stretch with
  | nil => exact .empty _
  | cons item rest ih =>
    have inside := rest.le (fun n => n) fun _ _ _ _ _ => rising _ _ _ _
    exact (each _ _ _ _ inside item).append (ih each)

end Owned

theorem range_owned {lo mid hi : Nat} {start stop : ExprId} {a b : Term} (first : ExprLayout tree lo mid start a)
    (second : ExprLayout tree mid hi stop b) (node : tree.kind? ⟨hi⟩ = some (.range start stop))
    (one : Owned tree lo mid [start]) (two : Owned tree mid hi [stop]) : Owned tree lo (hi + 1) [⟨hi⟩] :=
  (one.append two).node node (.span first second node)

theorem ExprLayout.owned {lo hi : Nat} {id : ExprId} {term : Term} (layout : ExprLayout tree lo hi id term) :
    Owned tree lo hi [id] := by
  -- the operands of a node end before it does, also those inside a range that is an index
  induction hi using Nat.strongRecOn generalizing lo id term with
  | ind hi ih =>
    have whole := IndexLayout.point layout
    cases layout with
    | int _ node | float _ node | text node | name node => exact (Owned.empty _).node node whole
    | array items node | builtin items node =>
      have owned := Owned.stretch items (fun _ _ _ _ => ExprLayout.lt)
        fun _ _ _ _ inside item => ih _ (Nat.lt_succ_of_le inside) item
      refine Owned.node ?_ node whole
      simpa [ExprKind.children, ExprKind.operands, ExprKind.indices] using owned
    | indexed name some stretch node =>
      have le := stretch.le (fun n => n) fun _ _ _ _ _ => IndexLayout.lt
      have base := ih _ (by omega) (Base.lies name)
      have owned := Owned.stretch stretch (fun _ _ _ _ => IndexLayout.lt) fun first second id index inside item => by
        cases item with
        | point inner => exact ih _ (Nat.lt_succ_of_le inside) inner
        | span left right known =>
          have rising := right.lt
          exact range_owned left right known (ih _ (by omega) left) (ih _ (by omega) right)
      exact (base.append owned).node node whole
    | linear first second node | elementwise first second node | compare first second node =>
      have rising := second.lt
      exact ((ih _ (by omega) first).append (ih _ (by omega) second)).node node whole
    | negate inner node | transpose inner node => exact (ih _ (Nat.lt_succ_self _) inner).node node whole

theorem ExprLayout.stretch_owned {lo hi : Nat} {ids : List ExprId} {terms : List Term}
    (stretch : Stretch (ExprLayout tree) lo hi ids terms) : Owned tree lo hi ids :=
  Owned.stretch stretch (fun _ _ _ _ => ExprLayout.lt) fun _ _ _ _ _ item => item.owned

/-- The statements between two marks are the given roots and the bodies of each other, and the expressions between them
are those of these statements and the children of each other. -/
structure Housed (tree : Tree) (lo hi : Mark) (roots : List StmtId) : Prop where
  exprs_le : lo.exprs ≤ hi.exprs
  stmts_le : lo.stmts ≤ hi.stmts
  exprs : tree.exprsOf lo.stmts hi.stmts + tree.childrenOf lo.exprs hi.exprs =
    pool (fun n => [⟨n⟩]) lo.exprs hi.exprs
  stmts : (roots : Multiset StmtId) + tree.bodiesOf lo.stmts hi.stmts = pool (fun n => [⟨n⟩]) lo.stmts hi.stmts
  rooted : ∀ n, lo.exprs ≤ n → n < hi.exprs → ∃ first last index, IndexLayout tree first last ⟨n⟩ index
  grounded : ∀ n, lo.stmts ≤ n → n < hi.stmts → ∃ first last phrase, StmtLayout tree first last ⟨n⟩ phrase

namespace Housed

variable {lo mid hi : Mark} {roots more : List StmtId}

theorem empty (place : Mark) : Housed tree place place [] where
  exprs_le := Nat.le_refl _
  stmts_le := Nat.le_refl _
  exprs := by simp [Tree.childrenOf, Tree.exprsOf]
  stmts := by simp [Tree.bodiesOf]
  rooted _ above below := absurd below (Nat.not_lt.mpr above)
  grounded _ above below := absurd below (Nat.not_lt.mpr above)

theorem append (first : Housed tree lo mid roots) (second : Housed tree mid hi more) :
    Housed tree lo hi (roots ++ more) where
  exprs_le := Nat.le_trans first.exprs_le second.exprs_le
  stmts_le := Nat.le_trans first.stmts_le second.stmts_le
  exprs := by
    have one := first.exprs
    have two := second.exprs
    unfold Tree.childrenOf Tree.exprsOf at *
    rw [← pool_append _ first.exprs_le second.exprs_le, ← pool_append _ first.exprs_le second.exprs_le,
      ← pool_append _ first.stmts_le second.stmts_le, ← one, ← two]
    exact add_add_add_comm _ _ _ _
  stmts := by
    have one := first.stmts
    have two := second.stmts
    unfold Tree.bodiesOf at *
    rw [← pool_append _ first.stmts_le second.stmts_le, ← pool_append _ first.stmts_le second.stmts_le, ← one,
      ← two, ← Multiset.coe_add]
    exact add_add_add_comm _ _ _ _
  rooted n above below := by
    by_cases earlier : n < mid.exprs
    · exact first.rooted n above earlier
    · exact second.rooted n (Nat.le_of_not_lt earlier) below
  grounded n above below := by
    by_cases earlier : n < mid.stmts
    · exact first.grounded n above earlier
    · exact second.grounded n (Nat.le_of_not_lt earlier) below

theorem node {e m s : Nat} {kind : StmtKind} {first last : Mark} {phrase : Phrase}
    (found : tree.stmtKind? ⟨hi.stmts⟩ = some kind) (owned : Owned tree e m kind.exprs)
    (housed : Housed tree ⟨m, s⟩ hi kind.bodies) (layout : StmtLayout tree first last ⟨hi.stmts⟩ phrase) :
    Housed tree ⟨e, s⟩ ⟨hi.exprs, hi.stmts + 1⟩ [⟨hi.stmts⟩] where
  exprs_le := Nat.le_trans owned.le housed.exprs_le
  stmts_le := Nat.le_succ_of_le housed.stmts_le
  exprs := by
    have mine := owned.parents
    have inside := housed.exprs
    unfold Tree.childrenOf Tree.exprsOf at *
    rw [pool_succ _ housed.stmts_le, found, ← pool_append _ owned.le housed.exprs_le,
      ← pool_append _ owned.le housed.exprs_le, ← mine, ← inside]
    simp only [Option.map_some, Option.getD_some]
    ac_rfl
  stmts := by
    have inside := housed.stmts
    unfold Tree.bodiesOf at *
    rw [pool_succ _ housed.stmts_le, pool_succ _ housed.stmts_le, found, ← inside]
    simp only [Option.map_some, Option.getD_some]
    ac_rfl
  rooted n above below := by
    by_cases earlier : n < m
    · exact owned.rooted n above earlier
    · exact housed.rooted n (Nat.le_of_not_lt earlier) below
  grounded n above below := by
    rcases Nat.lt_succ_iff_lt_or_eq.mp below with earlier | rfl
    · exact housed.grounded n above earlier
    · exact ⟨first, last, phrase, layout⟩

theorem leaf {e m s : Nat} {kind : StmtKind} {first last : Mark} {phrase : Phrase}
    (found : tree.stmtKind? ⟨s⟩ = some kind) (bare : kind.bodies = []) (owned : Owned tree e m kind.exprs)
    (layout : StmtLayout tree first last ⟨s⟩ phrase) : Housed tree ⟨e, s⟩ ⟨m, s + 1⟩ [⟨s⟩] := by
  have none : Housed tree ⟨m, s⟩ ⟨m, s⟩ kind.bodies := by
    rw [bare]
    exact .empty _
  exact .node found owned none layout

theorem stretch {ids : List StmtId} {phrases : List Phrase} (stretch : Stretch (StmtLayout tree) lo hi ids phrases)
    (each : ∀ first last id phrase, last.stmts ≤ hi.stmts → StmtLayout tree first last id phrase →
      Housed tree first last [id]) : Housed tree lo hi ids := by
  induction stretch with
  | nil => exact .empty _
  | cons item rest ih =>
    have inside := rest.le Mark.stmts fun _ _ _ _ _ => StmtLayout.lt
    exact (each _ _ _ _ inside item).append (ih each)

end Housed

theorem StmtLayout.housed {lo hi : Mark} {id : StmtId} {phrase : Phrase} (layout : StmtLayout tree lo hi id phrase) :
    Housed tree lo hi [id] := by
  induction size : hi.stmts using Nat.strongRecOn generalizing lo hi id phrase with
  | ind n ih =>
    subst size
    have whole := layout
    cases layout with
    | block items node =>
      have bodies := Housed.stretch items fun _ _ _ _ inside item => ih _ (Nat.lt_succ_of_le inside) item rfl
      exact .node node (.empty _) bodies whole
    | assign target value node => exact .leaf node rfl (target.owned.append value.owned) whole
    | forRange start stop range body node =>
      have owned := range_owned start stop range start.owned stop.owned
      exact .node node owned (ih _ (Nat.lt_succ_self _) body rfl) whole
    | whileLoop condition body node | branch condition body node =>
      exact .node node condition.owned (ih _ (Nat.lt_succ_self _) body rfl) whole
    | branchElse condition first second node =>
      have bodies := (ih _ (Nat.lt_succ_of_lt second.lt) first rfl).append (ih _ (Nat.lt_succ_self _) second rfl)
      exact .node node condition.owned bodies whole
    | breakLoop node | continueLoop node => exact .leaf node rfl (.empty _) whole
    | giveBack values node | print values node => exact .leaf node rfl (ExprLayout.stretch_owned values) whole

end Grammar

/-- What every statement and every expression of a parsed tree is the root of. -/
theorem Tree.Represents.housed {tree : Tree} {phrases : List Grammar.Phrase} (represents : tree.Represents phrases) :
    Grammar.Housed tree ⟨0, 0⟩ tree.mark tree.body :=
  Grammar.Housed.stretch represents fun _ _ _ _ _ item => item.housed

end MatrixScript
