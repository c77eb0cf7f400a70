import MatrixScript.Decimal.Reading
import MatrixScript.Integer
import MatrixScript.Proofs.Grammar.Derivation
import MatrixScript.Tree

/-! How a syntax tree lies in the arrays of nodes.

A node is numbered when it is complete, so the nodes of an expression are a stretch of numbers with the root as the
last of them, and the stretches of its operands follow one another in front of the root. No node has two parents.
-/

set_option autoImplicit false

namespace MatrixScript

namespace Tree

def stmtKind? (tree : Tree) (id : StmtId) : Option StmtKind := (tree.stmt? id).map (·.kind)

theorem stmtKind?_of_stmt? {tree : Tree} {id : StmtId} {stmt : Stmt} (found : tree.stmt? id = some stmt) :
    tree.stmtKind? id = some stmt.kind := by
  rw [stmtKind?, found]
  rfl

structure Grows (before after : Tree) : Prop where
  exprs : ∀ id expr, before.expr? id = some expr → after.expr? id = some expr
  stmts : ∀ id stmt, before.stmt? id = some stmt → after.stmt? id = some stmt

namespace Grows

theorem refl (tree : Tree) : tree.Grows tree :=
  ⟨fun _ _ found => found, fun _ _ found => found⟩

theorem trans {first second third : Tree} (earlier : first.Grows second) (later : second.Grows third) :
    first.Grows third :=
  ⟨fun id expr found => later.exprs id expr (earlier.exprs id expr found),
    fun id stmt found => later.stmts id stmt (earlier.stmts id stmt found)⟩

theorem kind {before after : Tree} (grows : before.Grows after) {id : ExprId} {kind : ExprKind}
    (found : before.kind? id = some kind) : after.kind? id = some kind := by
  simp only [kind?, Option.map_eq_some_iff] at found ⊢
  obtain ⟨expr, found, same⟩ := found
  exact ⟨expr, grows.exprs id expr found, same⟩

theorem stmtKind {before after : Tree} (grows : before.Grows after) {id : StmtId} {kind : StmtKind}
    (found : before.stmtKind? id = some kind) : after.stmtKind? id = some kind := by
  simp only [stmtKind?, Option.map_eq_some_iff] at found ⊢
  obtain ⟨stmt, found, same⟩ := found
  exact ⟨stmt, grows.stmts id stmt found, same⟩

theorem addExpr (tree : Tree) (kind : ExprKind) (span : Span) : tree.Grows (tree.addExpr kind span).2 := by
  refine ⟨fun id expr found => ?_, fun _ _ found => found⟩
  simp only [expr?, Tree.addExpr] at found ⊢
  obtain ⟨inside, _⟩ := Array.getElem?_eq_some_iff.mp found
  rw [Array.getElem?_push_lt inside, ← found, Array.getElem?_eq_getElem inside]

theorem addStmt (tree : Tree) (kind : StmtKind) (span : Span) : tree.Grows (tree.addStmt kind span).2 := by
  refine ⟨fun _ _ found => found, fun id stmt found => ?_⟩
  simp only [stmt?, Tree.addStmt] at found ⊢
  obtain ⟨inside, _⟩ := Array.getElem?_eq_some_iff.mp found
  rw [Array.getElem?_push_lt inside, ← found, Array.getElem?_eq_getElem inside]

end Grows

@[simp] theorem kind?_addExpr (tree : Tree) (kind : ExprKind) (span : Span) :
    (tree.addExpr kind span).2.kind? ⟨tree.exprs.size⟩ = some kind := by
  simp [kind?, expr?, addExpr]

@[simp] theorem stmtKind?_addStmt (tree : Tree) (kind : StmtKind) (span : Span) :
    (tree.addStmt kind span).2.stmtKind? ⟨tree.stmts.size⟩ = some kind := by
  simp [stmtKind?, stmt?, addStmt]

end Tree

/-- How far a tree has been built. -/
structure Mark where
  exprs : Nat
  stmts : Nat

def Tree.mark (tree : Tree) : Mark := ⟨tree.exprs.size, tree.stmts.size⟩

namespace Grammar

/-- Items that lie one after the other. -/
inductive Stretch {μ ι α : Type} (lies : μ → μ → ι → α → Prop) : μ → μ → List ι → List α → Prop where
  | nil {place : μ} : Stretch lies place place [] []
  | cons {first second last : μ} {id : ι} {ids : List ι} {x : α} {xs : List α} :
      lies first second id x → Stretch lies second last ids xs → Stretch lies first last (id :: ids) (x :: xs)

def Base.kind : Base → ExprKind
  | .name known => .name known
  | .text value => .text value

def Base.term : Base → Term
  | .name known => .name known
  | .text value => .text value

section

variable (tree : Tree)

mutual

/-- The nodes `[lo, hi)` are those of a term with the given root. -/
inductive ExprLayout : Nat → Nat → ExprId → Term → Prop where
  | int {lo : Nat} {digits : String} {value : Int64} :
      Integer.read? digits = some value → tree.kind? ⟨lo⟩ = some (.int value) →
        ExprLayout lo (lo + 1) ⟨lo⟩ (.int digits)
  | float {lo : Nat} {digits : String} {value : Float} :
      Decimal.read? digits = some value → tree.kind? ⟨lo⟩ = some (.float value) →
        ExprLayout lo (lo + 1) ⟨lo⟩ (.float digits)
  | text {lo : Nat} {value : String} :
      tree.kind? ⟨lo⟩ = some (.text value) → ExprLayout lo (lo + 1) ⟨lo⟩ (.text value)
  | name {lo : Nat} {name : String} :
      tree.kind? ⟨lo⟩ = some (.name name) → ExprLayout lo (lo + 1) ⟨lo⟩ (.name name)
  | array {lo hi : Nat} {ids : List ExprId} {items : List Term} :
      Stretch ExprLayout lo hi ids items → tree.kind? ⟨hi⟩ = some (.array ids) →
        ExprLayout lo (hi + 1) ⟨hi⟩ (.array items)
  | indexed {lo hi : Nat} {base : Base} {ids : List ExprId} {indices : List (Component Term)} :
      tree.kind? ⟨lo⟩ = some base.kind → ids ≠ [] →
        Stretch IndexLayout (lo + 1) hi ids indices →
        tree.kind? ⟨hi⟩ = some (.indexed ⟨lo⟩ ids) → ExprLayout lo (hi + 1) ⟨hi⟩ (.indexed base indices)
  | linear {lo mid hi : Nat} {left right : ExprId} {op : Arith} {a b : Term} :
      ExprLayout lo mid left a → ExprLayout mid hi right b →
        tree.kind? ⟨hi⟩ = some (.linear left op right) → ExprLayout lo (hi + 1) ⟨hi⟩ (.linear a op b)
  | elementwise {lo mid hi : Nat} {left right : ExprId} {op : Arith} {a b : Term} :
      ExprLayout lo mid left a → ExprLayout mid hi right b →
        tree.kind? ⟨hi⟩ = some (.elementwise left op right) → ExprLayout lo (hi + 1) ⟨hi⟩ (.elementwise a op b)
  | compare {lo mid hi : Nat} {left right : ExprId} {op : Compare} {a b : Term} :
      ExprLayout lo mid left a → ExprLayout mid hi right b →
        tree.kind? ⟨hi⟩ = some (.compare left op right) → ExprLayout lo (hi + 1) ⟨hi⟩ (.compare a op b)
  | negate {lo hi : Nat} {operand : ExprId} {term : Term} :
      ExprLayout lo hi operand term → tree.kind? ⟨hi⟩ = some (.negate operand) →
        ExprLayout lo (hi + 1) ⟨hi⟩ (.negate term)
  | transpose {lo hi : Nat} {operand : ExprId} {term : Term} :
      ExprLayout lo hi operand term → tree.kind? ⟨hi⟩ = some (.transpose operand) →
        ExprLayout lo (hi + 1) ⟨hi⟩ (.transpose term)
  | builtin {lo hi : Nat} {function : Builtin} {ids : List ExprId} {arguments : List Term} :
      Stretch ExprLayout lo hi ids arguments → tree.kind? ⟨hi⟩ = some (.builtin function ids) →
        ExprLayout lo (hi + 1) ⟨hi⟩ (.builtin function arguments)

/-- A range has a node of its own behind those of its bounds. -/
inductive IndexLayout : Nat → Nat → ExprId → Component Term → Prop where
  | point {lo hi : Nat} {id : ExprId} {term : Term} :
      ExprLayout lo hi id term → IndexLayout lo hi id (.point term)
  | span {lo mid hi : Nat} {start stop : ExprId} {a b : Term} :
      ExprLayout lo mid start a → ExprLayout mid hi stop b → tree.kind? ⟨hi⟩ = some (.range start stop) →
        IndexLayout lo (hi + 1) ⟨hi⟩ (.span a b)

end

/-- The nodes between two marks are those of a statement, its expressions included. -/
inductive StmtLayout : Mark → Mark → StmtId → Phrase → Prop where
  | block {lo hi : Mark} {ids : List StmtId} {body : List Phrase} :
      Stretch StmtLayout lo hi ids body → tree.stmtKind? ⟨hi.stmts⟩ = some (.block ids) →
        StmtLayout lo ⟨hi.exprs, hi.stmts + 1⟩ ⟨hi.stmts⟩ (.block body)
  | assign {lo mid hi s : Nat} {target value : ExprId} {op : Assign} {a b : Term} :
      ExprLayout tree lo mid target a → ExprLayout tree mid hi value b →
        tree.stmtKind? ⟨s⟩ = some (.assign target op value) →
        StmtLayout ⟨lo, s⟩ ⟨hi, s + 1⟩ ⟨s⟩ (.assign a op b)
  | forRange {lo mid hi s : Nat} {last : Mark} {counter : String} {start stop : ExprId} {body : StmtId}
      {a b : Term} {phrase : Phrase} :
      ExprLayout tree lo mid start a → ExprLayout tree mid hi stop b →
        tree.kind? ⟨hi⟩ = some (.range start stop) → StmtLayout ⟨hi + 1, s⟩ last body phrase →
        tree.stmtKind? ⟨last.stmts⟩ = some (.forRange counter ⟨hi⟩ body) →
        StmtLayout ⟨lo, s⟩ ⟨last.exprs, last.stmts + 1⟩ ⟨last.stmts⟩ (.forRange counter a b phrase)
  | whileLoop {lo hi s : Nat} {last : Mark} {condition : ExprId} {body : StmtId} {a : Term} {phrase : Phrase} :
      ExprLayout tree lo hi condition a → StmtLayout ⟨hi, s⟩ last body phrase →
        tree.stmtKind? ⟨last.stmts⟩ = some (.whileLoop condition body) →
        StmtLayout ⟨lo, s⟩ ⟨last.exprs, last.stmts + 1⟩ ⟨last.stmts⟩ (.whileLoop a phrase)
  | branch {lo hi s : Nat} {last : Mark} {condition : ExprId} {thenBody : StmtId} {a : Term} {phrase : Phrase} :
      ExprLayout tree lo hi condition a → StmtLayout ⟨hi, s⟩ last thenBody phrase →
        tree.stmtKind? ⟨last.stmts⟩ = some (.branch condition thenBody none) →
        StmtLayout ⟨lo, s⟩ ⟨last.exprs, last.stmts + 1⟩ ⟨last.stmts⟩ (.branch a phrase)
  | branchElse {lo hi s : Nat} {middle last : Mark} {condition : ExprId} {thenBody elseBody : StmtId} {a : Term}
      {first second : Phrase} :
      ExprLayout tree lo hi condition a → StmtLayout ⟨hi, s⟩ middle thenBody first →
        StmtLayout middle last elseBody second →
        tree.stmtKind? ⟨last.stmts⟩ = some (.branch condition thenBody (some elseBody)) →
        StmtLayout ⟨lo, s⟩ ⟨last.exprs, last.stmts + 1⟩ ⟨last.stmts⟩ (.branchElse a first second)
  | breakLoop {e s : Nat} :
      tree.stmtKind? ⟨s⟩ = some .breakLoop → StmtLayout ⟨e, s⟩ ⟨e, s + 1⟩ ⟨s⟩ .breakLoop
  | continueLoop {e s : Nat} :
      tree.stmtKind? ⟨s⟩ = some .continueLoop → StmtLayout ⟨e, s⟩ ⟨e, s + 1⟩ ⟨s⟩ .continueLoop
  | giveBack {lo hi s : Nat} {ids : List ExprId} {values : List Term} :
      Stretch (ExprLayout tree) lo hi ids values → tree.stmtKind? ⟨s⟩ = some (.giveBack ids) →
        StmtLayout ⟨lo, s⟩ ⟨hi, s + 1⟩ ⟨s⟩ (.giveBack values)
  | print {lo hi s : Nat} {ids : List ExprId} {values : List Term} :
      Stretch (ExprLayout tree) lo hi ids values → tree.stmtKind? ⟨s⟩ = some (.print ids) →
        StmtLayout ⟨lo, s⟩ ⟨hi, s + 1⟩ ⟨s⟩ (.print values)

end

theorem Base.lies {tree : Tree} {base : Base} {lo : Nat} (node : tree.kind? ⟨lo⟩ = some base.kind) :
    ExprLayout tree lo (lo + 1) ⟨lo⟩ base.term := by
  cases base with
  | name known => exact .name node
  | text value => exact .text node

theorem ExprLayout.root {tree : Tree} {lo hi : Nat} {id : ExprId} {term : Term}
    (layout : ExprLayout tree lo hi id term) : hi = id.index + 1 := by
  cases layout <;> rfl

theorem ExprLayout.node {tree : Tree} {lo hi : Nat} {id : ExprId} {term : Term}
    (layout : ExprLayout tree lo hi id term) : ∃ kind, tree.kind? id = some kind := by
  cases layout <;> exact ⟨_, ‹_›⟩

theorem IndexLayout.root {tree : Tree} {lo hi : Nat} {id : ExprId} {index : Component Term}
    (layout : IndexLayout tree lo hi id index) : hi = id.index + 1 := by
  cases layout with
  | point inner => exact inner.root
  | span _ _ _ => rfl

theorem StmtLayout.node {tree : Tree} {lo hi : Mark} {id : StmtId} {phrase : Phrase}
    (layout : StmtLayout tree lo hi id phrase) : ∃ kind, tree.stmtKind? id = some kind := by
  cases layout <;> exact ⟨_, ‹_›⟩

theorem StmtLayout.root {tree : Tree} {lo hi : Mark} {id : StmtId} {phrase : Phrase}
    (layout : StmtLayout tree lo hi id phrase) : hi.stmts = id.index + 1 := by
  cases layout <;> rfl

namespace Stretch

variable {μ ι α : Type} {lies lies' : μ → μ → ι → α → Prop} {lo hi : μ} {ids : List ι} {xs : List α}

theorem le (size : μ → Nat) (stretch : Stretch lies lo hi ids xs)
    (step : ∀ first last id x, size last ≤ size hi → lies first last id x → size first < size last) :
    size lo ≤ size hi := by
  induction stretch with
  | nil => exact Nat.le_refl _
  | cons item rest ih =>
    have later := ih step
    exact Nat.le_trans (Nat.le_of_lt (step _ _ _ _ later item)) later

theorem map (size : μ → Nat) (stretch : Stretch lies lo hi ids xs)
    (rising : ∀ first last id x, lies first last id x → size first < size last)
    (step : ∀ first last id x, size last ≤ size hi → lies first last id x → lies' first last id x) :
    Stretch lies' lo hi ids xs := by
  induction stretch with
  | nil => exact .nil
  | cons item rest ih =>
    have inside := rest.le size fun first last id x _ => rising first last id x
    exact .cons (step _ _ _ _ inside item) (ih step)

theorem split {before after : List ι} {next : ι} (stretch : Stretch lies lo hi (before ++ next :: after) xs) :
    ∃ first second x front back, Stretch lies lo first before front ∧ lies first second next x ∧
      Stretch lies second hi after back := by
  induction before generalizing lo xs with
  | nil =>
    cases stretch with
    | cons item rest => exact ⟨_, _, _, _, _, .nil, item, rest⟩
  | cons id before ih =>
    cases stretch with
    | cons item rest =>
      obtain ⟨first, second, x, front, back, earlier, here, later⟩ := ih rest
      exact ⟨first, second, x, _, back, .cons item earlier, here, later⟩

end Stretch

theorem IndexLayout.lt_of {tree : Tree} {lo hi : Nat} {id : ExprId} {index : Component Term}
    (layout : IndexLayout tree lo hi id index)
    (step : ∀ first last id term, last ≤ hi → ExprLayout tree first last id term → first < last) : lo < hi := by
  cases layout with
  | point inner => exact step _ _ _ _ (Nat.le_refl _) inner
  | span left right _ =>
    have first := step _ _ _ _ (Nat.le_succ _) right
    have second := step _ _ _ _ (by omega) left
    omega

theorem ExprLayout.lt {tree : Tree} {lo hi : Nat} {id : ExprId} {term : Term}
    (layout : ExprLayout tree lo hi id term) : lo < hi := by
  induction hi using Nat.strongRecOn generalizing lo id term with
  | ind hi ih =>
    cases layout with
    | int | float | text | name => exact Nat.lt_succ_self _
    | array items _ | builtin items _ =>
      have := items.le (fun n => n) fun _ _ _ _ inside => ih _ (Nat.lt_succ_of_le inside)
      exact Nat.lt_succ_of_le this
    | indexed _ _ indices _ =>
      have := indices.le (fun n => n) fun _ _ _ _ inside index =>
        index.lt_of fun _ _ _ _ within => ih _ (Nat.lt_succ_of_le (Nat.le_trans within inside))
      omega
    | linear left right _ | elementwise left right _ | compare left right _ =>
      have first := ih _ (Nat.lt_succ_self _) right
      have second := ih _ (by omega) left
      omega
    | negate inner _ | transpose inner _ => exact Nat.lt_succ_of_lt (ih _ (Nat.lt_succ_self _) inner)

theorem IndexLayout.lt {tree : Tree} {lo hi : Nat} {id : ExprId} {index : Component Term}
    (layout : IndexLayout tree lo hi id index) : lo < hi :=
  layout.lt_of fun _ _ _ _ _ inner => inner.lt

theorem ExprLayout.stretch_le {tree : Tree} {lo hi : Nat} {ids : List ExprId} {terms : List Term}
    (stretch : Stretch (ExprLayout tree) lo hi ids terms) : lo ≤ hi :=
  stretch.le (fun n => n) fun _ _ _ _ _ item => item.lt

theorem StmtLayout.lt {tree : Tree} {lo hi : Mark} {id : StmtId} {phrase : Phrase}
    (layout : StmtLayout tree lo hi id phrase) : lo.stmts < hi.stmts := by
  induction size : hi.stmts using Nat.strongRecOn generalizing lo hi id phrase with
  | ind n ih =>
    subst size
    cases layout with
    | block items _ =>
      have := items.le Mark.stmts fun _ _ _ _ inside item => ih _ (Nat.lt_succ_of_le inside) item rfl
      exact Nat.lt_succ_of_le this
    | assign | breakLoop | continueLoop | giveBack | print => exact Nat.lt_succ_self _
    | forRange _ _ _ body _ | whileLoop _ body _ | branch _ body _ =>
      have inner := ih _ (Nat.lt_succ_self _) body rfl
      exact Nat.lt_succ_of_lt inner
    | branchElse _ first second _ =>
      have later := ih _ (Nat.lt_succ_self _) second rfl
      have earlier := ih _ (Nat.lt_succ_of_lt later) first rfl
      exact Nat.lt_succ_of_lt (Nat.lt_trans earlier later)

theorem StmtLayout.le_root {tree : Tree} {lo hi : Mark} {id : StmtId} {phrase : Phrase}
    (layout : StmtLayout tree lo hi id phrase) : lo.stmts ≤ id.index := by
  have rising := layout.lt
  rw [layout.root] at rising
  exact Nat.le_of_lt_succ rising

def Parts (tree : Tree) (lo hi : Mark) : StmtKind → Prop
  | .block ids => ∃ body, Stretch (StmtLayout tree) lo hi ids body
  | .assign target _ value =>
    ∃ mid a b, ExprLayout tree lo.exprs mid target a ∧ ExprLayout tree mid hi.exprs value b
  | .forRange _ range body =>
    ∃ mid last start stop a b phrase, ExprLayout tree lo.exprs mid start a ∧ ExprLayout tree mid last stop b ∧
      range = ⟨last⟩ ∧ tree.kind? range = some (.range start stop) ∧
      StmtLayout tree ⟨last + 1, lo.stmts⟩ hi body phrase
  | .whileLoop condition body | .branch condition body none =>
    ∃ last a phrase, ExprLayout tree lo.exprs last condition a ∧ StmtLayout tree ⟨last, lo.stmts⟩ hi body phrase
  | .branch condition thenBody (some elseBody) =>
    ∃ last middle a first second, ExprLayout tree lo.exprs last condition a ∧
      StmtLayout tree ⟨last, lo.stmts⟩ middle thenBody first ∧ StmtLayout tree middle hi elseBody second
  | .breakLoop | .continueLoop => lo = hi
  | .giveBack ids | .print ids => ∃ terms, Stretch (ExprLayout tree) lo.exprs hi.exprs ids terms

theorem StmtLayout.parts {tree : Tree} {lo hi : Mark} {id : StmtId} {phrase : Phrase} {kind : StmtKind}
    (layout : StmtLayout tree lo hi id phrase) (node : tree.stmtKind? id = some kind) :
    Parts tree lo ⟨hi.exprs, id.index⟩ kind := by
  cases layout with
  | block items known =>
    cases node.symm.trans known
    exact ⟨_, items⟩
  | assign target value known =>
    cases node.symm.trans known
    exact ⟨_, _, _, target, value⟩
  | forRange start stop range body known =>
    cases node.symm.trans known
    exact ⟨_, _, _, _, _, _, _, start, stop, rfl, range, body⟩
  | whileLoop condition body known | branch condition body known =>
    cases node.symm.trans known
    exact ⟨_, _, _, condition, body⟩
  | branchElse condition first second known =>
    cases node.symm.trans known
    exact ⟨_, _, _, _, _, condition, first, second⟩
  | breakLoop known | continueLoop known =>
    cases node.symm.trans known
    rfl
  | giveBack values known | print values known =>
    cases node.symm.trans known
    exact ⟨_, values⟩

section

variable {tree later : Tree} (grows : tree.Grows later)
include grows

theorem IndexLayout.grow_of {lo hi : Nat} {id : ExprId} {index : Component Term}
    (layout : IndexLayout tree lo hi id index)
    (step : ∀ first last id term, last ≤ hi → ExprLayout tree first last id term →
      ExprLayout later first last id term) : IndexLayout later lo hi id index := by
  cases layout with
  | point inner => exact .point (step _ _ _ _ (Nat.le_refl _) inner)
  | span left right node =>
    have below := right.lt
    exact .span (step _ _ _ _ (by omega) left) (step _ _ _ _ (Nat.le_succ _) right) (grows.kind node)

theorem ExprLayout.grow {lo hi : Nat} {id : ExprId} {term : Term} (layout : ExprLayout tree lo hi id term) :
    ExprLayout later lo hi id term := by
  induction hi using Nat.strongRecOn generalizing lo id term with
  | ind hi ih =>
    -- every operand lies in front of the root
    have items {lo mid : Nat} {ids : List ExprId} {terms : List Term} (inside : mid < hi)
        (stretch : Stretch (ExprLayout tree) lo mid ids terms) : Stretch (ExprLayout later) lo mid ids terms :=
      stretch.map (fun n => n) (fun _ _ _ _ => ExprLayout.lt)
        fun _ _ _ _ within => ih _ (Nat.lt_of_le_of_lt within inside)
    cases layout with
    | int read node => exact .int read (grows.kind node)
    | float read node => exact .float read (grows.kind node)
    | text node => exact .text (grows.kind node)
    | name node => exact .name (grows.kind node)
    | array stretch node => exact .array (items (Nat.lt_succ_self _) stretch) (grows.kind node)
    | builtin stretch node => exact .builtin (items (Nat.lt_succ_self _) stretch) (grows.kind node)
    | indexed base nonempty stretch node =>
      refine .indexed (grows.kind base) nonempty ?_ (grows.kind node)
      refine stretch.map (fun n => n) (fun _ _ _ _ => IndexLayout.lt) fun _ _ _ _ within index => ?_
      exact index.grow_of grows fun _ _ _ _ deeper => ih _ (Nat.lt_succ_of_le (Nat.le_trans deeper within))
    | linear left right node =>
      exact .linear (ih _ (Nat.lt_succ_of_lt right.lt) left) (ih _ (Nat.lt_succ_self _) right) (grows.kind node)
    | elementwise left right node =>
      exact .elementwise (ih _ (Nat.lt_succ_of_lt right.lt) left) (ih _ (Nat.lt_succ_self _) right)
        (grows.kind node)
    | compare left right node =>
      exact .compare (ih _ (Nat.lt_succ_of_lt right.lt) left) (ih _ (Nat.lt_succ_self _) right)
        (grows.kind node)
    | negate inner node => exact .negate (ih _ (Nat.lt_succ_self _) inner) (grows.kind node)
    | transpose inner node => exact .transpose (ih _ (Nat.lt_succ_self _) inner) (grows.kind node)

theorem IndexLayout.grow {lo hi : Nat} {id : ExprId} {index : Component Term}
    (layout : IndexLayout tree lo hi id index) : IndexLayout later lo hi id index :=
  layout.grow_of grows fun _ _ _ _ _ inner => inner.grow grows

theorem ExprLayout.stretch_grow {lo hi : Nat} {ids : List ExprId} {terms : List Term}
    (stretch : Stretch (ExprLayout tree) lo hi ids terms) : Stretch (ExprLayout later) lo hi ids terms :=
  stretch.map (fun n => n) (fun _ _ _ _ => ExprLayout.lt) fun _ _ _ _ _ item => item.grow grows

theorem StmtLayout.grow {lo hi : Mark} {id : StmtId} {phrase : Phrase}
    (layout : StmtLayout tree lo hi id phrase) : StmtLayout later lo hi id phrase := by
  induction size : hi.stmts using Nat.strongRecOn generalizing lo hi id phrase with
  | ind n ih =>
    subst size
    cases layout with
    | block items node =>
      refine .block ?_ (grows.stmtKind node)
      exact items.map Mark.stmts (fun _ _ _ _ => StmtLayout.lt)
        fun _ _ _ _ within item => ih _ (Nat.lt_succ_of_le within) item rfl
    | assign target value node => exact .assign (target.grow grows) (value.grow grows) (grows.stmtKind node)
    | forRange start stop range body node =>
      exact .forRange (start.grow grows) (stop.grow grows) (grows.kind range)
        (ih _ (Nat.lt_succ_self _) body rfl) (grows.stmtKind node)
    | whileLoop condition body node =>
      exact .whileLoop (condition.grow grows) (ih _ (Nat.lt_succ_self _) body rfl) (grows.stmtKind node)
    | branch condition body node =>
      exact .branch (condition.grow grows) (ih _ (Nat.lt_succ_self _) body rfl) (grows.stmtKind node)
    | branchElse condition first second node =>
      exact .branchElse (condition.grow grows) (ih _ (Nat.lt_succ_of_lt second.lt) first rfl)
        (ih _ (Nat.lt_succ_self _) second rfl) (grows.stmtKind node)
    | breakLoop node => exact .breakLoop (grows.stmtKind node)
    | continueLoop node => exact .continueLoop (grows.stmtKind node)
    | giveBack values node => exact .giveBack (ExprLayout.stretch_grow grows values) (grows.stmtKind node)
    | print values node => exact .print (ExprLayout.stretch_grow grows values) (grows.stmtKind node)

end

end Grammar

/-- The tree is that of a program, numbered in the order in which its nodes end. -/
def Tree.Represents (tree : Tree) (body : List Grammar.Phrase) : Prop :=
  Grammar.Stretch (Grammar.StmtLayout tree) ⟨0, 0⟩ tree.mark tree.body body

end MatrixScript
