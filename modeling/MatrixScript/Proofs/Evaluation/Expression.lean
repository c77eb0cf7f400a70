import MatrixScript.Proofs.Evaluation.Outcome
import MatrixScript.Proofs.Grammar.Nesting

/-! Evaluating the nodes of an expression.

A statement about all nodes of an expression is proved node by node: a node may rely on its operands. The number
that bounds the nesting is large enough whenever it exceeds the number of the node.
-/

set_option autoImplicit false

namespace MatrixScript.Evaluation

variable {tree : Tree} {memory : Memory Value} {Allowed : Fault → Prop} {Good : ExprId → Value → Prop} {lo hi : Nat}

section

variable {operand operand' : ExprId → Eval Value} (operands : ∀ id, Refines (operand id) (operand' id))
include operands

theorem integer_refines (id : ExprId) : Refines (integer tree operand id) (integer tree operand' id) :=
  (operands id).bind fun _ => .refl _

theorem selector_refines (id : ExprId) : Refines (selector tree operand id) (selector tree operand' id) := by
  unfold selector
  split
  · refine ((integer_refines operands _).bind fun _ => ?_).bind fun _ => .refl _
    exact (integer_refines operands _).bind fun _ => .refl _
  · exact (integer_refines operands id).bind fun _ => .refl _

theorem selectors_refines (ids : List ExprId) : Refines (selectors tree operand ids) (selectors tree operand' ids) :=
  Refines.mapM (selector_refines operands) ids

/-- A node has no other value when its operands have at least the values that they had. -/
theorem node_refines (expr : Expr) :
    Refines (node tree (fetch memory) operand expr) (node tree (fetch memory) operand' expr) := by
  obtain ⟨kind, span⟩ := expr
  cases kind with
  | int _ | float _ | text _ | name _ | range _ _ => exact .refl _
  | array items => exact (Refines.mapM operands items).bind fun _ => .refl _
  | indexed base indices =>
    exact (operands base).bind fun _ => (selectors_refines operands indices).bind fun _ => .refl _
  | linear left op right | elementwise left op right | compare left op right =>
    exact (operands left).bind fun _ => (operands right).bind fun _ => .refl _
  | negate inner | transpose inner => exact (operands inner).bind fun _ => .refl _
  | builtin function arguments =>
    exact (Refines.mapM (fun id => (operands id).bind fun _ => .refl _) arguments).bind fun _ => .refl _

end

theorem node_name {expr : Expr} {name : String} {value : Value} (known : expr.kind = .name name)
    (read : memory.read? name = some value) (operand : ExprId → Eval Value) :
    node tree (fetch memory) operand expr = .ok value := by
  simp only [node, known, fetch, read]
  rfl

theorem evaluateWithin_refines {depth more : Nat} (le : depth ≤ more) (id : ExprId) :
    Refines (evaluateWithin tree memory depth id) (evaluateWithin tree memory more id) := by
  induction depth generalizing more id with
  | zero => exact nofun
  | succ depth ih =>
    obtain ⟨more, rfl⟩ : ∃ smaller, more = smaller + 1 := ⟨more - 1, by omega⟩
    unfold evaluateWithin valueWithin
    split
    · exact .refl _
    · exact node_refines (fun child => ih (by omega) child) _

variable (Good) in
theorem evaluateWithin_of_nodes
    (present : ∀ id : ExprId, lo ≤ id.index → id.index < hi → ∃ expr, tree.expr? id = some expr)
    (step : ∀ id expr operand, tree.Placed lo hi id → tree.expr? id = some expr →
      (∀ child, tree.Placed lo id.index child → Evaluates Allowed (Good child) (operand child)) →
      Evaluates Allowed (Good id) (node tree (fetch memory) operand expr))
    {id : ExprId} (placed : tree.Placed lo hi id) {depth : Nat} (deep : id.index < depth) :
    Evaluates Allowed (Good id) (evaluateWithin tree memory depth id) := by
  induction depth generalizing id with
  | zero => exact absurd deep (Nat.not_lt_zero _)
  | succ depth ih =>
    obtain ⟨expr, found⟩ := present id placed.above placed.below
    rw [evaluateWithin, valueWithin, found]
    refine step id expr _ placed found fun child inside => ?_
    have below := inside.below
    exact ih (inside.widen (Nat.le_refl _) (Nat.le_of_lt placed.below)) (by omega)

/-- What stands where an integer has to be is an integer, or refusing it is allowed. -/
def Integral (Allowed : Fault → Prop) (Good : ExprId → Value → Prop) (id : ExprId) : Prop :=
  ∀ value, Good id value → (∃ number, value = .int number) ∨ Allowed (.invalidIndex (.notInteger value.typeName))

/-- What one index selects. -/
inductive Selects (tree : Tree) (Good : ExprId → Value → Prop) (id : ExprId) : Selector → Prop where
  | point {index : Int64} : ¬tree.IsRange id → Good id (.int index) → Selects tree Good id (.point index)
  | span {start stop : ExprId} {first last : Int64} :
      tree.kind? id = some (.range start stop) → Good start (.int first) → Good stop (.int last) →
        Selects tree Good id (.span first last)

/-- An index has a good value, or it is a range of good bounds. -/
inductive Operates (tree : Tree) (Allowed : Fault → Prop) (Good : ExprId → Value → Prop)
    (operand : ExprId → Eval Value) (id : ExprId) : Prop where
  | point : ¬tree.IsRange id → Evaluates Allowed (Good id) (operand id) → Integral Allowed Good id →
      Operates tree Allowed Good operand id
  | span {start stop : ExprId} :
      tree.kind? id = some (.range start stop) →
        Evaluates Allowed (Good start) (operand start) → Integral Allowed Good start →
        Evaluates Allowed (Good stop) (operand stop) → Integral Allowed Good stop →
        Operates tree Allowed Good operand id

variable {operand : ExprId → Eval Value}

theorem integer_evaluates {id : ExprId} (value : Evaluates Allowed (Good id) (operand id))
    (integral : Integral Allowed Good id) :
    Evaluates Allowed (fun number => Good id (.int number)) (integer tree operand id) := by
  refine value.bind fun value good => ?_
  rcases integral value good with ⟨number, rfl⟩ | refused
  · exact good
  · cases value with
    | int number => exact good
    | float _ | text _ | bool _ | matrix _ => exact refused

theorem bounds_evaluate {start stop : ExprId} (first : Evaluates Allowed (Good start) (operand start))
    (one : Integral Allowed Good start) (second : Evaluates Allowed (Good stop) (operand stop))
    (two : Integral Allowed Good stop) :
    Evaluates Allowed (fun bounds => Good start (.int bounds.1) ∧ Good stop (.int bounds.2))
      (bounds tree operand start stop) := by
  refine (integer_evaluates first one).bind fun low lowGood => ?_
  refine (integer_evaluates second two).bind fun high highGood => ?_
  exact ⟨lowGood, highGood⟩

theorem selector_plain {id : ExprId} (plain : ¬tree.IsRange id) :
    selector tree operand id = (integer tree operand id >>= fun index => pure (.point index)) := by
  unfold selector
  split
  · next start stop node => exact absurd ⟨start, stop, node⟩ plain
  · rfl

theorem selector_evaluates {id : ExprId} (operates : Operates tree Allowed Good operand id) :
    Evaluates Allowed (Selects tree Good id) (selector tree operand id) := by
  cases operates with
  | point plain value integral =>
    rw [selector_plain plain]
    exact (integer_evaluates value integral).bind fun index good => .point plain good
  | span node first one second two =>
    unfold selector
    rw [node]
    exact (bounds_evaluate first one second two).bind fun bounds good => .span node good.1 good.2

theorem selectors_evaluate {ids : List ExprId} (operates : ∀ id ∈ ids, Operates tree Allowed Good operand id) :
    Evaluates Allowed (List.Forall₂ (Selects tree Good) ids) (selectors tree operand ids) :=
  Evaluates.mapM fun id member => selector_evaluates (operates id member)

theorem operates_of_nested (nested : tree.Nested lo hi) {id child : ExprId} {kind : ExprKind}
    (placed : tree.Placed lo hi id) (node : tree.kind? id = some kind) (member : child ∈ kind.indices)
    (operands : ∀ child, tree.Placed lo id.index child → Evaluates Allowed (Good child) (operand child))
    (integral : ∀ bound, tree.Placed lo id.index bound →
      (bound = child ∨ ∃ start stop, tree.kind? child = some (.range start stop) ∧ (bound = start ∨ bound = stop)) →
      Integral Allowed Good bound) : Operates tree Allowed Good operand child := by
  obtain ⟨above, below⟩ := (nested id kind placed.above placed.below node).index child member
  have inside := placed.below
  by_cases range : tree.IsRange child
  · obtain ⟨start, stop, range⟩ := range
    have bound := (nested child _ above (by omega) range).operand
    have first := (bound start (by simp [ExprKind.operands])).widen (Nat.le_refl _) (Nat.le_of_lt below)
    have last := (bound stop (by simp [ExprKind.operands])).widen (Nat.le_refl _) (Nat.le_of_lt below)
    exact .span range (operands start first) (integral start first (.inr ⟨start, stop, range, .inl rfl⟩))
      (operands stop last) (integral stop last (.inr ⟨start, stop, range, .inr rfl⟩))
  · have placed : tree.Placed lo id.index child := ⟨above, below, range⟩
    exact .point range (operands child placed) (integral child placed (.inl rfl))

end MatrixScript.Evaluation
