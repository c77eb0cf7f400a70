import MatrixScript.Proofs.Grammar.Layout

/-! The operands of the nodes of an expression are nodes of it, in front of their own node.

A range is an index and nothing else. Whoever goes from a node to its operands so stays among the nodes of the
expression and comes to an end.
-/

set_option autoImplicit false

namespace MatrixScript

/-- The operands of a node that have a value. An index may be a range, which has none. -/
def ExprKind.operands : ExprKind → List ExprId
  | .int _ | .float _ | .text _ | .name _ => []
  | .array items => items
  | .indexed base _ => [base]
  | .linear left _ right | .elementwise left _ right | .compare left _ right => [left, right]
  | .negate operand | .transpose operand => [operand]
  | .builtin _ arguments => arguments
  | .range start stop => [start, stop]

def ExprKind.indices : ExprKind → List ExprId
  | .indexed _ indices => indices
  | _ => []

def ExprKind.children (kind : ExprKind) : List ExprId := kind.operands ++ kind.indices

namespace Tree

def IsRange (tree : Tree) (id : ExprId) : Prop := ∃ start stop, tree.kind? id = some (.range start stop)

/-- A node among `[lo, hi)` that is not a range. -/
structure Placed (tree : Tree) (lo hi : Nat) (id : ExprId) : Prop where
  above : lo ≤ id.index
  below : id.index < hi
  plain : ¬tree.IsRange id

theorem Placed.widen {tree : Tree} {lo lo' hi hi' : Nat} {id : ExprId} (placed : tree.Placed lo hi id)
    (start : lo' ≤ lo) (stop : hi ≤ hi') : tree.Placed lo' hi' id :=
  ⟨Nat.le_trans start placed.above, Nat.lt_of_lt_of_le placed.below stop, placed.plain⟩

/-- What a node needs is among the nodes `[lo, hi)`, which are at least as many as its operands. -/
structure Supports (tree : Tree) (lo hi : Nat) (kind : ExprKind) : Prop where
  operand : ∀ child ∈ kind.operands, tree.Placed lo hi child
  index : ∀ child ∈ kind.indices, lo ≤ child.index ∧ child.index < hi
  few : kind.operands.length ≤ hi
  chosen : ∀ base indices, kind = .indexed base indices → indices ≠ []

def Nested (tree : Tree) (lo hi : Nat) : Prop :=
  ∀ id kind, lo ≤ id.index → id.index < hi → tree.kind? id = some kind → tree.Supports lo id.index kind

theorem Supports.lower {tree : Tree} {lo mid hi : Nat} {kind : ExprKind} (supports : tree.Supports mid hi kind)
    (le : lo ≤ mid) : tree.Supports lo hi kind where
  operand := fun child member => (supports.operand child member).widen le (Nat.le_refl _)
  index := fun child member => ⟨Nat.le_trans le (supports.index child member).1, (supports.index child member).2⟩
  few := supports.few
  chosen := supports.chosen

theorem Supports.of_operands {tree : Tree} {lo hi : Nat} {kind : ExprKind} (simple : kind.indices = [])
    (operands : ∀ child ∈ kind.operands, tree.Placed lo hi child) (few : kind.operands.length ≤ hi)
    (plain : ∀ base indices, kind ≠ .indexed base indices) : tree.Supports lo hi kind where
  operand := operands
  index := by
    rw [simple]
    exact fun _ member => nomatch member
  few := few
  chosen := fun base indices same => absurd same (plain base indices)

namespace Nested

variable {tree : Tree} {lo mid hi : Nat}

theorem empty (place : Nat) : tree.Nested place place :=
  fun _ _ above below => absurd below (Nat.not_lt.mpr above)

theorem append (first : tree.Nested lo mid) (second : tree.Nested mid hi) (le : lo ≤ mid) : tree.Nested lo hi := by
  intro id kind above below found
  by_cases earlier : id.index < mid
  · exact first id kind above earlier found
  · exact (second id kind (Nat.le_of_not_lt earlier) below found).lower le

theorem node (nested : tree.Nested lo hi) {kind : ExprKind} (found : tree.kind? ⟨hi⟩ = some kind)
    (supports : tree.Supports lo hi kind) : tree.Nested lo (hi + 1) := by
  intro id known above below held
  by_cases root : id.index = hi
  · obtain rfl : id = ⟨hi⟩ := congrArg ExprId.mk root
    cases found.symm.trans held
    exact supports
  · exact nested id known above (by omega) held

end Nested

end Tree

namespace Grammar

variable {tree : Tree}

theorem ExprLayout.placed {lo hi : Nat} {id : ExprId} {term : Term} (layout : ExprLayout tree lo hi id term) :
    tree.Placed lo hi id := by
  have root := layout.root
  have rising := layout.lt
  refine ⟨by omega, by omega, ?_⟩
  rintro ⟨start, stop, node⟩
  cases layout with
  | int _ known | float _ known | text known | name known | array _ known | indexed _ _ _ known | linear _ _ known
  | elementwise _ _ known | compare _ _ known | negate _ known | transpose _ known | builtin _ known =>
    cases node.symm.trans known

theorem ExprLayout.stretch_placed {lo hi : Nat} {ids : List ExprId} {terms : List Term}
    (stretch : Stretch (ExprLayout tree) lo hi ids terms) : ∀ id ∈ ids, tree.Placed lo hi id := by
  induction stretch with
  | nil => exact fun _ member => nomatch member
  | cons item rest ih =>
    have inside := ExprLayout.stretch_le rest
    intro other member
    rcases List.mem_cons.mp member with rfl | member
    · exact item.placed.widen (Nat.le_refl _) inside
    · exact (ih other member).widen (Nat.le_of_lt item.lt) (Nat.le_refl _)

theorem IndexLayout.stretch_within {lo hi : Nat} {ids : List ExprId} {indices : List (Component Term)}
    (stretch : Stretch (IndexLayout tree) lo hi ids indices) : ∀ id ∈ ids, lo ≤ id.index ∧ id.index < hi := by
  induction stretch with
  | nil => exact fun _ member => nomatch member
  | cons item rest ih =>
    have inside := rest.le (fun n => n) fun _ _ _ _ _ => IndexLayout.lt
    have root := item.root
    have rising := item.lt
    intro other member
    rcases List.mem_cons.mp member with rfl | member
    · omega
    · have within := ih other member
      omega

theorem stretch_nested {α : Type} {lies : Nat → Nat → ExprId → α → Prop} {lo hi : Nat} {ids : List ExprId}
    {xs : List α} (stretch : Stretch lies lo hi ids xs)
    (rising : ∀ first last id x, lies first last id x → first < last)
    (each : ∀ first last id x, last ≤ hi → lies first last id x → tree.Nested first last) : tree.Nested lo hi := by
  induction stretch with
  | nil => exact .empty _
  | cons item rest ih =>
    have inside := rest.le (fun n => n) fun _ _ _ _ _ => rising _ _ _ _
    exact (each _ _ _ _ inside item).append (ih each) (Nat.le_of_lt (rising _ _ _ _ item))

theorem stretch_length {lo hi : Nat} {ids : List ExprId} {terms : List Term}
    (stretch : Stretch (ExprLayout tree) lo hi ids terms) : lo + ids.length ≤ hi := by
  induction stretch with
  | nil => exact Nat.le_refl _
  | cons item rest ih =>
    have rising := item.lt
    simp only [List.length_cons]
    omega

theorem stretch_supports {lo hi : Nat} {ids : List ExprId} {terms : List Term} {kind : ExprKind}
    (stretch : Stretch (ExprLayout tree) lo hi ids terms) (operands : kind.operands = ids) (simple : kind.indices = [])
    (plain : ∀ base indices, kind ≠ .indexed base indices) : tree.Supports lo hi kind := by
  have length := stretch_length stretch
  refine .of_operands simple ?_ ?_ plain
  · rw [operands]
    exact ExprLayout.stretch_placed stretch
  · rw [operands]
    omega

theorem pair_placed {lo mid hi : Nat} {left right : ExprId} {a b : Term} (first : ExprLayout tree lo mid left a)
    (second : ExprLayout tree mid hi right b) : ∀ child ∈ [left, right], tree.Placed lo hi child :=
  ExprLayout.stretch_placed (.cons first (.cons second .nil))

theorem range_nested {lo mid hi : Nat} {start stop : ExprId} {a b : Term} (first : ExprLayout tree lo mid start a)
    (second : ExprLayout tree mid hi stop b) (node : tree.kind? ⟨hi⟩ = some (.range start stop))
    (one : tree.Nested lo mid) (two : tree.Nested mid hi) : tree.Nested lo (hi + 1) := by
  have le := Nat.le_of_lt first.lt
  exact (one.append two le).node node (stretch_supports (.cons first (.cons second .nil)) rfl rfl nofun)

theorem ExprLayout.nested {lo hi : Nat} {id : ExprId} {term : Term} (layout : ExprLayout tree lo hi id term) :
    tree.Nested lo hi := by
  induction hi using Nat.strongRecOn generalizing lo id term with
  | ind hi ih =>
    cases layout with
    | int _ node | float _ node | text node | name node =>
      exact (Tree.Nested.empty _).node node
        (.of_operands rfl (fun _ member => nomatch member) (Nat.zero_le _) nofun)
    | array items node | builtin items node =>
      have nested := stretch_nested items (fun _ _ _ _ => ExprLayout.lt)
        fun _ _ _ _ inside item => ih _ (Nat.lt_succ_of_le inside) item
      exact nested.node node (stretch_supports items rfl rfl nofun)
    | @indexed _ last base ids indices name some stretch node =>
      have base := Base.lies name
      have le := stretch.le (fun n => n) fun _ _ _ _ _ => IndexLayout.lt
      -- an index that is a range is a node of its own behind its bounds
      have nested := stretch_nested stretch (fun _ _ _ _ => IndexLayout.lt) fun first second id index inside item => by
        cases item with
        | point inner => exact ih _ (Nat.lt_succ_of_le inside) inner
        | span left right known =>
          have rising := right.lt
          exact range_nested left right known (ih _ (by omega) left) (ih _ (by omega) right)
      refine ((ih _ (by omega) base).append nested (Nat.le_succ _)).node node ⟨fun child member => ?_,
        fun child member => ?_, ?_, ?_⟩
      · obtain rfl := List.mem_singleton.mp member
        exact base.placed.widen (Nat.le_refl _) le
      · have within := IndexLayout.stretch_within stretch child member
        omega
      · exact Nat.le_trans (Nat.succ_le_succ (Nat.zero_le lo)) le
      · rintro _ _ same
        cases same
        exact some
    | linear first second node | elementwise first second node | compare first second node =>
      have le := Nat.le_of_lt first.lt
      have rising := second.lt
      exact ((ih _ (by omega) first).append (ih _ (by omega) second) le).node node
        (stretch_supports (.cons first (.cons second .nil)) rfl rfl nofun)
    | negate inner node | transpose inner node =>
      exact (ih _ (Nat.lt_succ_self _) inner).node node (stretch_supports (.cons inner .nil) rfl rfl nofun)

theorem ExprLayout.stretch_nested {lo hi : Nat} {ids : List ExprId} {terms : List Term}
    (stretch : Stretch (ExprLayout tree) lo hi ids terms) : tree.Nested lo hi :=
  Grammar.stretch_nested stretch (fun _ _ _ _ => ExprLayout.lt) fun _ _ _ _ _ item => item.nested

end Grammar

end MatrixScript
