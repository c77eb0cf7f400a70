import MatrixScript.Proofs.Evaluation.Safety

/-! Whether the scopes of a program are stable can be decided.

The checker comes to finitely many statements, each in one state. They are listed level by level, by how deep they nest,
and the scopes are stable when they are so at each of them.
-/

set_option autoImplicit false

namespace MatrixScript

open Typing

/-- The items of a list, each with those in front of it. -/
def prefixed {α : Type} : List α → List (List α × α)
  | [] => []
  | item :: rest => ([], item) :: (prefixed rest).map fun (before, next) => (item :: before, next)

theorem mem_prefixed {α : Type} {items before : List α} {next : α} :
    (before, next) ∈ prefixed items ↔ ∃ after, items = before ++ next :: after := by
  induction items generalizing before with
  | nil => simp [prefixed]
  | cons item rest ih =>
    cases before with
    | nil => simp [prefixed, eq_comm]
    | cons first before => simp [prefixed, ih, and_comm, eq_comm]

/-- The statements right inside of a statement, and the state in which the checker comes to each. -/
def entered (tree : Tree) (depth : Nat) (stmt : Stmt) (checker : Checker) : List (StmtId × Checker) :=
  match stmt.kind with
  | .block ids => (prefixed ids).map fun (before, next) => (next, (before.forM (checkWithin tree depth) checker).2)
  | .forRange name range body =>
    [(body, (declareCounter tree stmt.span.start.line name range (enter "loop" 1 (typeOf tree range checker).2)).2)]
  | .whileLoop condition body => [(body, enter "loop" 1 (checkCondition tree condition checker).2)]
  | .branch condition thenBody elseBody =>
    let tested := enter "if" 0 (checkCondition tree condition checker).2
    (thenBody, tested) :: elseBody.toList.map fun body =>
      (body, enter "else" 0 (leave 0 (checkWithin tree depth thenBody tested).2))
  | .assign _ _ _ | .breakLoop | .continueLoop | .giveBack _ | .print _ => []

/-- The statements that the checker comes to so many levels below the program, and its states. -/
def visits (tree : Tree) : Nat → List (StmtId × Checker)
  | 0 => (prefixed tree.body).map fun (before, next) => (next, (before.forM (checkStatement tree) (.start tree)).2)
  | level + 1 => (visits tree level).flatMap fun (id, checker) =>
    (tree.stmt? id).toList.flatMap fun stmt => entered tree (tree.stmts.size - level) stmt checker

section

variable {tree : Tree} {depth : Nat} {id next : StmtId} {stmt : Stmt} {checker later : Checker}

theorem mem_entered_of_enters (enters : Enters tree depth stmt checker next later) :
    (next, later) ∈ entered tree depth stmt checker := by
  unfold entered
  cases enters with
  | @block before after next kind =>
    rw [kind]
    exact List.mem_map.mpr ⟨(before, next), mem_prefixed.mpr ⟨after, rfl⟩, rfl⟩
  | forRange kind | whileLoop kind | thenBody kind =>
    rw [kind]
    exact List.mem_cons_self
  | elseBody kind =>
    rw [kind]
    exact List.mem_cons_of_mem _ List.mem_cons_self

theorem enters_of_mem_entered (member : (next, later) ∈ entered tree depth stmt checker) :
    Enters tree depth stmt checker next later := by
  unfold entered at member
  split at member
  · next ids kind =>
    obtain ⟨⟨before, next⟩, split, same⟩ := List.mem_map.mp member
    obtain ⟨after, rfl⟩ := mem_prefixed.mp split
    cases same
    exact .block kind
  · next kind =>
    cases List.mem_singleton.mp member
    exact .forRange kind
  · next kind =>
    cases List.mem_singleton.mp member
    exact .whileLoop kind
  · next condition thenBody elseBody kind =>
    rcases List.mem_cons.mp member with same | member
    · cases same
      exact .thenBody kind
    · obtain ⟨body, some, same⟩ := List.mem_map.mp member
      cases Option.mem_toList.mp some
      cases same
      exact .elseBody kind
  iterate 5 cases member

theorem visited_iff : Visited tree depth id checker ↔
    ∃ level, level + depth = tree.stmts.size + 1 ∧ (id, checker) ∈ visits tree level := by
  constructor
  · intro visited
    induction visited with
    | @program before after next split =>
      refine ⟨0, Nat.zero_add _, List.mem_map.mpr ⟨(before, next), mem_prefixed.mpr ⟨after, split⟩, rfl⟩⟩
    | @inside depth id next stmt checker later _ found enters ih =>
      -- a level further down, the checker may nest one statement less
      obtain ⟨level, deep, member⟩ := ih
      refine ⟨level + 1, by omega, List.mem_flatMap.mpr ⟨(id, checker), member, ?_⟩⟩
      refine List.mem_flatMap.mpr ⟨stmt, Option.mem_toList.mpr found, ?_⟩
      obtain rfl : depth = tree.stmts.size - level := by omega
      exact mem_entered_of_enters enters
  · rintro ⟨level, deep, member⟩
    induction level generalizing depth id checker with
    | zero =>
      obtain ⟨⟨before, next⟩, split, same⟩ := List.mem_map.mp member
      obtain ⟨after, split⟩ := mem_prefixed.mp split
      cases same
      obtain rfl : depth = tree.stmts.size + 1 := by omega
      exact .program split
    | succ level ih =>
      obtain ⟨⟨outer, before⟩, outside, inside⟩ := List.mem_flatMap.mp member
      obtain ⟨stmt, found, inside⟩ := List.mem_flatMap.mp inside
      have visited : Visited tree (depth + 1) outer before := ih (by omega) outside
      obtain rfl : depth = tree.stmts.size - level := by omega
      exact .inside visited (Option.mem_toList.mp found) (enters_of_mem_entered inside)

end

/-- Names of outer scopes stand for expressions of the types that they had before. -/
def KeepsTypes (types : StaticTypes) (before after : Declarations ExprId) : Prop :=
  ∀ entry ∈ before.table, entry.1 ∉ before.innermost.names →
    ∀ old ∈ before.lookup? entry.1, ∀ new ∈ after.lookup? entry.1, types.get? new = types.get? old

instance (types : StaticTypes) (before after : Declarations ExprId) : Decidable (KeepsTypes types before after) :=
  inferInstanceAs (Decidable (∀ entry ∈ before.table, entry.1 ∉ before.innermost.names →
    ∀ old ∈ before.lookup? entry.1, ∀ new ∈ after.lookup? entry.1, types.get? new = types.get? old))

def behind (tree : Tree) (id : StmtId) (checker : Checker) : Option (Declarations ExprId) :=
  match tree.stmt? id with
  | some ⟨.assign target op value, span⟩ =>
    some (checkAssignment tree span.start.line target op value checker).2.declared
  | _ => none

theorem behind_eq_some {tree : Tree} {id : StmtId} {checker : Checker} {after : Declarations ExprId} :
    behind tree id checker = some after ↔ ∃ target op value span,
      tree.stmt? id = some ⟨.assign target op value, span⟩ ∧
        (checkAssignment tree span.start.line target op value checker).2.declared = after := by
  unfold behind
  constructor
  · intro some
    split at some
    · next target op value span found => exact ⟨target, op, value, span, found, Option.some.inj some⟩
    · cases some
  · rintro ⟨target, op, value, span, found, rfl⟩
    rw [found]

/-- Scopes are stable when every assignment that the checker comes to keeps them so. -/
theorem stableScopes_iff {program : Program} : program.StableScopes ↔
    ∀ level < program.tree.stmts.size + 2, ∀ visit ∈ visits program.tree level,
      ∀ after ∈ behind program.tree visit.1 visit.2, KeepsTypes program.types visit.2.declared after := by
  constructor
  · rintro stable level deep ⟨id, checker⟩ member after assigned entry _ outside old before new behind
    obtain ⟨target, op, value, span, found, rfl⟩ := behind_eq_some.mp assigned
    have visited : Visited program.tree (program.tree.stmts.size + 1 - level) id checker :=
      visited_iff.mpr ⟨level, by omega, member⟩
    exact stable _ _ _ _ _ _ _ visited found entry.1 old new before outside behind
  · intro kept depth id checker target op value span visited found name old new before outside after
    obtain ⟨level, deep, member⟩ := visited_iff.mp visited
    obtain ⟨front, rest, split, _⟩ := List.lookup_eq_some_iff.mp before
    have listed : (name, old) ∈ checker.declared.table := split ▸ List.mem_append_right _ List.mem_cons_self
    refine kept level (by omega) (id, checker) member _ ?_ (name, old) listed outside old before new after
    exact behind_eq_some.mpr ⟨target, op, value, span, found, rfl⟩

instance (program : Program) : Decidable program.StableScopes := decidable_of_iff _ stableScopes_iff.symm

end MatrixScript
