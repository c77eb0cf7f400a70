import Mathlib.Data.List.Basic
import MatrixScript.Proofs.Typing.Statement

/-! The checker comes to every statement once.

A statement is the body of one other statement at most: what lies between a body and the statement around it is
closed, so that nothing there can have the same body.
-/

set_option autoImplicit false

namespace MatrixScript

open Typing Grammar

def StmtKind.bodies : StmtKind → List StmtId
  | .block body => body
  | .forRange _ _ body | .whileLoop _ body => [body]
  | .branch _ thenBody elseBody => thenBody :: elseBody.toList
  | .assign _ _ _ | .breakLoop | .continueLoop | .giveBack _ | .print _ => []

/-- The bodies of the statements `[lo, hi)` are among them. -/
def Tree.Closed (tree : Tree) (lo hi : Nat) : Prop :=
  ∀ id kind, lo ≤ id.index → id.index < hi → tree.stmtKind? id = some kind → ∀ body ∈ kind.bodies, lo ≤ body.index

namespace Tree.Closed

variable {tree : Tree} {lo mid hi : Nat}

theorem empty (place : Nat) : tree.Closed place place :=
  fun _ _ above below => absurd below (Nat.not_lt.mpr above)

theorem append (first : tree.Closed lo mid) (second : tree.Closed mid hi) (le : lo ≤ mid) : tree.Closed lo hi := by
  intro id kind above below found body inside
  by_cases earlier : id.index < mid
  · exact first id kind above earlier found body inside
  · have later := second id kind (Nat.le_of_not_lt earlier) below found body inside
    exact Nat.le_trans le later

theorem node (closed : tree.Closed lo hi) {kind : StmtKind} (found : tree.stmtKind? ⟨hi⟩ = some kind)
    (inside : ∀ body ∈ kind.bodies, lo ≤ body.index) : tree.Closed lo (hi + 1) := by
  intro id known above below held body member
  by_cases root : id.index = hi
  · obtain rfl : id = ⟨hi⟩ := congrArg StmtId.mk root
    cases found.symm.trans held
    exact inside body member
  · exact closed id known above (by omega) held body member

end Tree.Closed

section

variable {tree : Tree}

theorem stretch_within {lo hi : Mark} {ids : List StmtId} {phrases : List Phrase}
    (stretch : Stretch (StmtLayout tree) lo hi ids phrases) : ∀ id ∈ ids, lo.stmts ≤ id.index ∧ id.index < hi.stmts := by
  induction stretch with
  | nil => exact fun _ member => nomatch member
  | @cons first second last id ids phrase phrases item rest ih =>
    have root := item.root
    have rising := item.lt
    have inside := rest.le Mark.stmts fun _ _ _ _ _ => StmtLayout.lt
    intro other member
    rcases List.mem_cons.mp member with rfl | member
    · omega
    · have within := ih other member
      omega

theorem stretch_closed {lo hi : Mark} {ids : List StmtId} {phrases : List Phrase}
    (stretch : Stretch (StmtLayout tree) lo hi ids phrases)
    (each : ∀ first last id phrase, last.stmts ≤ hi.stmts → StmtLayout tree first last id phrase →
      tree.Closed first.stmts last.stmts) : tree.Closed lo.stmts hi.stmts := by
  induction stretch with
  | nil => exact .empty _
  | cons item rest ih =>
    have inside := rest.le Mark.stmts fun _ _ _ _ _ => StmtLayout.lt
    exact (each _ _ _ _ inside item).append (ih each) (Nat.le_of_lt item.lt)

theorem layout_closed {lo hi : Mark} {id : StmtId} {phrase : Phrase} (layout : StmtLayout tree lo hi id phrase) :
    tree.Closed lo.stmts hi.stmts := by
  induction size : hi.stmts using Nat.strongRecOn generalizing lo hi id phrase with
  | ind n ih =>
    subst size
    cases layout with
    | block items node =>
      have closed := stretch_closed items fun _ _ _ _ inside item => ih _ (Nat.lt_succ_of_le inside) item rfl
      exact closed.node node fun body member => (stretch_within items body member).1
    | assign _ _ node | breakLoop node | continueLoop node | giveBack _ node | print _ node =>
      exact (Tree.Closed.empty _).node node fun _ member => nomatch member
    | forRange _ _ _ inner node | whileLoop _ inner node | branch _ inner node =>
      refine (ih _ (Nat.lt_succ_self _) inner rfl).node node fun body member => ?_
      obtain rfl := List.mem_singleton.mp member
      exact inner.le_root
    | branchElse _ first second node =>
      have closed := (ih _ (Nat.lt_succ_of_lt second.lt) first rfl).append (ih _ (Nat.lt_succ_self _) second rfl)
        (Nat.le_of_lt first.lt)
      refine closed.node node fun body member => ?_
      rcases List.mem_cons.mp member with rfl | member
      · exact first.le_root
      · obtain rfl := List.mem_singleton.mp member
        exact Nat.le_trans (Nat.le_of_lt first.lt) second.le_root

theorem closed_behind_last {first : Mark} {exprs : Nat} {id body : StmtId} {phrase : Phrase}
    (inner : StmtLayout tree first ⟨exprs, id.index⟩ body phrase) :
    body.index < id.index ∧ tree.Closed (body.index + 1) id.index := by
  have root : id.index = body.index + 1 := inner.root
  rw [root]
  exact ⟨Nat.lt_succ_self _, .empty _⟩

theorem closed_behind_body {lo hi : Mark} {id body : StmtId} {phrase : Phrase} {kind : StmtKind}
    (layout : StmtLayout tree lo hi id phrase) (node : tree.stmtKind? id = some kind) (member : body ∈ kind.bodies) :
    body.index < id.index ∧ tree.Closed (body.index + 1) id.index := by
  have parts := layout.parts node
  cases kind with
  | block ids =>
    obtain ⟨phrases, stretch⟩ := parts
    obtain ⟨before, after, rfl⟩ := List.append_of_mem member
    obtain ⟨first, second, phrase, front, back, earlier, here, later⟩ := stretch.split
    -- up to the block there are only the statements behind this one
    have root := here.root
    have inside := later.le Mark.stmts fun _ _ _ _ _ => StmtLayout.lt
    have closed := stretch_closed later fun _ _ _ _ _ => layout_closed
    rw [root] at closed inside
    exact ⟨inside, closed⟩
  | forRange name range inner =>
    obtain ⟨mid, last, start, stop, a, b, phrase, _, _, _, _, inside⟩ := parts
    obtain rfl := List.mem_singleton.mp member
    exact closed_behind_last inside
  | whileLoop condition inner =>
    obtain ⟨last, a, phrase, _, inside⟩ := parts
    obtain rfl := List.mem_singleton.mp member
    exact closed_behind_last inside
  | branch condition thenBody elseBody =>
    cases elseBody with
    | none =>
      obtain ⟨last, a, phrase, _, inside⟩ := parts
      obtain rfl := List.mem_singleton.mp member
      exact closed_behind_last inside
    | some elseBody =>
      obtain ⟨last, middle, a, _, _, _, first, second⟩ := parts
      rcases List.mem_cons.mp member with rfl | member
      · -- between the first body and the branch there is the second one
        have closed := layout_closed second
        have rising := second.lt
        rw [first.root] at closed rising
        exact ⟨Nat.lt_of_succ_lt rising, closed⟩
      · obtain rfl := List.mem_singleton.mp member
        exact closed_behind_last second
  | assign _ _ _ | breakLoop | continueLoop | giveBack _ | print _ => cases member

theorem parent_unique {lo hi lo' hi' : Mark} {id other body : StmtId} {phrase phrase' : Phrase}
    {kind kind' : StmtKind} (layout : StmtLayout tree lo hi id phrase) (layout' : StmtLayout tree lo' hi' other phrase')
    (node : tree.stmtKind? id = some kind) (node' : tree.stmtKind? other = some kind') (member : body ∈ kind.bodies)
    (member' : body ∈ kind'.bodies) : id = other := by
  obtain ⟨below, closed⟩ := closed_behind_body layout node member
  obtain ⟨below', closed'⟩ := closed_behind_body layout' node' member'
  rcases Nat.lt_trichotomy id.index other.index with less | same | greater
  · have behind := closed' id kind below less node body member
    omega
  · exact congrArg StmtId.mk same
  · have behind := closed other kind' below' greater node' body member'
    omega

theorem not_body_of_layout {lo hi : Mark} {id parent : StmtId} {phrase : Phrase} {phrases : List Phrase}
    {kind : StmtKind} (represents : tree.Represents phrases) (top : id ∈ tree.body)
    (layout : StmtLayout tree lo hi parent phrase) (node : tree.stmtKind? parent = some kind) : id ∉ kind.bodies := by
  intro member
  have below := (closed_behind_body layout node member).1
  obtain ⟨before, after, split⟩ := List.append_of_mem top
  unfold Tree.Represents at represents
  rw [split] at represents
  obtain ⟨first, second, phrase, front, back, earlier, here, later⟩ := represents.split
  have closed := stretch_closed later fun _ _ _ _ _ => layout_closed
  rw [here.root] at closed
  obtain ⟨span, found⟩ := stmt?_of_kind node
  have size : parent.index < tree.stmts.size := (Array.getElem?_eq_some_iff.mp found).1
  have behind := closed parent kind below size node id member
  omega

theorem split_unique {lo hi : Mark} {before after before' after' : List StmtId} {next : StmtId}
    {phrases : List Phrase} (stretch : Stretch (StmtLayout tree) lo hi (before ++ next :: after) phrases)
    (same : before ++ next :: after = before' ++ next :: after') : before = before' := by
  obtain ⟨first, second, phrase, front, back, earlier, here, later⟩ := stretch.split
  have root := here.root
  have above := here.le_root
  have absent : next ∉ before := by
    intro member
    have within := stretch_within earlier next member
    omega
  have absent' : next ∉ after := by
    intro member
    have within := stretch_within later next member
    omega
  exact ((List.append_cons_inj_of_notMem absent absent').mp same).1

theorem enters_body {depth : Nat} {stmt : Stmt} {checker later : Checker} {next : StmtId}
    (enters : Enters tree depth stmt checker next later) : next ∈ stmt.kind.bodies := by
  cases enters with
  | block known | forRange known | whileLoop known | thenBody known | elseBody known =>
    rw [known]
    simp [StmtKind.bodies]

theorem branch_bodies_differ {lo hi : Mark} {id thenBody elseBody : StmtId} {phrase : Phrase} {condition : ExprId}
    (layout : StmtLayout tree lo hi id phrase)
    (node : tree.stmtKind? id = some (.branch condition thenBody (some elseBody))) : thenBody ≠ elseBody := by
  obtain ⟨last, middle, a, _, _, _, first, second⟩ := layout.parts node
  have root := first.root
  have above := second.le_root
  rintro rfl
  omega

theorem enters_unique {lo hi : Mark} {id next : StmtId} {phrase : Phrase} {depth : Nat} {stmt : Stmt}
    {checker later later' : Checker} (layout : StmtLayout tree lo hi id phrase) (found : tree.stmt? id = some stmt)
    (first : Enters tree depth stmt checker next later) (second : Enters tree depth stmt checker next later') :
    later = later' := by
  have node := Tree.stmtKind?_of_stmt? found
  -- only two bodies of one statement could be entered in different states, and they are different statements
  cases first with
  | block known =>
    cases second with
    | block known' =>
      rw [known] at node known'
      obtain ⟨body, stretch⟩ := layout.parts node
      rw [split_unique stretch (StmtKind.block.inj known')]
    | forRange known' | whileLoop known' | thenBody known' | elseBody known' => cases known.symm.trans known'
  | forRange known =>
    cases second with
    | forRange known' =>
      cases known.symm.trans known'
      rfl
    | block known' | whileLoop known' | thenBody known' | elseBody known' => cases known.symm.trans known'
  | whileLoop known =>
    cases second with
    | whileLoop known' =>
      cases known.symm.trans known'
      rfl
    | block known' | forRange known' | thenBody known' | elseBody known' => cases known.symm.trans known'
  | thenBody known =>
    cases second with
    | thenBody known' =>
      cases known.symm.trans known'
      rfl
    | elseBody known' =>
      cases known.symm.trans known'
      rw [known] at node
      exact absurd rfl (branch_bodies_differ layout node)
    | block known' | forRange known' | whileLoop known' => cases known.symm.trans known'
  | elseBody known =>
    cases second with
    | elseBody known' =>
      cases known.symm.trans known'
      rfl
    | thenBody known' =>
      cases known.symm.trans known'
      rw [known] at node
      exact absurd rfl (branch_bodies_differ layout node)
    | block known' | forRange known' | whileLoop known' => cases known.symm.trans known'

end

section

variable {program : Program} {depth depth' : Nat} {id : StmtId} {checker checker' : Checker}

theorem Accepted.not_body (accepted : Accepted program) {before after : List StmtId}
    (split : program.tree.body = before ++ id :: after) {parent : StmtId} {stmt : Stmt}
    (visited : Visited program.tree depth parent checker) (found : program.tree.stmt? parent = some stmt) :
    id ∉ stmt.kind.bodies := by
  intro member
  obtain ⟨body, represents⟩ := accepted.represents
  obtain ⟨lo, hi, sits⟩ := accepted.sits visited
  obtain ⟨phrase, layout⟩ := sits.layout
  have top : id ∈ program.tree.body := split ▸ List.mem_append_cons_self
  exact not_body_of_layout represents top layout (Tree.stmtKind?_of_stmt? found) member

/-- The checker comes to a statement of an accepted program in one state only. -/
theorem Accepted.visited_unique (accepted : Accepted program) (first : Visited program.tree depth id checker)
    (second : Visited program.tree depth' id checker') : depth = depth' ∧ checker = checker' := by
  induction first generalizing depth' checker' with
  | program split =>
    cases second with
    | program split' =>
      obtain ⟨body, represents⟩ := accepted.represents
      unfold Tree.Represents at represents
      rw [split] at represents split'
      rw [split_unique represents split']
      exact ⟨rfl, rfl⟩
    | inside visited found enters =>
      exact absurd (enters_body enters) (accepted.not_body split visited found)
  | @inside depth parent next stmt before later visited found enters ih =>
    cases second with
    | program split => exact absurd (enters_body enters) (accepted.not_body split visited found)
    | @inside _ parent' _ stmt' before' _ visited' found' enters' =>
      obtain ⟨_, _, sits⟩ := accepted.sits visited
      obtain ⟨_, _, sits'⟩ := accepted.sits visited'
      obtain ⟨_, layout⟩ := sits.layout
      obtain ⟨_, layout'⟩ := sits'.layout
      have node := Tree.stmtKind?_of_stmt? found
      have node' := Tree.stmtKind?_of_stmt? found'
      -- the same parent, so the same state in front of it
      obtain rfl := parent_unique layout layout' node node' (enters_body enters) (enters_body enters')
      cases found.symm.trans found'
      obtain ⟨same, rfl⟩ := ih visited'
      cases same
      exact ⟨rfl, enters_unique layout found enters enters'⟩

end

end MatrixScript
