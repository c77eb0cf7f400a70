import MatrixScript.Proofs.Grammar.Spans

/-! Lines nest.

The lines of a source only go up with its bytes. So what lies within a node lies within its lines, and of two children
the first ends on a line that is not below the one on which the second starts.
-/

set_option autoImplicit false

namespace MatrixScript

theorem PlaceIn.line_le {source : List Char} {first second : Position} (one : PlaceIn source first)
    (two : PlaceIn source second) (le : first.offset ≤ second.offset) : first.line ≤ second.line := by
  obtain ⟨before, after, rfl, rfl⟩ := one
  obtain ⟨before', after', same, rfl⟩ := two
  rcases List.append_eq_append_iff.mp same with ⟨more, rfl, _⟩ | ⟨more, rfl, _⟩
  · show 1 + before.count '\n' ≤ 1 + (before ++ more).count '\n'
    rw [List.count_append]
    omega
  · -- nothing lies between the two places
    have none : more = [] := by
      refine Classical.byContradiction fun some => ?_
      have := byteLength_pos some
      have le : byteLength (before' ++ more) ≤ byteLength before' := le
      rw [byteLength_append] at le
      omega
    rw [none, List.append_nil]

namespace Span

def HasLine (span : Span) (line : Nat) : Prop := span.start.line ≤ line ∧ line ≤ span.stop.line

def Above (first second : Span) : Prop := first.stop.line ≤ second.start.line

structure Placed (span : Span) (source : List Char) : Prop where
  start : PlaceIn source span.start
  stop : PlaceIn source span.stop
  filled : span.start.offset < span.stop.offset

/-- The lines of other spans lie within those of a span, one behind the other. -/
structure HoldsLines (outer : Span) (inner : List Span) : Prop where
  forward : outer.start.line ≤ outer.stop.line
  inside : ∀ span ∈ inner, outer.start.line ≤ span.start.line ∧ span.stop.line ≤ outer.stop.line
  ordered : inner.Pairwise Above

section

variable {source : List Char}

theorem Before.above {first second : Span} (before : first.Before second) (one : first.Placed source)
    (two : second.Placed source) : first.Above second :=
  one.stop.line_le two.start before

theorem Holds.lines {outer : Span} {inner : List Span} (holds : outer.Holds inner) (placed : outer.Placed source)
    (all : ∀ span ∈ inner, span.Placed source) : outer.HoldsLines inner where
  forward := placed.start.line_le placed.stop (Nat.le_of_lt placed.filled)
  inside span member :=
    ⟨placed.start.line_le (all span member).start (holds.1 span member).1,
      (all span member).stop.line_le placed.stop (holds.1 span member).2⟩
  ordered := holds.2.imp_of_mem fun one two before => before.above (all _ one) (all _ two)

end

end Span

theorem Span.Spelled.placed {source : String} {tokens : List Token} (scanned : scan source = .ok tokens) {span : Span}
    (spelled : span.Spelled tokens) : span.Placed source.toList := by
  obtain ⟨body, rfl, tiles⟩ := tokens_of_scan scanned
  have placed : ∀ token ∈ body ++ [Token.atEnd (placeAfter source.toList)],
      PlaceIn source.toList token.span.start ∧ PlaceIn source.toList token.span.stop := by
    intro token member
    rcases List.mem_append.mp member with inside | atEnd
    · exact tiles.placed token inside
    · have last : PlaceIn source.toList (placeAfter source.toList) := ⟨_, [], (List.append_nil _).symm, rfl⟩
      rw [List.mem_singleton.mp atEnd]
      exact ⟨last, last⟩
  obtain ⟨first, member, start⟩ := spelled.start
  obtain ⟨last, member', stop⟩ := spelled.stop
  exact ⟨start ▸ (placed first member).1, stop ▸ (placed last member').2, spelled.filled⟩

namespace Tree

variable (tree : Tree)

/-- The span of a statement; an id without a node has the empty span at the very beginning. -/
def stmtSpan (id : StmtId) : Span := (tree.stmtSpan? id).getD ⟨⟨0, 0⟩, ⟨0, 0⟩⟩

/-- The lines of every node hold those of its children, and the statements of the program lie one below the other. -/
structure LinesNest : Prop where
  exprs : ∀ id expr, tree.expr? id = some expr → expr.span.HoldsLines (expr.kind.children.map tree.exprSpan)
  stmts : ∀ id stmt, tree.stmt? id = some stmt →
    stmt.span.HoldsLines (stmt.kind.exprs.map tree.exprSpan ++ stmt.kind.bodies.map tree.stmtSpan)
  body : (tree.body.map tree.stmtSpan).Pairwise Span.Above

end Tree

theorem spans_of_forall₂ {ι : Type} {span? : ι → Option Span} {ids : List ι} {spans : List Span} (other : Span)
    (all : List.Forall₂ (fun id span => span? id = some span) ids spans) :
    spans = ids.map (fun id => (span? id).getD other) ∧ ∀ span ∈ spans, ∃ id, span? id = some span := by
  induction all with
  | nil => exact ⟨rfl, nofun⟩
  | @cons id span ids spans found rest ih =>
    obtain ⟨same, known⟩ := ih
    refine ⟨by rw [List.map_cons, ← same, found]; rfl, ?_⟩
    exact List.forall_mem_cons.mpr ⟨⟨id, found⟩, known⟩

theorem lines_nest {source : String} {tokens : List Token} {tree : Tree} (scanned : scan source = .ok tokens)
    (parsed : parse tokens = .ok tree) : tree.LinesNest := by
  obtain ⟨exprs, stmts, body⟩ := spans_nest scanned parsed
  have expr {span : Span} (known : ∃ id, tree.exprSpan? id = some span) : span.Placed source.toList := by
    obtain ⟨id, known⟩ := known
    obtain ⟨expr, found, rfl⟩ := Option.map_eq_some_iff.mp known
    exact (exprs id expr found).1.placed scanned
  have stmt {span : Span} (known : ∃ id, tree.stmtSpan? id = some span) : span.Placed source.toList := by
    obtain ⟨id, known⟩ := known
    obtain ⟨stmt, found, rfl⟩ := Option.map_eq_some_iff.mp known
    exact (stmts id stmt found).1.placed scanned
  constructor
  case exprs =>
    intro id node found
    obtain ⟨spelled, inner, all, holds⟩ := exprs id node found
    obtain ⟨rfl, known⟩ := spans_of_forall₂ ⟨⟨0, 0⟩, ⟨0, 0⟩⟩ all
    exact holds.lines (spelled.placed scanned) fun span member => expr (known span member)
  case stmts =>
    intro id node found
    obtain ⟨spelled, first, rest, all, all', holds⟩ := stmts id node found
    obtain ⟨rfl, known⟩ := spans_of_forall₂ ⟨⟨0, 0⟩, ⟨0, 0⟩⟩ all
    obtain ⟨rfl, known'⟩ := spans_of_forall₂ ⟨⟨0, 0⟩, ⟨0, 0⟩⟩ all'
    refine holds.lines (spelled.placed scanned) fun span member => ?_
    exact (List.mem_append.mp member).elim (fun here => expr (known span here)) fun here => stmt (known' span here)
  case body =>
    obtain ⟨spans, all, ordered, _⟩ := body
    obtain ⟨rfl, known⟩ := spans_of_forall₂ ⟨⟨0, 0⟩, ⟨0, 0⟩⟩ all
    exact ordered.imp_of_mem fun one two before => before.above (stmt (known _ one)) (stmt (known _ two))

namespace Tree

variable {tree : Tree}

theorem exprSpan_eq {id : ExprId} {expr : Expr} (found : tree.expr? id = some expr) : tree.exprSpan id = expr.span := by
  rw [exprSpan, found]
  rfl

theorem stmtSpan_eq {id : StmtId} {stmt : Stmt} (found : tree.stmt? id = some stmt) : tree.stmtSpan id = stmt.span := by
  rw [stmtSpan, stmtSpan?, found]
  rfl

theorem LinesNest.exprSpan_forward (nest : tree.LinesNest) (id : ExprId) :
    (tree.exprSpan id).start.line ≤ (tree.exprSpan id).stop.line := by
  cases found : tree.expr? id with
  | none =>
    rw [exprSpan, found]
    exact Nat.le_refl _
  | some expr =>
    rw [exprSpan_eq found]
    exact (nest.exprs id expr found).forward

end Tree

end MatrixScript
