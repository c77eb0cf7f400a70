import MatrixScript.Grammar.Parser
import MatrixScript.Proofs.Grammar.Layout

/-! What the elementary moves of a parser do.

Each move is given by the result that it has on a parser, so that a production can be followed move by move.
-/

set_option autoImplicit false

namespace MatrixScript

namespace Parser

/-- The tokens that have not been left, the current one first. -/
def tokens (parser : Parser) : List Token := parser.current :: parser.following

@[simp] theorem length_tokens (parser : Parser) : parser.tokens.length = parser.following.length + 1 := rfl

theorem current_of_tokens {parser : Parser} {token : Token} {rest : List Token}
    (stream : parser.tokens = token :: rest) : parser.current = token := (List.cons.inj stream).1

theorem following_of_tokens {parser : Parser} {token : Token} {rest : List Token}
    (stream : parser.tokens = token :: rest) : parser.following = rest := (List.cons.inj stream).2

/-- The last token is never left, so a move needs something behind the current token. -/
theorem tokens_next {parser : Parser} {token : Token} {rest : List Token}
    (stream : parser.tokens = token :: rest) (more : rest ≠ []) : parser.next.tokens = rest := by
  rw [← following_of_tokens stream] at more ⊢
  unfold next
  cases behind : parser.following with
  | nil => contradiction
  | cons next rest => rfl

@[simp] theorem tree_next (parser : Parser) : parser.next.tree = parser.tree := by
  unfold next
  split <;> rfl

end Parser

namespace Parse

variable {α β : Type} (parser : Parser)

@[simp] theorem bind_apply (action : Parse α) (next : α → Parse β) :
    (action >>= next) parser = match action parser with
      | .ok value after => next value after
      | .error failure after => .error failure after := by
  show EStateM.bind action next parser = _
  unfold EStateM.bind
  cases action parser <;> rfl

@[simp] theorem pure_apply (value : α) : (pure value : Parse α) parser = .ok value parser := rfl

@[simp] theorem choice_apply (test : Prop) [Decidable test] (yes no : Parse α) :
    (if test then yes else no) parser = if test then yes parser else no parser := by
  split <;> rfl

@[simp] theorem advance_apply : advance parser = .ok parser.current parser.next := rfl

@[simp] theorem peek_apply : peek parser = .ok parser.current.kind parser := rfl

@[simp] theorem here_apply : here parser = .ok parser.current.span.start parser := rfl

@[simp] theorem get_apply : (get : Parse Parser) parser = .ok parser parser := rfl

@[simp] theorem unexpected_apply :
    (unexpected : Parse α) parser = .error parser.unexpectedFailure parser := rfl

@[simp] theorem unexpectedDetailed_apply (detail : String) :
    (unexpectedDetailed detail : Parse α) parser = .error (parser.detailedFailure detail) parser := rfl

@[simp] theorem throw_apply (failure : Failure) : (throw failure : Parse α) parser = .error failure parser := rfl

@[simp] theorem expect_apply (kind : Kind) :
    expect kind parser =
      if parser.current.kind = kind then .ok parser.current parser.next
      else .error parser.unexpectedFailure parser := by
  simp only [expect, expectOr, bind_apply, get_apply, peek_apply, choice_apply, advance_apply, throw_apply]

@[simp] theorem spanFrom_apply (start : Position) :
    spanFrom start parser = .ok ⟨start, parser.previousEnd⟩ parser := rfl

@[simp] theorem exprSpan_apply (id : ExprId) : exprSpan id parser = .ok (parser.tree.exprSpan id) parser := rfl

@[simp] theorem kind?_apply (id : ExprId) : kind? id parser = .ok (parser.tree.kind? id) parser := rfl

@[simp] theorem addExpr_apply (kind : ExprKind) (span : Span) :
    addExpr kind span parser =
      .ok ⟨parser.tree.exprs.size⟩ { parser with tree := (parser.tree.addExpr kind span).2 } := rfl

@[simp] theorem addStmt_apply (kind : StmtKind) (span : Span) :
    addStmt kind span parser =
      .ok ⟨parser.tree.stmts.size⟩ { parser with tree := (parser.tree.addStmt kind span).2 } := rfl

theorem bind_eq_ok {action : Parse α} {next : α → Parse β} {parser after : Parser} {result : β} :
    (action >>= next) parser = .ok result after ↔
      ∃ value middle, action parser = .ok value middle ∧ next value middle = .ok result after := by
  rw [bind_apply]
  constructor
  · intro done
    split at done
    · exact ⟨_, _, ‹_›, done⟩
    · cases done
  · rintro ⟨value, middle, first, second⟩
    rw [first]
    exact second

theorem expect_eq_ok {kind : Kind} {parser after : Parser} {token : Token} :
    expect kind parser = .ok token after ↔
      parser.current.kind = kind ∧ parser.current = token ∧ parser.next = after := by
  rw [expect_apply]
  split
  · simp [*]
  · simp [*]

theorem bind_eq_error {action : Parse α} {next : α → Parse β} {parser after : Parser} {failure : Failure} :
    (action >>= next) parser = .error failure after ↔
      action parser = .error failure after ∨
        ∃ value middle, action parser = .ok value middle ∧ next value middle = .error failure after := by
  rw [bind_apply]
  cases action parser with
  | ok value middle =>
    constructor
    · exact fun failed => .inr ⟨value, middle, rfl, failed⟩
    · rintro (⟨⟨⟩⟩ | ⟨_, _, ⟨⟩, failed⟩)
      exact failed
  | error failure' middle => simp

theorem expect_eq_error {kind : Kind} {parser after : Parser} {failure : Failure} :
    expect kind parser = .error failure after ↔
      parser.current.kind ≠ kind ∧ parser.unexpectedFailure = failure ∧ parser = after := by
  rw [expect_apply]
  split
  · simp [*]
  · simp [*]

theorem bind_bind_of_ok {γ : Type} {action : Parse α} {next : α → Parse β} {parser after : Parser} {result : β}
    (done : (action >>= next) parser = .ok result after) (last : β → Parse γ) :
    (action >>= fun value => next value >>= last) parser = last result after := by
  obtain ⟨value, middle, first, second⟩ := bind_eq_ok.mp done
  simp only [bind_apply, first, second]

end Parse

end MatrixScript
