import MatrixScript.Grammar.Statement
import MatrixScript.Proofs.Grammar.Progress.Loops

/-! Every production takes a token before it asks for an operand or a body of its own kind.

So it does not matter what would be read where no token has been left yet, and how deeply productions may nest is
bounded by the number of tokens.
-/

set_option autoImplicit false

namespace MatrixScript.Grammar

open Parse

section

variable {stream : List Token} {start : Kind → Prop} {reach : Nat}

theorem atom_paired (ended : Ended stream) (other : ¬start .eof) : Paired stream start reach 1 atom atom := by
  refine (Paired.advance ended other).bind_first fun token => ?_
  cases atomOf token with
  | ok kind => exact .addExpr kind token.span
  | error fault => exact .throw _

theorem addRange_paired (first last : ExprId) :
    Paired stream start reach 0 (addRange first last) (addRange first last) :=
  (Paired.look _).bind_first fun _ => (Paired.look _).bind_first fun _ => .addExpr _ _

theorem addExprBehind_paired (left : ExprId) (kind : ExprKind) : Paired stream start reach 0
    (do
      let span ← spanFrom (← Parse.exprSpan left).start
      addExpr kind span)
    (do
      let span ← spanFrom (← Parse.exprSpan left).start
      addExpr kind span) :=
  (Paired.look _).bind_first fun _ => .addExprFrom kind _

theorem transposition_paired (ended : Ended stream) (inner : ExprId) :
    Paired stream start reach 1 (transposition inner) (transposition inner) :=
  (Paired.expect ended .apostrophe (by decide)).bind_first fun _ => addExprBehind_paired inner _

end

theorem gather_paired {stream : List Token} {start : Kind → Prop} {reach taken : Nat} {ι : Type} {item item' : Parse ι}
    (one : Paired stream start reach taken item item') (found : List ι) :
    Paired stream start reach taken (gather item found) (gather item' found) :=
  one.bind_first fun next => .pure (next :: found)

section

variable {stream : List Token} (ended : Ended stream) {start : Kind → Prop} {reach bound bound' : Nat}
include ended

theorem behindComma_paired {item item' : Parse ExprId} (one : Paired stream Anywhere reach 0 item item') :
    Paired stream (· = .comma) reach 1 (behindComma item) (behindComma item') :=
  (Paired.advance ended (by decide)).bind_first fun _ => one.fewer (Nat.sub_le _ _)

theorem itemsAfter_paired {item item' : Parse ExprId} (one : Paired stream Anywhere reach 0 item item')
    (enough : reach ≤ bound + 1) (enough' : reach ≤ bound' + 1) (found : List ExprId) :
    Paired stream Anywhere reach 0 (itemsAfter item bound found) (itemsAfter item' bound' found) := by
  rw [itemsAfter_eq_loop, itemsAfter_eq_loop]
  apply loop_paired ended (by decide) _ enough enough'
  exact gather_paired (behindComma_paired ended one)

section

variable {operand operand' : Power → Parse ExprId}
  (each : ∀ power, Paired stream Anywhere reach 0 (operand power) (operand' power))
include each

omit ended in
theorem component_paired : Paired stream Anywhere reach 0 (component operand) (component operand') := by
  refine (each _).bind_first fun first => Paired.peek fun kind _ => ?_
  split
  · exact Paired.leave.bind_first fun _ => (each _).bind_first fun last => addRange_paired first last
  · exact .pure first

theorem items_paired (enough : reach ≤ bound + 1) (enough' : reach ≤ bound' + 1) (terminator : Kind)
    (other : terminator ≠ .eof) :
    Paired stream start reach 0 (items operand bound terminator) (items operand' bound' terminator) := by
  refine Paired.peek fun kind _ => ?_
  split
  · exact Paired.leave.bind_first fun _ => .pure []
  · refine (each _).anywhere.bind_first fun first => ?_
    refine (itemsAfter_paired ended (each _) enough enough' [first]).bind_first fun all => ?_
    exact (Paired.expect ended terminator other).uncounted.bind_first fun _ => .pure all

end

section

variable {operand operand' : Power → Parse ExprId}
  (each : ∀ power, Paired stream Anywhere (reach - 1) 0 (operand power) (operand' power))
  (enough : reach ≤ bound + 1) (enough' : reach ≤ bound' + 1)
include each

theorem negation_paired (other : ¬start .eof) : Paired stream start reach 1 (negation operand) (negation operand') :=
  (Paired.advance ended other).bind_first fun _ => (each _).bind_first fun _ => .addExprFrom _ _

theorem group_paired : Paired stream start reach 1 (group operand) (group operand') := by
  refine (Paired.expect ended .openParen (by decide)).bind_first fun _ => (each _).bind_first fun inner => ?_
  exact (Paired.expect ended .closeParen (by decide)).uncounted.bind_first fun _ => .pure inner

theorem binary_paired (other : ¬start .eof) (left : ExprId) (join : ExprId → ExprKind) :
    Paired stream start reach 1 (binary operand left join) (binary operand' left join) :=
  (Paired.advance ended other).bind_first fun _ => (each _).bind_first fun _ => addExprBehind_paired left _

include enough enough'

theorem arrayLiteral_paired :
    Paired stream start reach 1 (arrayLiteral operand bound) (arrayLiteral operand' bound') := by
  refine (Paired.expect ended .openBracket (by decide)).bind_first fun _ => ?_
  exact (items_paired ended each (by omega) (by omega) .closeBracket (by decide)).bind_first fun _ => .addExprFrom _ _

theorem builtin_paired (other : ¬start .eof) (function : Builtin) :
    Paired stream start reach 1 (builtin operand bound function) (builtin operand' bound' function) := by
  refine (Paired.advance ended other).bind_first fun _ => ?_
  refine (Paired.expect ended .openParen (by decide)).uncounted.bind_first fun _ => ?_
  exact (items_paired ended each (by omega) (by omega) .closeParen (by decide)).bind_first fun _ => .addExprFrom _ _

theorem opening_paired : Paired stream start reach 1 (opening operand bound) (opening operand' bound') := by
  refine Paired.peek fun kind _ => ?_
  split
  iterate 4 exact atom_paired ended nofun
  · exact negation_paired ended each nofun
  · exact group_paired ended each
  · exact arrayLiteral_paired ended each enough enough'
  iterate 3 exact builtin_paired ended each enough enough' nofun _
  · exact .fails _

theorem indexing_paired (base : ExprId) :
    Paired stream start reach 1 (indexing operand bound base) (indexing operand' bound' base) := by
  have indexed : Paired stream Anywhere reach 1
      (do
        let _ ← expect .openBracket
        let first ← component operand
        let indices ← itemsAfter (component operand) bound [first]
        let _ ← expect .closeBracket
        let span ← spanFrom (← Parse.exprSpan base).start
        addExpr (.indexed base indices) span)
      (do
        let _ ← expect .openBracket
        let first ← component operand'
        let indices ← itemsAfter (component operand') bound' [first]
        let _ ← expect .closeBracket
        let span ← spanFrom (← Parse.exprSpan base).start
        addExpr (.indexed base indices) span) := by
    refine (Paired.expect ended .openBracket (by decide)).bind_first fun _ => ?_
    refine (component_paired each).bind_first fun first => ?_
    refine (itemsAfter_paired ended (component_paired each) (by omega) (by omega) [first]).bind_first fun _ => ?_
    refine (Paired.expect ended .closeBracket (by decide)).uncounted.bind_first fun _ => ?_
    exact addExprBehind_paired base _
  refine (Paired.look _).bind_second fun kind => ?_
  split
  · exact indexed
  · exact indexed
  · exact .fails _

/-- Only operators and marks continue an expression, and none of them is an end token. -/
theorem continuation_paired (left : ExprId) :
    Paired stream start reach 1 (continuation operand bound left) (continuation operand' bound' left) := by
  refine Paired.peek fun kind _ => ?_
  cases found : jointOf? kind with
  | none => exact .fails _
  | some joint =>
    have other : ¬Kind.eof = kind := by
      rintro rfl
      cases found
    cases joint with
    | compare op | linear op | elementwise op => exact binary_paired ended each other left _
    | transpose => exact transposition_paired ended left
    | index => exact indexing_paired ended each enough enough' left

theorem climb_paired (power : Power) (left : ExprId) :
    Paired stream Anywhere reach 0 (climb operand bound power bound left)
      (climb operand' bound' power bound' left) := by
  rw [climb_eq_loop, climb_eq_loop]
  apply loop_paired ended (Nat.not_lt_zero _) _ enough enough'
  exact continuation_paired ended each enough enough'

end

section

variable {operand operand' : Power → Parse ExprId} {body body' : Parse StmtId}
  (each : ∀ power, Paired stream Anywhere reach 1 (operand power) (operand' power))
  (inner : Paired stream Anywhere (reach - 1) 1 body body') (enough : reach ≤ bound + 1) (enough' : reach ≤ bound' + 1)

omit ended in
include each in
theorem operand_behind (power : Power) : Paired stream Anywhere (reach - 1) 0 (operand power) (operand' power) :=
  ((each power).fewer (Nat.sub_le _ _)).uncounted

include each in
theorem condition_paired : Paired stream start (reach - 1) 0 (condition operand) (condition operand') :=
  (group_paired ended fun power => (operand_behind each power).fewer (Nat.sub_le _ _)).uncounted

include each in
theorem assignment_paired : Paired stream start reach 1 (assignment operand) (assignment operand') := by
  refine (Paired.look _).bind_second fun place => (each _).bind_first fun target => Paired.peek fun kind _ => ?_
  split
  · exact .fails _
  · refine Paired.leave.bind_first fun _ => (operand_behind each _).bind_first fun value => ?_
    exact (Paired.expect ended .semicolon (by decide)).uncounted.bind_first fun _ => .addStmtFrom _ _

theorem signal_paired (other : ¬start .eof) (kind : StmtKind) :
    Paired stream start reach 1 (signal kind) (signal kind) := by
  refine (Paired.advance ended other).bind_first fun _ => ?_
  exact (Paired.expect ended .semicolon (by decide)).uncounted.bind_first fun _ => .addStmtFrom _ _

include each enough enough' in
theorem returning_paired (other : ¬start .eof) :
    Paired stream start reach 1 (returning operand bound) (returning operand' bound') := by
  refine (Paired.advance ended other).bind_first fun _ => ?_
  exact (items_paired ended (operand_behind each) (by omega) (by omega) .semicolon (by decide)).bind_first
    fun _ => .addStmtFrom _ _

include each enough enough' in
theorem printing_paired (other : ¬start .eof) :
    Paired stream start reach 1 (printing operand bound) (printing operand' bound') := by
  refine (Paired.advance ended other).bind_first fun _ => Paired.peek fun kind _ => ?_
  split
  · exact .fails _
  · exact (items_paired ended (operand_behind each) (by omega) (by omega) .semicolon (by decide)).bind_first
      fun _ => .addStmtFrom _ _

include inner enough enough' in
theorem block_paired : Paired stream start reach 1 (block body bound) (block body' bound') := by
  refine (Paired.expect ended .openCurly (by decide)).bind_first fun _ => ?_
  have bodies : Paired stream Anywhere (reach - 1) 0 (blockItems body bound []) (blockItems body' bound' []) := by
    rw [blockItems_eq_loop, blockItems_eq_loop]
    apply loop_paired ended (by decide) _ (by omega) (by omega)
    exact gather_paired inner.anywhere
  refine bodies.bind_first fun _ => ?_
  exact (Paired.expect ended .closeCurly (by decide)).uncounted.bind_first fun _ => .addStmtFrom _ _

include each inner

theorem branching_paired (other : ¬start .eof) :
    Paired stream start reach 1 (branching operand body) (branching operand' body') := by
  refine (Paired.advance ended other).bind_first fun _ => ?_
  refine (condition_paired ended each).bind_first fun test => ?_
  refine inner.uncounted.bind_first fun thenBody => Paired.peek fun kind _ => ?_
  split
  · exact Paired.leave.bind_first fun _ => inner.uncounted.bind_first fun _ => .addStmtFrom _ _
  · exact .addStmtFrom _ _

theorem whileLooping_paired (other : ¬start .eof) :
    Paired stream start reach 1 (whileLooping operand body) (whileLooping operand' body') := by
  refine (Paired.advance ended other).bind_first fun _ => ?_
  refine (condition_paired ended each).bind_first fun test => ?_
  exact inner.uncounted.bind_first fun _ => .addStmtFrom _ _

theorem forLooping_paired (other : ¬start .eof) :
    Paired stream start reach 1 (forLooping operand body) (forLooping operand' body') := by
  refine (Paired.advance ended other).bind_first fun _ => ?_
  refine (Paired.expect ended .name (by decide)).uncounted.bind_first fun counter => ?_
  refine (Paired.expect ended .assign (by decide)).uncounted.bind_first fun _ => ?_
  refine (operand_behind each _).bind_first fun first => ?_
  refine (Paired.expect ended .colon (by decide)).uncounted.bind_first fun _ => ?_
  refine (operand_behind each _).bind_first fun last => (addRange_paired first last).bind_first fun range => ?_
  exact inner.uncounted.bind_first fun _ => .addStmtFrom _ _

include enough enough'

theorem statementOf_paired :
    Paired stream start reach 1 (statementOf operand body bound) (statementOf operand' body' bound') := by
  refine Paired.peek fun kind _ => ?_
  split
  · exact block_paired ended inner enough enough'
  · exact branching_paired ended each inner nofun
  · exact whileLooping_paired ended each inner nofun
  · exact forLooping_paired ended each inner nofun
  · exact signal_paired ended nofun _
  · exact signal_paired ended nofun _
  · exact returning_paired ended each enough enough' nofun
  · exact printing_paired ended each enough enough' nofun
  · exact assignment_paired ended each

end

end

end MatrixScript.Grammar
