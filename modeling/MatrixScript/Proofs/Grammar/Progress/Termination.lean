import MatrixScript.Proofs.Grammar.Language
import MatrixScript.Proofs.Grammar.Progress.Productions

/-! Parsing always comes to an end.

The depth to which productions may nest and the number of rounds that loops may make are given by the number of tokens.
Neither is ever reached: what is read would be the same with any greater number, all loops end because of the token that
they have come to, and productions ask for others of their kind behind the token that they start with only.
-/

set_option autoImplicit false

namespace MatrixScript

namespace Grammar

open Parse

def expressionBy (operand : Power → Parse ExprId) (bound : Nat) (power : Power) : Parse ExprId := do
  let left ← opening operand bound
  climb operand bound power bound left

theorem expressionWithin_succ (depth : Nat) (power : Power) :
    expressionWithin (depth + 1) power = expressionBy (expressionWithin depth) depth power :=
  rfl

section

variable {stream : List Token} (ended : Ended stream) {reach bound bound' depth depth' : Nat}
include ended

theorem expressionBy_paired {operand operand' : Power → Parse ExprId}
    (each : ∀ power, Paired stream Anywhere (reach - 1) 0 (operand power) (operand' power))
    (enough : reach ≤ bound + 1) (enough' : reach ≤ bound' + 1) (power : Power) :
    Paired stream Anywhere reach 1 (expressionBy operand bound power) (expressionBy operand' bound' power) := by
  refine (opening_paired ended each enough enough').bind_first fun left => ?_
  exact climb_paired ended (fun power => (each power).fewer (Nat.sub_le _ _)) (by omega) (by omega) power left

theorem expressionWithin_paired (enough : reach ≤ depth) (enough' : reach ≤ depth') (power : Power) :
    Paired stream Anywhere reach 1 (expressionWithin depth power) (expressionWithin depth' power) := by
  -- the parts are behind a token, where a depth that is less by one suffices
  induction depth generalizing depth' reach power with
  | zero => exact fun _ _ _ near => absurd near (by omega)
  | succ depth ih =>
    cases depth' with
    | zero => exact fun _ _ _ near => absurd near (by omega)
    | succ depth' =>
      have parts (power : Power) : Paired stream Anywhere (reach - 1) 0 (expressionWithin depth power)
          (expressionWithin depth' power) :=
        (ih (by omega) (by omega) power).uncounted
      rw [expressionWithin_succ, expressionWithin_succ]
      exact expressionBy_paired ended parts enough enough' power

theorem expression_paired (enough : reach ≤ depth) (power : Power) :
    Paired stream Anywhere reach 1 (expression power) (expressionWithin depth power) := by
  intro parser inside known near
  exact expressionWithin_paired ended (Nat.lt_succ_self _) (by omega) power parser inside known (Nat.lt_succ_self _)

theorem statementWithin_paired (enough : reach ≤ depth) (enough' : reach ≤ depth') :
    Paired stream Anywhere reach 1 (statementWithin depth) (statementWithin depth') := by
  induction depth generalizing depth' reach with
  | zero => exact fun _ _ _ near => absurd near (by omega)
  | succ depth ih =>
    cases depth' with
    | zero => exact fun _ _ _ near => absurd near (by omega)
    | succ depth' =>
      exact statementOf_paired ended (expressionWithin_paired ended enough enough') (ih (by omega) (by omega))
        (by omega) (by omega)

theorem statement_paired (enough : reach ≤ depth) :
    Paired stream Anywhere reach 1 statement (statementWithin depth) := by
  intro parser inside known near
  exact statementWithin_paired ended (Nat.lt_succ_self _) (by omega) parser inside known (Nat.lt_succ_self _)

theorem expression_alike (power : Power) :
    Paired stream Anywhere reach 1 (expression power) (expression power) :=
  (expression_paired ended (Nat.le_refl reach) power).trans (expression_paired ended (Nat.le_refl reach) power).symm

theorem statement_alike : Paired stream Anywhere reach 1 statement statement :=
  (statement_paired ended (Nat.le_refl reach)).trans (statement_paired ended (Nat.le_refl reach)).symm

/-- An expression is made of parts that are read behind its first token, so that it does not matter what would be read
for a part at that token or in front of it. -/
theorem expression_of_later {operand : Power → Parse ExprId} {parser : Parser} (inside : parser.tokens <:+ stream)
    (later : ∀ power other, parser.Precedes stream other → operand power other = expression power other)
    (enough : parser.following.length ≤ bound) (power : Power) :
    expressionBy operand bound power parser = expression power parser := by
  -- the stream begins with the first token, so that all that is in reach is later
  have left := ended.of_suffix inside (List.cons_ne_nil _ _)
  have parts (power : Power) : Paired parser.tokens Anywhere parser.following.length 0
      (expressionWithin parser.following.length power) (operand power) := by
    apply (expression_paired left (Nat.le_refl _) power).symm.uncounted.congr
    intro other behind _ near
    exact (later power other (Parser.precedes_of_suffix inside behind near)).symm
  have whole := expressionBy_paired left parts (Nat.le_refl _) (Nat.succ_le_succ enough) power
  exact (whole parser (List.suffix_refl _) trivial (Nat.lt_succ_self _)).1.symm

theorem statement_of_later {operand : Power → Parse ExprId} {body : Parse StmtId} {parser : Parser}
    (inside : parser.tokens <:+ stream)
    (here : ∀ power other, other.tokens <:+ parser.tokens → operand power other = expression power other)
    (later : ∀ other, parser.Precedes stream other → body other = statement other)
    (enough : parser.following.length ≤ bound) : statementOf operand body bound parser = statement parser := by
  have left := ended.of_suffix inside (List.cons_ne_nil _ _)
  have operands (power : Power) : Paired parser.tokens Anywhere (parser.following.length + 1) 1
      (expressionWithin (parser.following.length + 1) power) (operand power) := by
    apply (expression_paired left (Nat.le_refl _) power).symm.congr
    intro other behind _ _
    exact (here power other behind).symm
  have bodies : Paired parser.tokens Anywhere parser.following.length 1
      (statementWithin parser.following.length) body := by
    apply (statement_paired left (Nat.le_refl _)).symm.congr
    intro other behind _ near
    exact (later other (Parser.precedes_of_suffix inside behind near)).symm
  have whole : Paired parser.tokens Anywhere (parser.following.length + 1) 1
      (statementOf (expressionWithin (parser.following.length + 1)) (statementWithin parser.following.length)
        (parser.following.length + 1))
      (statementOf operand body bound) :=
    statementOf_paired left operands bodies (by omega) (by omega)
  exact (whole parser (List.suffix_refl _) trivial (Nat.lt_succ_self _)).1.symm

omit ended in
theorem Paired.precedes {α : Type} {action action' : Parse α} {parser after : Parser} {value : α}
    (paired : Paired stream Anywhere (parser.following.length + 1) 1 action action')
    (inside : parser.tokens <:+ stream) (done : action parser = .ok value after) : parser.Precedes stream after := by
  obtain ⟨_, counted⟩ := paired parser inside trivial (Nat.lt_succ_self _)
  obtain ⟨behind, count⟩ := counted value after done
  exact Parser.precedes_of_suffix inside behind count

theorem climb_rounds {parser : Parser} (inside : parser.tokens <:+ stream)
    (enough : parser.following.length ≤ bound) (power : Power) (left : ExprId) :
    Rounds stream (power.rank < ·.power.rank) (continuation expression bound) id left parser
      (climb expression bound power bound left parser) := by
  rw [climb_eq_loop]
  apply loop_rounds ended (Nat.not_lt_zero _) inside enough
  exact continuation_paired ended (fun power => (expression_alike ended power).uncounted) (by omega) (by omega)

theorem itemsAfter_rounds {item : Parse ExprId} {parser : Parser} (inside : parser.tokens <:+ stream)
    (enough : parser.following.length ≤ bound)
    (one : Paired stream Anywhere (parser.following.length + 1) 0 item item) (found : List ExprId) :
    Rounds stream (· = .comma) (gather (behindComma item)) List.reverse found parser
      (itemsAfter item bound found parser) := by
  rw [itemsAfter_eq_loop]
  apply loop_rounds ended (by decide) inside enough
  exact gather_paired (behindComma_paired ended one)

theorem blockItems_rounds {parser : Parser} (inside : parser.tokens <:+ stream)
    (enough : parser.following.length ≤ bound) (found : List StmtId) :
    Rounds stream (fun kind => ¬(kind = .closeCurly ∨ kind = .eof)) (gather statement) List.reverse found parser
      (blockItems statement bound found parser) := by
  rw [blockItems_eq_loop]
  apply loop_rounds ended (by decide) inside enough
  exact gather_paired (statement_alike ended).anywhere

theorem expression_stops {parser after : Parser} {power : Power} {id : ExprId} (inside : parser.tokens <:+ stream)
    (done : expression power parser = .ok id after) : after.power.rank ≤ power.rank := by
  -- the last thing an expression does is its loop
  rw [← expression_of_later ended inside (fun _ _ _ => rfl) (Nat.le_refl _) power] at done
  obtain ⟨left, middle, opened, climbed⟩ := bind_eq_ok.mp done
  have opens : Paired stream Anywhere (parser.following.length + 1) 1
      (opening expression parser.following.length) (opening expression parser.following.length) :=
    opening_paired ended (fun power => (expression_alike ended power).uncounted) (Nat.le_refl _) (Nat.le_refl _)
  obtain ⟨_, counted⟩ := opens parser inside trivial (Nat.lt_succ_self _)
  obtain ⟨behind, count⟩ := counted left middle opened
  have rounds := climb_rounds ended (behind.trans inside) (Nat.le_of_succ_le count) power left
  exact Nat.le_of_not_lt (rounds.stops climbed)

end

/-- What keeps the parser going over a stream of tokens. -/
structure Progress (stream : List Token) : Prop where
  /-- An expression takes a token, and stops where no operator binds tightly enough to continue it. -/
  expressions : ∀ {parser after : Parser} {power : Power} {id : ExprId}, parser.tokens <:+ stream →
    expression power parser = .ok id after →
      parser.Precedes stream after ∧ after.power.rank ≤ power.rank
  /-- A statement takes a token. -/
  statements : ∀ {parser after : Parser} {id : StmtId}, parser.tokens <:+ stream →
    statement parser = .ok id after → parser.Precedes stream after
  /-- The operators of an expression take a token each. -/
  operators : ∀ {parser : Parser} {bound : Nat}, parser.tokens <:+ stream → parser.following.length ≤ bound →
    ∀ power left, Rounds stream (power.rank < ·.power.rank) (continuation expression bound) id left parser
      (climb expression bound power bound left parser)
  /-- The items of a list take a token each, their commas. -/
  items : ∀ {parser : Parser} {bound : Nat}, parser.tokens <:+ stream → parser.following.length ≤ bound →
    ∀ found, Rounds stream (· = .comma) (gather (behindComma (expression .lowest))) List.reverse found parser
      (itemsAfter (expression .lowest) bound found parser)
  /-- So do the components of an index. -/
  components : ∀ {parser : Parser} {bound : Nat}, parser.tokens <:+ stream → parser.following.length ≤ bound →
    ∀ found, Rounds stream (· = .comma) (gather (behindComma (component expression))) List.reverse found parser
      (itemsAfter (component expression) bound found parser)
  /-- The statements of a block take a token each. -/
  blocks : ∀ {parser : Parser} {bound : Nat}, parser.tokens <:+ stream → parser.following.length ≤ bound →
    ∀ found, Rounds stream (fun kind => ¬(kind = .closeCurly ∨ kind = .eof)) (gather statement) List.reverse found
      parser (blockItems statement bound found parser)
  /-- An expression asks for its parts at later tokens only. -/
  parts : ∀ {parser : Parser} {bound : Nat} {operand : Power → Parse ExprId}, parser.tokens <:+ stream →
    parser.following.length ≤ bound →
    (∀ power other, parser.Precedes stream other → operand power other = expression power other) →
    ∀ power, expressionBy operand bound power parser = expression power parser
  /-- A statement asks for statements at later tokens only. -/
  bodies : ∀ {parser : Parser} {bound : Nat} {operand : Power → Parse ExprId} {body : Parse StmtId},
    parser.tokens <:+ stream → parser.following.length ≤ bound →
    (∀ power other, other.tokens <:+ parser.tokens → operand power other = expression power other) →
    (∀ other, parser.Precedes stream other → body other = statement other) →
    statementOf operand body bound parser = statement parser

theorem Ended.progress {stream : List Token} (ended : Ended stream) : Progress stream where
  expressions inside done := ⟨(expression_alike ended _).precedes inside done, expression_stops ended inside done⟩
  statements inside done := (statement_alike ended).precedes inside done
  operators inside enough := climb_rounds ended inside enough
  items inside enough := itemsAfter_rounds ended inside enough (expression_alike ended _).uncounted
  components inside enough := itemsAfter_rounds ended inside enough
    (component_paired fun power => (expression_alike ended power).uncounted)
  blocks inside enough := blockItems_rounds ended inside enough
  parts inside enough later := expression_of_later ended inside later enough
  bodies inside enough here later := statement_of_later ended inside here later enough

theorem statementsFrom_rounds {stream : List Token} (ended : Ended stream) {parser : Parser}
    (inside : parser.tokens <:+ stream) {depth bound : Nat} (deep : parser.following.length < depth)
    (enough : parser.following.length ≤ bound) (found : List StmtId) :
    Rounds stream (· ≠ .eof) (gather statement) List.reverse found parser
      (statementsFrom depth bound found parser) := by
  have same : Paired stream Anywhere (parser.following.length + 1) 0
      (loop (· ≠ .eof) (gather statement) List.reverse bound found)
      (loop (· ≠ .eof) (gather (statementWithin depth)) List.reverse bound found) := by
    apply loop_paired ended (by decide) _ (Nat.succ_le_succ enough) (Nat.succ_le_succ enough)
    exact gather_paired (statement_paired ended deep).anywhere
  -- the depth is enough for every statement of the program
  rw [statementsFrom_eq_loop, ← (same parser inside trivial (Nat.lt_succ_self _)).1]
  apply loop_rounds ended (by decide) inside enough
  exact gather_paired (statement_alike ended).anywhere

theorem parse_eq_statements (tokens : List Token) : parse tokens =
    match statementsFrom ((Parser.start tokens).following.length + 1) ((Parser.start tokens).following.length + 1) []
      (Parser.start tokens) with
    | .ok body after => .ok { after.tree with body }
    | .error failure _ => .error failure := by
  have whole (first : Parser) : program first = (do
      let body ← statementsFrom (first.following.length + 1) (first.following.length + 1) []
      return { (← get).tree with body } : Parse Tree) first := rfl
  unfold parse EStateM.run
  rw [whole, bind_apply]
  cases statementsFrom ((Parser.start tokens).following.length + 1) ((Parser.start tokens).following.length + 1) []
    (Parser.start tokens) with
  | ok body after => rfl
  | error failure after => rfl

end Grammar

open Grammar in
/-- Whatever the tokens are, all expressions and statements take some of them, and so does every round of a loop. So
parsing comes to an end of its own. -/
theorem parser_makes_progress (tokens : List Token) :
    let first := Parser.start tokens
    Progress first.tokens ∧ ∃ result,
      Rounds first.tokens (· ≠ .eof) (gather statement) List.reverse [] first result ∧
        parse tokens = match result with
          | .ok body after => .ok { after.tree with body }
          | .error failure _ => .error failure := by
  intro first
  have ended : Ended first.tokens := ended_start tokens
  refine ⟨ended.progress, _, ?_, parse_eq_statements tokens⟩
  exact statementsFrom_rounds ended (List.suffix_refl _) (Nat.lt_succ_self _) (Nat.le_succ _) []

end MatrixScript
