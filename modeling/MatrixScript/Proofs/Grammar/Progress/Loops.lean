import MatrixScript.Proofs.Grammar.Progress.Moves

/-! Loops of the parser.

All loops look at the current token first, and go on for as long as its kind asks for another round. Their bounds are
there for the sake of recursion: when every round takes a token, there are more rounds in a bound than tokens to take,
and a loop ends because of the token that it has come to.
-/

set_option autoImplicit false

namespace MatrixScript.Grammar

open Parse

variable {σ β : Type}

/-- At most `bound` rounds. -/
def loop (more : Kind → Prop) [DecidablePred more] (round : σ → Parse σ) (finish : σ → β) : Nat → σ → Parse β
  | 0, state => return finish state
  | bound + 1, state => do
    if more (← peek) then
      let next ← round state
      loop more round finish bound next
    else
      return finish state

section

variable {ι : Type}

def gather (item : Parse ι) (found : List ι) : Parse (List ι) := do
  let next ← item
  return next :: found

def behindComma (item : Parse ι) : Parse ι := do
  let _ ← advance
  item

theorem itemsAfter_eq_loop (item : Parse ExprId) (bound : Nat) (found : List ExprId) :
    itemsAfter item bound found = loop (· = .comma) (gather (behindComma item)) List.reverse bound found := by
  induction bound generalizing found with
  | zero => rfl
  | succ bound ih => simp only [itemsAfter, loop, gather, behindComma, ih, bind_assoc, pure_bind]

theorem climb_eq_loop (operand : Power → Parse ExprId) (bound : Nat) (power : Power) (steps : Nat) (left : ExprId) :
    climb operand bound power steps left =
      loop (power.rank < ·.power.rank) (continuation operand bound) id steps left := by
  induction steps generalizing left with
  | zero => rfl
  | succ steps ih => simp only [climb, loop, ih, id]

theorem blockItems_eq_loop (body : Parse StmtId) (bound : Nat) (found : List StmtId) :
    blockItems body bound found = loop (fun kind => ¬(kind = .closeCurly ∨ kind = .eof)) (gather body) List.reverse
      bound found := by
  induction bound generalizing found with
  | zero => rfl
  | succ bound ih => simp only [blockItems, loop, gather, ih, bind_assoc, pure_bind, ite_not]

theorem statementsFrom_eq_loop (depth bound : Nat) (found : List StmtId) :
    statementsFrom depth bound found = loop (· ≠ .eof) (gather (statementWithin depth)) List.reverse bound found := by
  induction bound generalizing found with
  | zero => rfl
  | succ bound ih => simp only [statementsFrom, loop, gather, ih, bind_assoc, pure_bind, ne_eq, ite_not]

end

variable {stream : List Token} {more : Kind → Prop} [DecidablePred more] {round round' : σ → Parse σ} {finish : σ → β}

theorem loop_stop (bound : Nat) (state : σ) {parser : Parser} (stops : ¬more parser.current.kind) :
    loop more round finish bound state parser = .ok (finish state) parser := by
  cases bound with
  | zero => rfl
  | succ bound => simp only [loop, bind_apply, peek_apply, choice_apply, if_neg stops, pure_apply]

theorem loop_round (bound : Nat) (state : σ) {parser : Parser} (goes : more parser.current.kind) :
    loop more round finish (bound + 1) state parser =
      (round state >>= loop more round finish bound) parser := by
  simp only [loop, bind_apply, peek_apply, choice_apply, if_pos goes]

omit [DecidablePred more] in
theorem following_pos (ended : Ended stream) (asks : ¬more .eof) {parser : Parser} (inside : parser.tokens <:+ stream)
    (goes : more parser.current.kind) : 0 < parser.following.length := by
  apply List.length_pos_iff.mpr
  intro none
  rw [(ended.of_suffix inside (List.cons_ne_nil _ _)).current none] at goes
  exact asks goes

theorem loop_paired (ended : Ended stream) (asks : ¬more .eof) {reach : Nat}
    (each : ∀ state, Paired stream more reach 1 (round state) (round' state)) {bound bound' : Nat}
    (enough : reach ≤ bound + 1) (enough' : reach ≤ bound' + 1) (state : σ) :
    Paired stream Anywhere reach 0 (loop more round finish bound state) (loop more round' finish bound' state) := by
  have stays (reach : Nat) (state : σ) :
      Paired stream Anywhere reach 0 (Pure.pure (finish state)) (Pure.pure (finish state)) := .pure _
  -- a round leaves fewer tokens, and the bounds suffice for these
  induction bound generalizing bound' reach state with
  | zero =>
    intro parser inside _ near
    have stops : ¬more parser.current.kind := by
      intro goes
      have := following_pos ended asks inside goes
      omega
    rw [loop_stop _ _ stops, loop_stop _ _ stops]
    exact stays reach state parser inside trivial near
  | succ bound ih =>
    intro parser inside _ near
    by_cases goes : more parser.current.kind
    · have some := following_pos ended asks inside goes
      cases bound' with
      | zero => omega
      | succ bound' =>
        have rounds : Paired stream more reach 1 (round state >>= loop more round finish bound)
            (round' state >>= loop more round' finish bound') := by
          apply (each state).bind_first
          intro next
          exact ih (fun state => (each state).fewer (Nat.sub_le _ _)) (by omega) (by omega) next
        rw [loop_round _ _ goes, loop_round _ _ goes]
        exact rounds.uncounted parser inside goes near
    · rw [loop_stop _ _ goes, loop_stop _ _ goes]
      exact stays reach state parser inside trivial near

/-- Rounds are made for as long as the current token asks for them. Each takes a token at least, but for one that fails,
and the loop comes to an end of its own. -/
inductive Rounds (stream : List Token) (more : Kind → Prop) (round : σ → Parse σ) (finish : σ → β) :
    σ → Parser → EStateM.Result Failure Parser β → Prop where
  | done {state : σ} {parser : Parser} : ¬more parser.current.kind →
      Rounds stream more round finish state parser (.ok (finish state) parser)
  | failed {state : σ} {parser after : Parser} {failure : Failure} : more parser.current.kind →
      round state parser = .error failure after →
      Rounds stream more round finish state parser (.error failure after)
  | again {state next : σ} {parser middle : Parser} {result : EStateM.Result Failure Parser β} :
      more parser.current.kind → round state parser = .ok next middle → parser.Precedes stream middle →
      Rounds stream more round finish next middle result → Rounds stream more round finish state parser result

omit [DecidablePred more] in
theorem Rounds.stops {state : σ} {parser after : Parser} {value : β} {result : EStateM.Result Failure Parser β}
    (rounds : Rounds stream more round finish state parser result) (done : result = .ok value after) :
    ¬more after.current.kind := by
  induction rounds with
  | done stops =>
    cases done
    exact stops
  | failed _ _ => cases done
  | again _ _ _ _ ih => exact ih done

/-- A bound that is not less than the number of tokens is as good as none. -/
theorem loop_rounds (ended : Ended stream) (asks : ¬more .eof) {parser : Parser} (inside : parser.tokens <:+ stream)
    {bound : Nat} (enough : parser.following.length ≤ bound)
    (each : ∀ state, Paired stream more (parser.following.length + 1) 1 (round state) (round state)) (state : σ) :
    Rounds stream more round finish state parser (loop more round finish bound state parser) := by
  induction bound generalizing parser state with
  | zero =>
    have stops : ¬more parser.current.kind := by
      intro goes
      have := following_pos ended asks inside goes
      omega
    exact .done stops
  | succ bound ih =>
    by_cases goes : more parser.current.kind
    · rw [loop_round _ _ goes, bind_apply]
      obtain ⟨_, counted⟩ := each state parser inside goes (Nat.lt_succ_self _)
      cases made : round state parser with
      | error failure after => exact .failed goes made
      | ok next middle =>
        obtain ⟨behind, count⟩ := counted next middle made
        have onward := ih (behind.trans inside) (by omega) (fun state => (each state).fewer (by omega)) next
        exact .again goes made (Parser.precedes_of_suffix inside behind count) onward
    · rw [loop_stop _ _ goes]
      exact .done goes

end MatrixScript.Grammar
