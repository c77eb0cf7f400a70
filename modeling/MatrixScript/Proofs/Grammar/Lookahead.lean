import MatrixScript.Grammar.Statement
import MatrixScript.Proofs.Grammar.Moves

/-! The parser looks no further than the token that it stands at.

Two parsers with the same tokens up to a point do the same as long as neither of them has left these tokens. Both are
followed at once, the second with limits of its own on nesting and on the lengths of lists: these limits depend on how
many tokens there are, but each of them suffices for the tokens that the two parsers share.
-/

set_option autoImplicit false

namespace MatrixScript

theorem Parser.tokens_next_suffix (parser : Parser) : parser.next.tokens <:+ parser.tokens := by
  cases behind : parser.following with
  | nil =>
    have stays : parser.next = parser := by
      unfold next
      rw [behind]
    exact ⟨[], congrArg Parser.tokens stays⟩
  | cons token rest =>
    have stream : parser.tokens = parser.current :: token :: rest := by
      unfold tokens
      rw [behind]
    rw [Parser.tokens_next stream (List.cons_ne_nil _ _), stream]
    exact List.suffix_cons _ _

namespace Grammar

open Parse

section

variable {α : Type}

/-- Two parsers that have done the same and stand before the same tokens, the current one and fewer than `reach` others.
Behind these, `back` is what the one has before it, and `rest` is what the other has. -/
structure Twins (back rest : List Token) (reach : Nat) (one other : Parser) : Prop where
  current : one.current = other.current
  ahead : ∃ ahead : List Token, ahead.length < reach ∧ one.following = ahead ++ back ∧ other.following = ahead ++ rest
  more : back ≠ []
  left : one.left? = other.left?
  tree : one.tree = other.tree

theorem Twins.reach_pos {back rest : List Token} {reach : Nat} {one other : Parser}
    (twins : Twins back rest reach one other) : 0 < reach := by
  obtain ⟨ahead, short, _⟩ := twins.ahead
  exact Nat.zero_lt_of_lt short

theorem Twins.next {back rest : List Token} {reach : Nat} {one other : Parser}
    (twins : Twins back rest (reach + 1) one other) :
    one.next.tokens = back ∨ Twins back rest reach one.next other.next := by
  obtain ⟨ahead, short, following, following'⟩ := twins.ahead
  cases ahead with
  | nil =>
    left
    have stream : one.tokens = one.current :: back := by rw [Parser.tokens, following, List.nil_append]
    exact Parser.tokens_next stream twins.more
  | cons token ahead =>
    right
    unfold Parser.next
    rw [following, following']
    have ends : some one.current.span.stop = some other.current.span.stop := by rw [twins.current]
    exact ⟨rfl, ⟨ahead, Nat.lt_of_succ_lt_succ short, rfl, rfl⟩, twins.more, ends, twins.tree⟩

/-- A run has come to the tokens `back`, or has failed at one of them. -/
def Past (back : List Token) : EStateM.Result Failure Parser α → Prop
  | .ok _ after => after.tokens <:+ back
  | .error failure _ => ∃ token ∈ back, failure.position = token.span.start

/-- Two runs have ended in the same way, and before the same tokens. -/
def Alike (back rest : List Token) (reach : Nat) :
    EStateM.Result Failure Parser α → EStateM.Result Failure Parser α → Prop
  | .ok value one, .ok value' other => value = value' ∧ Twins back rest reach one other
  | .error failure _, .error failure' _ => failure = failure'
  | _, _ => False

/-- Twins end alike, unless the first of them gets to `back`. They share fewer than `reach` tokens behind the current
one at the start, and fewer than `least` at the end. -/
structure Local (back rest : List Token) (reach least : Nat) (action action' : Parse α) : Prop where
  past : ∀ parser, parser.tokens <:+ back → Past back (action parser)
  twins : ∀ one other, Twins back rest reach one other →
    Past back (action one) ∨ Alike back rest least (action one) (action' other)

end

namespace Local

variable {α β : Type} {back rest : List Token} {reach least last : Nat} {action action' : Parse α}

theorem pure (value : α) : Local back rest reach reach (Pure.pure value) (Pure.pure value) where
  past _ behind := behind
  twins _ _ twins := .inr ⟨rfl, twins⟩

theorem bind {next next' : α → Parse β} (first : Local back rest reach least action action')
    (second : ∀ value, Local back rest least last (next value) (next' value)) :
    Local back rest reach last (action >>= next) (action' >>= next') := by
  -- what has come to `back` stays there
  have onward (parser : Parser) (past : Past back (action parser)) : Past back ((action >>= next) parser) := by
    rw [bind_apply]
    cases done : action parser with
    | error failure after =>
      rw [done] at past
      exact past
    | ok value after =>
      rw [done] at past
      exact (second value).past after past
  constructor
  case past => exact fun parser behind => onward parser (first.past parser behind)
  case twins =>
    intro one other twins
    rcases first.twins one other twins with past | alike
    · exact .inl (onward one past)
    · rw [bind_apply, bind_apply]
      cases done : action one <;> cases done' : action' other <;> rw [done, done'] at alike
      · obtain ⟨rfl, twins⟩ := alike
        exact (second _).twins _ _ twins
      · exact alike.elim
      · exact alike.elim
      · exact .inr alike

theorem weaken {reach' least' : Nat} (same : Local back rest reach least action action') (fewer : reach' ≤ reach)
    (more : least ≤ least') : Local back rest reach' least' action action' where
  past := same.past
  twins one other twins := by
    obtain ⟨ahead, short, streams⟩ := twins.ahead
    have nearer : Twins back rest reach one other :=
      { twins with ahead := ⟨ahead, Nat.lt_of_lt_of_le short fewer, streams⟩ }
    rcases same.twins one other nearer with past | alike
    · exact .inl past
    · right
      cases done : action one <;> cases done' : action' other <;> rw [done, done'] at alike
      · obtain ⟨ahead, short, streams⟩ := alike.2.ahead
        exact ⟨alike.1, { alike.2 with ahead := ⟨ahead, Nat.lt_of_lt_of_le short more, streams⟩ }⟩
      · exact alike.elim
      · exact alike.elim
      · exact alike

theorem widen (same : Local back rest reach (reach - 1) action action') : Local back rest reach reach action action' :=
  same.weaken (Nat.le_refl _) (Nat.sub_le _ _)

theorem blind {other : Parse α} {least' : Nat} (same : Local back rest reach least action action') :
    Local back rest 0 least' action other where
  past := same.past
  twins _ _ twins := absurd twins.reach_pos (Nat.lt_irrefl 0)

theorem look {value : Parser → α} (same : ∀ one other, Twins back rest reach one other → value one = value other) :
    Local back rest reach reach (do return value (← get)) (do return value (← get)) where
  past _ behind := behind
  twins one other twins := .inr ⟨same one other twins, twins⟩

theorem peek : Local back rest reach reach Parse.peek Parse.peek :=
  look fun _ _ twins => by rw [twins.current]

theorem here : Local back rest reach reach Parse.here Parse.here :=
  look fun _ _ twins => by rw [twins.current]

theorem spanFrom (start : Position) : Local back rest reach reach (Parse.spanFrom start) (Parse.spanFrom start) :=
  look fun _ _ twins => by rw [Parser.previousEnd, Parser.previousEnd, twins.current, twins.left]

theorem exprSpan (id : ExprId) : Local back rest reach reach (Parse.exprSpan id) (Parse.exprSpan id) :=
  look fun _ _ twins => by rw [twins.tree]

theorem kind? (id : ExprId) : Local back rest reach reach (Parse.kind? id) (Parse.kind? id) :=
  look fun _ _ twins => by rw [twins.tree]

theorem addExpr (kind : ExprKind) (span : Span) :
    Local back rest reach reach (Parse.addExpr kind span) (Parse.addExpr kind span) where
  past _ behind := behind
  twins one other twins := by
    right
    rw [addExpr_apply, addExpr_apply, twins.tree]
    exact ⟨rfl, twins.current, twins.ahead, twins.more, twins.left, rfl⟩

theorem addStmt (kind : StmtKind) (span : Span) :
    Local back rest reach reach (Parse.addStmt kind span) (Parse.addStmt kind span) where
  past _ behind := behind
  twins one other twins := by
    right
    rw [addStmt_apply, addStmt_apply, twins.tree]
    exact ⟨rfl, twins.current, twins.ahead, twins.more, twins.left, rfl⟩

theorem advance : Local back rest reach (reach - 1) Parse.advance Parse.advance where
  past parser behind := parser.tokens_next_suffix.trans behind
  twins one other twins := by
    cases reach with
    | zero => exact absurd twins.reach_pos (Nat.lt_irrefl 0)
    | succ reach =>
      rcases twins.next with same | twins'
      · exact .inl ⟨[], same⟩
      · exact .inr ⟨twins.current, twins'⟩

theorem fail {failure : Parser → Failure} (here : ∀ parser, (failure parser).position = parser.current.span.start)
    (same : ∀ one other : Parser, one.current = other.current → failure one = failure other) :
    Local back rest reach least (do throw (failure (← get)) : Parse α) (do throw (failure (← get))) where
  past parser behind := by
    obtain ⟨front, rfl⟩ := behind
    exact ⟨parser.current, List.mem_append_right _ (List.mem_cons_self ..), here parser⟩
  twins one other twins := .inr (same one other twins.current)

theorem unexpected : Local back rest reach least (Parse.unexpected : Parse α) Parse.unexpected :=
  fail (fun _ => rfl) fun _ _ same => by rw [Parser.unexpectedFailure, Parser.unexpectedFailure, same]

theorem unexpectedDetailed (detail : String) :
    Local back rest reach least (Parse.unexpectedDetailed detail : Parse α) (Parse.unexpectedDetailed detail) :=
  fail (fun _ => rfl) fun _ _ same => by rw [Parser.detailedFailure, Parser.detailedFailure, same]

theorem choice {test : Prop} [Decidable test] {yes no yes' no' : Parse α}
    (first : Local back rest reach least yes yes') (second : Local back rest reach least no no') :
    Local back rest reach least (if test then yes else no) (if test then yes' else no') := by
  split
  · exact first
  · exact second

theorem expect (kind : Kind) : Local back rest reach (reach - 1) (Parse.expect kind) (Parse.expect kind) := by
  have steps : Parse.expect kind = (do
      if (← Parse.peek) = kind then Parse.advance else Parse.unexpected) := by
    funext parser
    simp only [expect_apply, bind_apply, peek_apply, choice_apply, advance_apply, unexpected_apply]
  rw [steps]
  exact peek.bind fun _ => .choice .advance .unexpected

theorem addExprFrom (kind : ExprKind) (start : Position) :
    Local back rest reach reach (do Parse.addExpr kind (← Parse.spanFrom start))
      (do Parse.addExpr kind (← Parse.spanFrom start)) :=
  (spanFrom start).bind fun _ => addExpr kind _

theorem addStmtFrom (kind : StmtKind) (start : Position) :
    Local back rest reach reach (do Parse.addStmt kind (← Parse.spanFrom start))
      (do Parse.addStmt kind (← Parse.spanFrom start)) :=
  (spanFrom start).bind fun _ => addStmt kind _

theorem addExprBehind (kind : ExprKind) (left : ExprId) :
    Local back rest reach reach (do
      let span ← Parse.spanFrom (← Parse.exprSpan left).start
      Parse.addExpr kind span) (do
      let span ← Parse.spanFrom (← Parse.exprSpan left).start
      Parse.addExpr kind span) :=
  (exprSpan left).bind fun _ => addExprFrom kind _

/-- Where every round takes a token, as many rounds suffice as there are tokens to share. -/
theorem rounds {ι : Type} {run run' : Nat → ι → Parse α} {limit : Nat} {least : Nat → Nat}
    (stops : ∀ state parser, parser.tokens <:+ back → Past back (run 0 state parser))
    (step : ∀ {bound bound' reach : Nat}, reach ≤ limit → reach - 1 ≤ bound → reach - 1 ≤ bound' →
      (∀ fewer ≤ reach - 1, ∀ state, Local back rest fewer (least fewer) (run bound state) (run' bound' state)) →
      ∀ state, Local back rest reach (least reach) (run (bound + 1) state) (run' (bound' + 1) state)) :
    ∀ (bound bound' reach : Nat), reach ≤ limit → reach ≤ bound → reach ≤ bound' →
      ∀ state, Local back rest reach (least reach) (run bound state) (run' bound' state) := by
  intro bound
  induction bound with
  | zero =>
    intro bound' reach _ enough _ state
    obtain rfl := Nat.le_zero.mp enough
    exact ⟨stops state, fun _ _ twins => absurd twins.reach_pos (Nat.lt_irrefl 0)⟩
  | succ bound ih =>
    intro bound' reach within enough enough' state
    cases bound' with
    | zero =>
      -- nothing is shared, so that the limit of the other run does not matter
      obtain rfl := Nat.le_zero.mp enough'
      have alone : ∀ fewer ≤ 0, ∀ state, Local back rest fewer (least fewer) (run bound state) (run' 0 state) := by
        intro fewer none
        obtain rfl := Nat.le_zero.mp none
        exact ih 0 0 within (Nat.zero_le _) (Nat.le_refl _)
      exact (step within (Nat.zero_le _) (Nat.le_refl _) alone state).blind
    | succ bound' =>
      apply step within (Nat.sub_le_of_le_add enough) (Nat.sub_le_of_le_add enough')
      intro fewer le
      exact ih bound' fewer (by omega) (by omega) (by omega)

end Local

section

variable {back rest : List Token} {reach : Nat}

theorem atom_of_ok {parser : Parser} {kind : ExprKind} (read : atomOf parser.current = .ok kind) :
    atom parser = (do
      let token ← advance
      addExpr kind token.span) parser := by
  simp only [atom, bind_apply, advance_apply, read]

/-- The token is left before it is read, but it is where the failure is. -/
theorem atom_of_error {parser : Parser} {fault : Fault} (read : atomOf parser.current = .error fault) :
    atom parser = .error ⟨fault, parser.current.span.start⟩ parser.next := by
  simp only [atom, bind_apply, advance_apply, read, throw_apply]

theorem atom_local : Local back rest reach (reach - 1) atom atom := by
  have taken (kind : ExprKind) : Local back rest reach (reach - 1)
      (do let token ← advance; addExpr kind token.span) (do let token ← advance; addExpr kind token.span) :=
    Local.advance.bind fun token => .addExpr kind token.span
  constructor
  case past =>
    intro parser behind
    cases read : atomOf parser.current with
    | ok kind =>
      rw [atom_of_ok read]
      exact (taken kind).past parser behind
    | error fault =>
      rw [atom_of_error read]
      obtain ⟨front, rfl⟩ := behind
      exact ⟨parser.current, List.mem_append_right _ (List.mem_cons_self ..), rfl⟩
  case twins =>
    intro one other twins
    have same := twins.current
    cases read : atomOf one.current with
    | ok kind =>
      rw [atom_of_ok read, atom_of_ok (same ▸ read)]
      exact (taken kind).twins one other twins
    | error fault =>
      rw [atom_of_error read, atom_of_error (same ▸ read), same]
      exact .inr rfl

theorem addRange_local (start stop : ExprId) :
    Local back rest reach reach (addRange start stop) (addRange start stop) :=
  (Local.exprSpan start).bind fun _ => (Local.exprSpan stop).bind fun _ => .addExpr _ _

theorem transposition_local (inner : ExprId) :
    Local back rest reach (reach - 1) (transposition inner) (transposition inner) :=
  (Local.expect _).bind fun _ => .addExprBehind _ _

theorem itemsAfter_local {item item' : Parse ExprId} {limit : Nat}
    (one : ∀ fewer ≤ limit, Local back rest fewer fewer item item') {bound bound' : Nat} (within : reach ≤ limit)
    (enough : reach ≤ bound) (enough' : reach ≤ bound') (found : List ExprId) :
    Local back rest reach reach (itemsAfter item bound found) (itemsAfter item' bound' found) := by
  refine @Local.rounds _ back rest _ (itemsAfter item) (itemsAfter item') limit id ?_ ?_ bound bound' reach within
    enough enough' found
  · exact fun _ _ behind => behind
  · intro bound bound' reach within _ _ onward found
    refine Local.peek.bind fun kind => .choice ?_ (.pure _)
    have less : reach - 1 ≤ limit := Nat.le_trans (Nat.sub_le _ _) within
    have further (next : ExprId) := onward (reach - 1) (Nat.le_refl _) (next :: found)
    exact .widen (Local.advance.bind fun _ => (one _ less).bind further)

section

variable {operand operand' : Power → Parse ExprId} {limit bound bound' : Nat}
  (each : ∀ fewer ≤ limit, ∀ power, Local back rest fewer fewer (operand power) (operand' power))
include each

theorem negation_local (within : reach - 1 ≤ limit) :
    Local back rest reach (reach - 1) (negation operand) (negation operand') :=
  Local.advance.bind fun _ => (each _ within _).bind fun _ => .addExprFrom _ _

theorem group_local (within : reach - 1 ≤ limit) :
    Local back rest reach (reach - 1) (group operand) (group operand') := by
  refine (Local.expect _).bind fun _ => (each _ within _).bind fun inner => ?_
  exact (Local.expect _).widen.bind fun _ => .pure inner

theorem component_local (within : reach ≤ limit) :
    Local back rest reach reach (component operand) (component operand') := by
  refine (each _ within _).bind fun start => Local.peek.bind fun kind => .choice ?_ (.pure start)
  have less : reach - 1 ≤ limit := Nat.le_trans (Nat.sub_le _ _) within
  exact .widen (Local.advance.bind fun _ => (each _ less _).bind fun stop => addRange_local start stop)

theorem binary_local (within : reach - 1 ≤ limit) (left : ExprId) (join : ExprId → ExprKind) :
    Local back rest reach (reach - 1) (binary operand left join) (binary operand' left join) :=
  Local.advance.bind fun _ => (each _ within _).bind fun _ => .addExprBehind _ _

theorem items_local (within : reach ≤ limit) (enough : reach ≤ bound) (enough' : reach ≤ bound') (terminator : Kind) :
    Local back rest reach reach (items operand bound terminator) (items operand' bound' terminator) := by
  refine Local.peek.bind fun kind => .choice ?_ ?_
  · exact .widen (Local.advance.bind fun _ => .pure [])
  · refine (each _ within _).bind fun first => ?_
    refine (itemsAfter_local (fun fewer le => each fewer le .lowest) within enough enough' [first]).bind fun all => ?_
    exact (Local.expect _).widen.bind fun _ => .pure all

variable (within : reach - 1 ≤ limit) (enough : reach - 1 ≤ bound) (enough' : reach - 1 ≤ bound')
include within enough enough'

theorem arrayLiteral_local :
    Local back rest reach (reach - 1) (arrayLiteral operand bound) (arrayLiteral operand' bound') :=
  (Local.expect _).bind fun _ => (items_local each within enough enough' _).bind fun _ => .addExprFrom _ _

theorem builtin_local (function : Builtin) :
    Local back rest reach (reach - 1) (builtin operand bound function) (builtin operand' bound' function) := by
  refine Local.advance.bind fun _ => (Local.expect _).widen.bind fun _ => ?_
  exact (items_local each within enough enough' _).bind fun _ => .addExprFrom _ _

theorem opening_local : Local back rest reach (reach - 1) (opening operand bound) (opening operand' bound') := by
  refine Local.peek.bind fun kind => ?_
  cases kind with
  | int | float | text | name => exact atom_local
  | dash => exact negation_local each within
  | openParen => exact group_local each within
  | openBracket => exact arrayLiteral_local each within enough enough'
  | eyeWord | zerosWord | onesWord => exact builtin_local each within enough enough' _
  | _ => exact .unexpected

theorem indexing_local (base : ExprId) :
    Local back rest reach (reach - 1) (indexing operand bound base) (indexing operand' bound' base) := by
  have indexed : Local back rest reach (reach - 1) (do
      let _ ← expect .openBracket
      let first ← component operand
      let indices ← itemsAfter (component operand) bound [first]
      let _ ← expect .closeBracket
      let span ← spanFrom (← exprSpan base).start
      addExpr (.indexed base indices) span) (do
      let _ ← expect .openBracket
      let first ← component operand'
      let indices ← itemsAfter (component operand') bound' [first]
      let _ ← expect .closeBracket
      let span ← spanFrom (← exprSpan base).start
      addExpr (.indexed base indices) span) := by
    refine (Local.expect _).bind fun _ => (component_local each within).bind fun first => ?_
    refine (itemsAfter_local (fun _ => component_local each) within enough enough' [first]).bind fun indices => ?_
    exact (Local.expect _).widen.bind fun _ => .addExprBehind _ _
  refine (Local.kind? base).bind fun kind => ?_
  cases kind with
  | none => exact .unexpectedDetailed _
  | some kind =>
    cases kind with
    | name _ | text _ => exact indexed
    | _ => exact .unexpectedDetailed _

theorem continuation_local (left : ExprId) :
    Local back rest reach (reach - 1) (continuation operand bound left) (continuation operand' bound' left) := by
  refine Local.peek.bind fun kind => ?_
  cases jointOf? kind with
  | none => exact .unexpected
  | some joint =>
    cases joint with
    | compare op | linear op | elementwise op => exact binary_local each within left _
    | transpose => exact transposition_local left
    | index => exact indexing_local each within enough enough' left

end

theorem climb_local {operand operand' : Power → Parse ExprId} {limit bound bound' steps steps' : Nat}
    (each : ∀ fewer ≤ limit, ∀ power, Local back rest fewer fewer (operand power) (operand' power))
    (room : limit ≤ bound) (room' : limit ≤ bound') (within : reach ≤ limit) (enough : reach ≤ steps)
    (enough' : reach ≤ steps') (power : Power) (left : ExprId) :
    Local back rest reach reach (climb operand bound power steps left) (climb operand' bound' power steps' left) := by
  refine @Local.rounds _ back rest _ (climb operand bound power) (climb operand' bound' power) limit id ?_ ?_ steps
    steps' reach within enough enough' left
  · exact fun _ _ behind => behind
  · intro steps steps' reach within _ _ onward left
    have less : reach - 1 ≤ limit := Nat.le_trans (Nat.sub_le _ _) within
    refine Local.peek.bind fun kind => .choice (.widen ?_) (.pure left)
    have longer := continuation_local each less (Nat.le_trans less room) (Nat.le_trans less room') left
    exact longer.bind (onward (reach - 1) (Nat.le_refl _))

theorem expressionWithin_local (depth depth' : Nat) (enough : reach ≤ depth) (enough' : reach ≤ depth')
    (power : Power) :
    Local back rest reach reach (expressionWithin depth power) (expressionWithin depth' power) := by
  have refused : Local back rest 0 0 (unexpected : Parse ExprId) unexpected := .unexpected
  refine @Local.rounds _ back rest _ expressionWithin expressionWithin reach id ?_ ?_ depth depth' reach (Nat.le_refl _)
    enough enough' power
  · exact fun _ => refused.past
  · intro depth depth' reach _ room room' each power
    refine .widen ((opening_local each (Nat.le_refl _) room room').bind fun left => ?_)
    exact climb_local each room room' (Nat.le_refl _) room room' power left

section

variable {operand operand' : Power → Parse ExprId} {limit bound bound' : Nat}
  (each : ∀ fewer ≤ limit, ∀ power, Local back rest fewer fewer (operand power) (operand' power))
  {body body' : Parse StmtId} (inner : ∀ fewer ≤ limit, Local back rest fewer (fewer - 1) body body')

section

include each

theorem assignment_local (within : reach ≤ limit) :
    Local back rest reach (reach - 1) (assignment operand) (assignment operand') := by
  have less : reach - 1 ≤ limit := Nat.le_trans (Nat.sub_le _ _) within
  refine Local.here.bind fun start => (each _ within _).bind fun target => Local.peek.bind fun kind => ?_
  cases assignOf? kind with
  | none => exact .unexpectedDetailed _
  | some op =>
    refine Local.advance.bind fun _ => (each _ less _).bind fun value => ?_
    exact (Local.expect _).widen.bind fun _ => .addStmtFrom _ _

variable (within : reach - 1 ≤ limit) (enough : reach - 1 ≤ bound) (enough' : reach - 1 ≤ bound')
include within enough enough'

theorem printing_local : Local back rest reach (reach - 1) (printing operand bound) (printing operand' bound') := by
  refine Local.advance.bind fun token => Local.peek.bind fun kind => .choice (.unexpectedDetailed _) ?_
  exact (items_local each within enough enough' _).bind fun values => .addStmtFrom _ _

theorem returning_local : Local back rest reach (reach - 1) (returning operand bound) (returning operand' bound') :=
  Local.advance.bind fun _ => (items_local each within enough enough' _).bind fun _ => .addStmtFrom _ _

end

theorem signal_local (kind : StmtKind) : Local back rest reach (reach - 1) (signal kind) (signal kind) :=
  Local.advance.bind fun _ => (Local.expect _).widen.bind fun _ => .addStmtFrom _ _

section

include inner

theorem blockItems_local (within : reach ≤ limit) (enough : reach ≤ bound) (enough' : reach ≤ bound')
    (found : List StmtId) :
    Local back rest reach reach (blockItems body bound found) (blockItems body' bound' found) := by
  refine @Local.rounds _ back rest _ (blockItems body) (blockItems body') limit id ?_ ?_ bound bound' reach within
    enough enough' found
  · exact fun _ _ behind => behind
  · intro bound bound' reach within _ _ onward found
    refine Local.peek.bind fun kind => .choice (.pure _) (.widen ?_)
    exact (inner _ within).bind fun next => onward (reach - 1) (Nat.le_refl _) (next :: found)

variable (within : reach - 1 ≤ limit)
include within

theorem block_local (enough : reach - 1 ≤ bound) (enough' : reach - 1 ≤ bound') :
    Local back rest reach (reach - 1) (block body bound) (block body' bound') := by
  refine (Local.expect _).bind fun token => (blockItems_local inner within enough enough' []).bind fun statements => ?_
  exact (Local.expect _).widen.bind fun _ => .addStmtFrom _ _

include each

theorem branching_local : Local back rest reach (reach - 1) (branching operand body) (branching operand' body') := by
  have less : reach - 1 - 1 ≤ limit := Nat.le_trans (Nat.sub_le _ _) within
  refine Local.advance.bind fun token => (group_local each less).widen.bind fun test => ?_
  refine (inner _ within).widen.bind fun thenBody => Local.peek.bind fun kind => .choice ?_ (.addStmtFrom _ _)
  exact Local.advance.widen.bind fun _ => (inner _ within).widen.bind fun elseBody => .addStmtFrom _ _

theorem whileLooping_local :
    Local back rest reach (reach - 1) (whileLooping operand body) (whileLooping operand' body') := by
  have less : reach - 1 - 1 ≤ limit := Nat.le_trans (Nat.sub_le _ _) within
  refine Local.advance.bind fun token => (group_local each less).widen.bind fun test => ?_
  exact (inner _ within).widen.bind fun repeated => .addStmtFrom _ _

theorem forLooping_local : Local back rest reach (reach - 1) (forLooping operand body) (forLooping operand' body') := by
  refine Local.advance.bind fun token => (Local.expect _).widen.bind fun counter => ?_
  refine (Local.expect _).widen.bind fun _ => (each _ within _).bind fun start => ?_
  refine (Local.expect _).widen.bind fun _ => (each _ within _).bind fun stop => ?_
  refine (addRange_local start stop).bind fun range => ?_
  exact (inner _ within).widen.bind fun repeated => .addStmtFrom _ _

end

end

theorem statementWithin_local (depth depth' : Nat) (enough : reach ≤ depth) (enough' : reach ≤ depth') :
    Local back rest reach (reach - 1) (statementWithin depth) (statementWithin depth') := by
  have refused : Local back rest 0 0 (unexpected : Parse StmtId) unexpected := .unexpected
  refine @Local.rounds _ back rest Unit (fun depth _ => statementWithin depth) (fun depth _ => statementWithin depth)
    reach (· - 1) ?_ ?_ depth depth' reach (Nat.le_refl _) enough enough' ()
  · exact fun _ => refused.past
  · intro depth depth' reach _ room room' inner _
    have each (fewer : Nat) (less : fewer ≤ reach) (power : Power) : Local back rest fewer fewer
        (expressionWithin (depth + 1) power) (expressionWithin (depth' + 1) power) :=
      expressionWithin_local _ _ (by omega) (by omega) power
    have shorter (fewer : Nat) (less : fewer ≤ reach - 1) := each fewer (Nat.le_trans less (Nat.sub_le _ _))
    have body (fewer : Nat) (less : fewer ≤ reach - 1) := inner fewer less ()
    have within := Nat.le_refl (reach - 1)
    refine Local.peek.bind fun kind => ?_
    cases kind with
    | openCurly => exact block_local body within (Nat.le_succ_of_le room) (Nat.le_succ_of_le room')
    | ifWord => exact branching_local shorter body within
    | whileWord => exact whileLooping_local shorter body within
    | forWord => exact forLooping_local shorter body within
    | breakWord | continueWord => exact signal_local _
    | returnWord => exact returning_local shorter within (Nat.le_succ_of_le room) (Nat.le_succ_of_le room')
    | printWord => exact printing_local shorter within (Nat.le_succ_of_le room) (Nat.le_succ_of_le room')
    | _ => exact assignment_local each (Nat.le_refl _)

theorem statementsFrom_local (depth depth' : Nat) (enough : reach ≤ depth) (enough' : reach ≤ depth') :
    Local back rest reach reach (statementsFrom depth depth []) (statementsFrom depth' depth' []) := by
  refine @Local.rounds _ back rest _ (statementsFrom depth) (statementsFrom depth') reach id ?_ ?_ depth depth' reach
    (Nat.le_refl _) enough enough' []
  · exact fun _ _ behind => behind
  · intro bound bound' reach' within _ _ onward found
    refine Local.peek.bind fun kind => .choice (.pure _) (.widen ?_)
    have next : Local back rest reach' (reach' - 1) (statementWithin depth) (statementWithin depth') :=
      statementWithin_local _ _ (Nat.le_trans within enough) (Nat.le_trans within enough')
    exact next.bind fun next => onward (reach' - 1) (Nat.le_refl _) (next :: found)

/-- A program that fails before `back` fails just so with anything else in the place of `back`. -/
theorem program_fails_alike {one other after : Parser} {failure : Failure} (twins : Twins back rest reach one other)
    (failed : program one = .error failure after) :
    (∃ token ∈ back, failure.position = token.span.start) ∨ ∃ after', program other = .error failure after' := by
  obtain ⟨ahead, _, following, following'⟩ := twins.ahead
  have enough : ahead.length + 1 ≤ one.following.length + 1 := by
    rw [following, List.length_append]
    omega
  have enough' : ahead.length + 1 ≤ other.following.length + 1 := by
    rw [following', List.length_append]
    omega
  have twins' : Twins back rest (ahead.length + 1) one other :=
    { twins with ahead := ⟨ahead, Nat.lt_succ_self _, following, following'⟩ }
  have same := (statementsFrom_local _ _ enough enough').twins one other twins'
  simp only [program, bind_apply, get_apply] at failed ⊢
  generalize statementsFrom (one.following.length + 1) (one.following.length + 1) [] one = run at same failed
  generalize statementsFrom (other.following.length + 1) (other.following.length + 1) [] other = run' at same ⊢
  cases run with
  | ok body last => cases failed
  | error failure' last =>
    cases failed
    rcases same with past | alike
    · exact .inl past
    · cases run' with
      | ok body last => exact alike.elim
      | error failure' last =>
        obtain rfl := alike
        exact .inr ⟨_, rfl⟩

end

end Grammar

end MatrixScript
