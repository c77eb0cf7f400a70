import MatrixScript.Grammar.Statement
import MatrixScript.Proofs.Grammar.Language
import MatrixScript.Proofs.Token.Coverage

/-! What the nodes of a tree have from its tokens.

Every node starts where a token starts, so whatever holds of the places of tokens holds of the places of nodes, and of
the places where a parser fails. A number is read from its token and has no sign, and a print takes values.
-/

set_option autoImplicit false

namespace MatrixScript

section

variable (place : Position → Prop)

structure Token.Lawful (token : Token) : Prop where
  start : place token.span.start
  unsigned : token.kind = .int → ∀ value, Integer.read? token.value = some value → 0 ≤ value.toInt

structure Expr.Lawful (expr : Expr) : Prop where
  start : place expr.span.start
  unsigned : ∀ value, expr.kind = .int value → 0 ≤ value.toInt

structure Stmt.Lawful (stmt : Stmt) : Prop where
  start : place stmt.span.start
  fed : stmt.kind ≠ .print []

structure Tree.Lawful (tree : Tree) : Prop where
  exprs : ∀ id expr, tree.expr? id = some expr → expr.Lawful place
  stmts : ∀ id stmt, tree.stmt? id = some stmt → stmt.Lawful place

structure Parser.Lawful (parser : Parser) : Prop where
  tokens : ∀ token ∈ parser.tokens, token.Lawful place
  tree : parser.tree.Lawful place

end

section

variable {place : Position → Prop}

theorem Tree.Lawful.empty : ({} : Tree).Lawful place where
  exprs _ _ found := by simp [Tree.expr?] at found
  stmts _ _ found := by simp [Tree.stmt?] at found

theorem Tree.Lawful.addExpr {tree : Tree} (lawful : tree.Lawful place) {kind : ExprKind} {span : Span}
    (expr : (⟨kind, span⟩ : Expr).Lawful place) : (tree.addExpr kind span).2.Lawful place where
  exprs id known found := by
    simp only [Tree.expr?, Tree.addExpr, Array.getElem?_push] at found
    split at found
    · cases found
      exact expr
    · exact lawful.exprs id known found
  stmts := lawful.stmts

theorem Tree.Lawful.addStmt {tree : Tree} (lawful : tree.Lawful place) {kind : StmtKind} {span : Span}
    (stmt : (⟨kind, span⟩ : Stmt).Lawful place) : (tree.addStmt kind span).2.Lawful place where
  exprs := lawful.exprs
  stmts id known found := by
    simp only [Tree.stmt?, Tree.addStmt, Array.getElem?_push] at found
    split at found
    · cases found
      exact stmt
    · exact lawful.stmts id known found

theorem Parser.Lawful.current {parser : Parser} (lawful : parser.Lawful place) : parser.current.Lawful place :=
  lawful.tokens _ List.mem_cons_self

theorem Parser.Lawful.next {parser : Parser} (lawful : parser.Lawful place) : parser.next.Lawful place where
  tokens := by
    unfold Parser.next
    cases behind : parser.following with
    | nil => exact lawful.tokens
    | cons token rest =>
      intro other member
      refine lawful.tokens other (List.mem_cons_of_mem _ ?_)
      rw [behind]
      exact member
  tree := by
    rw [Parser.tree_next]
    exact lawful.tree

end

def Tree.Has (tree : Tree) (id : ExprId) : Prop := ∃ expr, tree.expr? id = some expr

theorem Tree.Has.grow {before after : Tree} {id : ExprId} (has : before.Has id) (grows : before.Grows after) :
    after.Has id := by
  obtain ⟨expr, found⟩ := has
  exact ⟨expr, grows.exprs id expr found⟩

namespace Grammar

open Parse

variable {α β : Type}

/-- A production that starts with a tree grown from `base` keeps a lawful parser lawful and only adds to its tree. It
ends with `after` or fails at a place. -/
def Abides (place : Position → Prop) (base : Tree) (action : Parse α) (after : α → Tree → Prop) : Prop :=
  ∀ parser : Parser, parser.Lawful place → base.Grows parser.tree →
    match action parser with
    | .ok value later => later.Lawful place ∧ parser.tree.Grows later.tree ∧ after value later.tree
    | .error failure _ => place failure.position

abbrev Produces (place : Position → Prop) (base : Tree) (action : Parse ExprId) : Prop :=
  Abides place base action fun id tree => tree.Has id

abbrev Obeys (place : Position → Prop) (base : Tree) (action : Parse α) : Prop :=
  Abides place base action fun _ _ => True

namespace Abides

variable {place : Position → Prop} {base : Tree} {action : Parse α} {after after' : α → Tree → Prop}

theorem pure {value : α} (known : ∀ tree, base.Grows tree → after value tree) :
    Abides place base (Pure.pure value) after :=
  fun _ lawful grows => ⟨lawful, .refl _, known _ grows⟩

theorem bind {next : α → Parse β} {last : β → Tree → Prop} (first : Abides place base action after)
    (second : ∀ value later, base.Grows later → after value later → Abides place later (next value) last) :
    Abides place base (action >>= next) last := by
  intro parser lawful grows
  have one := first parser lawful grows
  rw [bind_apply]
  cases done : action parser with
  | error failure middle =>
    rw [done] at one
    exact one
  | ok value middle =>
    rw [done] at one
    obtain ⟨lawful', grown, known⟩ := one
    -- the second production starts with the tree that the first one has left
    have two := second value middle.tree (grows.trans grown) known middle lawful' (.refl _)
    dsimp only
    cases done' : next value middle with
    | error failure later =>
      rw [done'] at two
      exact two
    | ok result later =>
      rw [done'] at two
      exact ⟨two.1, grown.trans two.2.1, two.2.2⟩

theorem weaken (abides : Abides place base action after)
    (known : ∀ value tree, after value tree → after' value tree) : Abides place base action after' := by
  intro parser lawful grows
  have one := abides parser lawful grows
  cases done : action parser with
  | error failure middle =>
    rw [done] at one
    exact one
  | ok value middle =>
    rw [done] at one
    exact ⟨one.1, one.2.1, known _ _ one.2.2⟩

theorem look {value : Parser → α} (known : ∀ parser : Parser, parser.Lawful place → base.Grows parser.tree →
    after (value parser) parser.tree) : Abides place base (do return value (← get)) after :=
  fun parser lawful grows => ⟨lawful, .refl _, known parser lawful grows⟩

theorem advance : Abides place base Parse.advance fun token _ => token.Lawful place := by
  intro parser lawful _
  rw [advance_apply]
  refine ⟨lawful.next, ?_, lawful.current⟩
  rw [Parser.tree_next]
  exact .refl _

theorem peek : Obeys place base Parse.peek := look fun _ _ _ => trivial

theorem here : Abides place base Parse.here fun start _ => place start := look fun _ lawful _ => lawful.current.start

theorem expect (kind : Kind) : Abides place base (Parse.expect kind) fun token _ => token.Lawful place := by
  intro parser lawful grows
  rw [expect_apply]
  by_cases same : parser.current.kind = kind
  · rw [if_pos same]
    exact advance parser lawful grows
  · rw [if_neg same]
    exact lawful.current.start

theorem unexpected : Abides place base (Parse.unexpected : Parse α) after :=
  fun _ lawful _ => lawful.current.start

theorem unexpectedDetailed (detail : String) : Abides place base (Parse.unexpectedDetailed detail : Parse α) after :=
  fun _ lawful _ => lawful.current.start

theorem throw {failure : Failure} (fails : place failure.position) :
    Abides place base (throw failure : Parse α) after :=
  fun _ _ _ => fails

theorem spanFrom (start : Position) : Abides place base (Parse.spanFrom start) fun span _ => span.start = start :=
  look fun _ _ _ => rfl

theorem kind? (id : ExprId) : Obeys place base (Parse.kind? id) := look fun _ _ _ => trivial

theorem exprSpan {id : ExprId} (has : base.Has id) :
    Abides place base (Parse.exprSpan id) fun span _ => place span.start := by
  apply look
  intro parser lawful grows
  obtain ⟨expr, found⟩ := has.grow grows
  rw [Tree.exprSpan, found]
  exact (lawful.tree.exprs id expr found).start

theorem addExpr {kind : ExprKind} {span : Span} (start : place span.start)
    (unsigned : ∀ value, kind = .int value → 0 ≤ value.toInt) :
    Produces place base (Parse.addExpr kind span) := by
  intro parser lawful _
  refine ⟨⟨lawful.tokens, lawful.tree.addExpr ⟨start, unsigned⟩⟩, .addExpr _ _ _, ⟨kind, span⟩, ?_⟩
  simp [Tree.expr?]

theorem addStmt {kind : StmtKind} {span : Span} (start : place span.start) (fed : kind ≠ .print []) :
    Obeys place base (Parse.addStmt kind span) :=
  fun _ lawful _ => ⟨⟨lawful.tokens, lawful.tree.addStmt ⟨start, fed⟩⟩, .addStmt _ _ _, trivial⟩

theorem addExprFrom {kind : ExprKind} {start : Position} (placed : place start)
    (unsigned : ∀ value, kind ≠ .int value) :
    Produces place base (do Parse.addExpr kind (← Parse.spanFrom start)) := by
  refine (spanFrom start).bind fun span later _ same => addExpr ?_ fun value is => absurd is (unsigned value)
  rw [same]
  exact placed

theorem addStmtFrom {kind : StmtKind} {start : Position} (placed : place start) (fed : kind ≠ .print []) :
    Obeys place base (do Parse.addStmt kind (← Parse.spanFrom start)) := by
  refine (spanFrom start).bind fun span later _ same => addStmt ?_ fed
  rw [same]
  exact placed

end Abides

section

variable {place : Position → Prop} {base : Tree}

theorem atom_abides : Produces place base atom := by
  refine Abides.advance.bind fun token later _ lawful => ?_
  cases made : atomOf token with
  | error fault => exact .throw lawful.start
  | ok kind =>
    -- of all atoms, only that of a number token is a number
    refine .addExpr lawful.start fun value is => ?_
    subst is
    unfold atomOf at made
    split at made
    · next isInt =>
      split at made
      · next read =>
        cases made
        exact lawful.unsigned isInt _ read
      · cases made
    · split at made
      · cases made
      · cases made
    · cases made
    · cases made
    · cases made

theorem addRange_abides {start : ExprId} (has : base.Has start) (stop : ExprId) :
    Produces place base (addRange start stop) := by
  refine (Abides.exprSpan has).bind fun first later _ placed => ?_
  have last : Obeys place later (Parse.exprSpan stop) := .look fun _ _ _ => trivial
  exact last.bind fun _ _ _ _ => .addExpr placed nofun

end

section

variable {place : Position → Prop} {operand : Power → Parse ExprId}
variable (each : ∀ base power, Produces place base (operand power)) {base : Tree}
include each

theorem negation_abides : Produces place base (negation operand) := by
  refine Abides.advance.bind fun token later _ lawful => ?_
  exact (each _ _).bind fun value _ _ _ => .addExprFrom lawful.start nofun

theorem group_abides : Produces place base (group operand) := by
  refine (Abides.expect _).bind fun _ _ _ _ => (each _ _).bind fun inner later _ has => ?_
  exact (Abides.expect _).bind fun _ last grows _ => .pure fun tree grows' => has.grow (grows.trans grows')

omit each in
theorem itemsAfter_abides {item : Parse ExprId} (one : ∀ base, Produces place base item)
    (bound : Nat) (found : List ExprId) :
    Abides place base (itemsAfter item bound found) fun ids _ => found ≠ [] → ids ≠ [] := by
  have nonempty : found ≠ [] → found.reverse ≠ [] := mt List.reverse_eq_nil_iff.mp
  induction bound generalizing base found with
  | zero => exact .pure fun _ _ => nonempty
  | succ bound ih =>
    refine Abides.peek.bind fun kind later _ _ => ?_
    split
    · refine Abides.advance.bind fun _ _ _ _ => (one _).bind fun next _ _ _ => ?_
      have more := mt List.reverse_eq_nil_iff.mp (List.cons_ne_nil next found)
      exact (ih _ fun _ => more).weaken fun _ _ known _ => known (List.cons_ne_nil _ _)
    · exact .pure fun _ _ => nonempty

theorem items_abides (bound : Nat) (terminator : Kind) :
    Obeys place base (items operand bound terminator) := by
  refine Abides.peek.bind fun kind later _ _ => ?_
  split
  · exact Abides.advance.bind fun _ _ _ _ => .pure fun _ _ => trivial
  · refine (each _ _).bind fun first _ _ _ => ?_
    refine (itemsAfter_abides (fun base => each base _) bound [first]).bind fun all _ _ _ => ?_
    exact (Abides.expect _).bind fun _ _ _ _ => .pure fun _ _ => trivial

theorem arrayLiteral_abides (bound : Nat) : Produces place base (arrayLiteral operand bound) := by
  refine (Abides.expect _).bind fun token _ _ lawful => (items_abides each bound _).bind fun items _ _ _ => ?_
  exact .addExprFrom lawful.start nofun

theorem builtin_abides (bound : Nat) (function : Builtin) :
    Produces place base (builtin operand bound function) := by
  refine Abides.advance.bind fun token _ _ lawful => (Abides.expect _).bind fun _ _ _ _ => ?_
  exact (items_abides each bound _).bind fun arguments _ _ _ => .addExprFrom lawful.start nofun

theorem opening_abides (bound : Nat) : Produces place base (opening operand bound) := by
  refine Abides.peek.bind fun kind later _ _ => ?_
  split
  iterate 4 exact atom_abides
  · exact negation_abides each
  · exact group_abides each
  · exact arrayLiteral_abides each bound
  iterate 3 exact builtin_abides each bound _
  · exact .unexpected

theorem component_abides : Produces place base (component operand) := by
  refine (each _ _).bind fun start later _ has => Abides.peek.bind fun kind _ grows _ => ?_
  split
  · refine Abides.advance.bind fun _ _ grows' _ => (each _ _).bind fun stop _ grows'' _ => ?_
    exact addRange_abides (has.grow ((grows.trans grows').trans grows'')) stop
  · exact .pure fun tree grows' => has.grow (grows.trans grows')

omit each in
theorem addExprBehind_abides {left : ExprId} (has : base.Has left) {kind : ExprKind}
    (unsigned : ∀ value, kind ≠ .int value) :
    Produces place base (do
      let span ← spanFrom (← Parse.exprSpan left).start
      addExpr kind span) :=
  (Abides.exprSpan has).bind fun _ _ _ placed => .addExprFrom placed unsigned

theorem indexing_abides (bound : Nat) {left : ExprId} (has : base.Has left) :
    Produces place base (indexing operand bound left) := by
  have indexed (later : Tree) (has : later.Has left) : Produces place later (do
      let _ ← expect .openBracket
      let first ← component operand
      let indices ← itemsAfter (component operand) bound [first]
      let _ ← expect .closeBracket
      let span ← spanFrom (← Parse.exprSpan left).start
      addExpr (.indexed left indices) span) := by
    refine (Abides.expect _).bind fun _ _ one _ => (component_abides each).bind fun first _ two _ => ?_
    refine (itemsAfter_abides (fun _ => component_abides each) bound [first]).bind fun indices _ three _ => ?_
    refine (Abides.expect _).bind fun _ _ four _ => ?_
    exact addExprBehind_abides (has.grow (((one.trans two).trans three).trans four)) nofun
  refine (Abides.kind? left).bind fun kind later grows _ => ?_
  split
  · exact indexed later (has.grow grows)
  · exact indexed later (has.grow grows)
  · exact .unexpectedDetailed _

omit each in
theorem transposition_abides {inner : ExprId} (has : base.Has inner) :
    Produces place base (transposition inner) :=
  (Abides.expect _).bind fun _ _ grows _ => addExprBehind_abides (has.grow grows) nofun

theorem binary_abides {left : ExprId} (has : base.Has left) {join : ExprId → ExprKind}
    (unsigned : ∀ right value, join right ≠ .int value) :
    Produces place base (binary operand left join) := by
  refine Abides.advance.bind fun token _ one _ => (each _ _).bind fun right _ two _ => ?_
  exact addExprBehind_abides (has.grow (one.trans two)) (unsigned right)

theorem continuation_abides (bound : Nat) {left : ExprId} (has : base.Has left) :
    Produces place base (continuation operand bound left) := by
  refine Abides.peek.bind fun kind later grows _ => ?_
  have kept := has.grow grows
  split
  iterate 3 exact binary_abides each kept fun _ _ => nofun
  · exact transposition_abides kept
  · exact indexing_abides each bound kept
  · exact .unexpected

theorem climb_abides (bound : Nat) (power : Power) (steps : Nat) {left : ExprId} (has : base.Has left) :
    Produces place base (climb operand bound power steps left) := by
  induction steps generalizing base left with
  | zero => exact .pure fun tree grows => has.grow grows
  | succ steps ih =>
    refine Abides.peek.bind fun kind later grows _ => ?_
    split
    · exact (continuation_abides each bound (has.grow grows)).bind fun longer _ _ has' => ih has'
    · exact .pure fun tree grows' => has.grow (grows.trans grows')

end

theorem expressionWithin_abides {place : Position → Prop} (depth : Nat) (base : Tree) (power : Power) :
    Produces place base (expressionWithin depth power) := by
  induction depth generalizing base power with
  | zero => exact .unexpected
  | succ depth ih =>
    exact (opening_abides ih depth).bind fun left _ _ has => climb_abides ih depth power depth has

section

variable {place : Position → Prop} {operand : Power → Parse ExprId}
variable (each : ∀ base power, Produces place base (operand power))
variable {body : Parse StmtId} (inner : ∀ base, Obeys place base body) {base : Tree}

section

include each

theorem assignment_abides : Obeys place base (assignment operand) := by
  refine Abides.here.bind fun start _ _ placed => (each _ _).bind fun target _ _ _ => ?_
  refine Abides.peek.bind fun kind _ _ _ => ?_
  split
  · exact .unexpectedDetailed _
  · refine Abides.advance.bind fun _ _ _ _ => (each _ _).bind fun value _ _ _ => ?_
    exact (Abides.expect _).bind fun _ _ _ _ => .addStmtFrom placed nofun

omit each in
theorem printing_eq (bound : Nat) : printing operand bound = (do
    let token ← advance
    if (← peek) = .semicolon then
      unexpectedDetailed "print needs at least one argument"
    else
      let first ← operand .lowest
      let values ← itemsAfter (operand .lowest) bound [first]
      let _ ← expect .semicolon
      addStmt (.print values) (← spanFrom token.span.start)) := by
  funext parser
  unfold printing items
  simp only [bind_apply, advance_apply, peek_apply, choice_apply]
  split
  · rfl
  · -- the same steps in another grouping
    cases operand .lowest parser.next with
    | error failure after => rfl
    | ok first after =>
      dsimp only
      cases itemsAfter (operand .lowest) bound [first] after with
      | error failure after => rfl
      | ok values after =>
        dsimp only
        cases expect .semicolon after <;> rfl

theorem printing_abides (bound : Nat) : Obeys place base (printing operand bound) := by
  rw [printing_eq]
  refine Abides.advance.bind fun token _ _ lawful => Abides.peek.bind fun kind _ _ _ => ?_
  split
  · exact .unexpectedDetailed _
  · refine (each _ _).bind fun first _ _ _ => ?_
    refine (itemsAfter_abides (fun base => each base _) bound [first]).bind fun values _ _ some => ?_
    refine (Abides.expect _).bind fun _ _ _ _ => .addStmtFrom lawful.start ?_
    rintro ⟨⟩
    exact some (List.cons_ne_nil _ _) rfl

theorem returning_abides (bound : Nat) : Obeys place base (returning operand bound) := by
  refine Abides.advance.bind fun token _ _ lawful => (items_abides each bound _).bind fun values _ _ _ => ?_
  exact .addStmtFrom lawful.start nofun

end

theorem signal_abides {kind : StmtKind} (fed : kind ≠ .print []) :
    Obeys place base (signal kind) := by
  refine Abides.advance.bind fun token _ _ lawful => (Abides.expect _).bind fun _ _ _ _ => ?_
  exact .addStmtFrom lawful.start fed

include inner

theorem blockItems_abides (bound : Nat) (found : List StmtId) :
    Obeys place base (blockItems body bound found) := by
  induction bound generalizing base found with
  | zero => exact .pure fun _ _ => trivial
  | succ bound ih =>
    refine Abides.peek.bind fun kind _ _ _ => ?_
    split
    · exact .pure fun _ _ => trivial
    · exact (inner _).bind fun next _ _ _ => ih _

theorem block_abides (bound : Nat) : Obeys place base (block body bound) := by
  refine (Abides.expect _).bind fun token _ _ lawful => (blockItems_abides inner bound []).bind fun _ _ _ _ => ?_
  exact (Abides.expect _).bind fun _ _ _ _ => .addStmtFrom lawful.start nofun

include each

theorem branching_abides : Obeys place base (branching operand body) := by
  refine Abides.advance.bind fun token _ _ lawful => (group_abides each).bind fun test _ _ _ => ?_
  refine (inner _).bind fun thenBody _ _ _ => Abides.peek.bind fun kind _ _ _ => ?_
  split
  · refine Abides.advance.bind fun _ _ _ _ => (inner _).bind fun elseBody _ _ _ => ?_
    exact .addStmtFrom lawful.start nofun
  · exact .addStmtFrom lawful.start nofun

theorem whileLooping_abides : Obeys place base (whileLooping operand body) := by
  refine Abides.advance.bind fun token _ _ lawful => (group_abides each).bind fun test _ _ _ => ?_
  exact (inner _).bind fun repeated _ _ _ => .addStmtFrom lawful.start nofun

theorem forLooping_abides : Obeys place base (forLooping operand body) := by
  refine Abides.advance.bind fun token _ _ lawful => (Abides.expect _).bind fun counter _ _ _ => ?_
  refine (Abides.expect _).bind fun _ _ _ _ => (each _ _).bind fun start _ _ has => ?_
  refine (Abides.expect _).bind fun _ _ one _ => (each _ _).bind fun stop _ two _ => ?_
  refine (addRange_abides (has.grow (one.trans two)) stop).bind fun range _ _ _ => ?_
  exact (inner _).bind fun repeated _ _ _ => .addStmtFrom lawful.start nofun

theorem statementOf_abides (bound : Nat) : Obeys place base (statementOf operand body bound) := by
  refine Abides.peek.bind fun kind _ _ _ => ?_
  split
  · exact block_abides inner bound
  · exact branching_abides each inner
  · exact whileLooping_abides each inner
  · exact forLooping_abides each inner
  · exact signal_abides nofun
  · exact signal_abides nofun
  · exact returning_abides each bound
  · exact printing_abides each bound
  · exact assignment_abides each

end

section

variable {place : Position → Prop}

theorem statementWithin_abides (depth : Nat) (base : Tree) :
    Obeys place base (statementWithin depth) := by
  induction depth generalizing base with
  | zero => exact .unexpected
  | succ depth ih => exact statementOf_abides (expressionWithin_abides _) ih _

theorem statementsFrom_abides {base : Tree} (depth bound : Nat) (found : List StmtId) :
    Obeys place base (statementsFrom depth bound found) := by
  induction bound generalizing base found with
  | zero => exact .pure fun _ _ => trivial
  | succ bound ih =>
    refine Abides.peek.bind fun kind _ _ _ => ?_
    split
    · exact .pure fun _ _ => trivial
    · exact (statementWithin_abides depth _).bind fun next _ _ _ => ih _

theorem program_abides {base : Tree} : Abides place base program fun tree _ => tree.Lawful place := by
  have get : Obeys place base (MonadState.get : Parse Parser) := .look fun _ _ _ => trivial
  refine get.bind fun count _ _ _ => ?_
  refine (statementsFrom_abides _ _ []).bind fun body _ _ _ => ?_
  refine Abides.look fun parser lawful _ => ?_
  exact ⟨lawful.tree.exprs, lawful.tree.stmts⟩

end

end Grammar

/-- What all tokens have, all nodes have, and a failure has. -/
theorem parse_lawful {place : Position → Prop} {tokens : List Token}
    (lawful : ∀ token ∈ (Parser.start tokens).tokens, token.Lawful place) :
    match parse tokens with
    | .ok tree => tree.Lawful place
    | .error failure => place failure.position := by
  have start : (Parser.start tokens).Lawful place := by
    refine ⟨lawful, ?_⟩
    cases tokens <;> exact .empty
  have ends := Grammar.program_abides _ start (.refl _)
  unfold parse EStateM.run
  cases done : Grammar.program (Parser.start tokens) with
  | ok tree after =>
    rw [done] at ends
    exact ends.2.2
  | error failure after =>
    rw [done] at ends
    exact ends

theorem Integer.toInt_of_fit? {n : Int} {value : Int64} (fits : Integer.fit? n = some value) : value.toInt = n := by
  unfold Integer.fit? at fits
  split at fits
  · next inside =>
    cases fits
    exact Int64.toInt_ofInt_of_le inside.1 (Int.lt_add_one_of_le inside.2)
  · cases fits

theorem Integer.read?_nonneg {digits : List Char} {value : Int64} (all : AllDigits digits)
    (read : Integer.read? (String.ofList digits) = some value) : 0 ≤ value.toInt := by
  have unsigned : Decimal.splitSign digits = (false, digits) := by
    unfold Decimal.splitSign
    split
    · exact absurd (all '-' List.mem_cons_self) (by decide)
    · exact absurd (all '+' List.mem_cons_self) (by decide)
    · rfl
  unfold Integer.read? at read
  rw [String.toList_ofList, unsigned] at read
  simp only [Bool.false_eq_true, if_false] at read
  split at read
  · rw [Integer.toInt_of_fit? read]
    exact Int.natCast_nonneg _
  · cases read

theorem wordKind_ne {kind : Kind} (name : kind ≠ .name) (reserved : ∀ entry ∈ reservedWords, entry.2 ≠ kind)
    (word : String) : wordKind word ≠ kind := by
  unfold wordKind
  cases found : reservedWords.lookup word with
  | none => exact name.symm
  | some known =>
    obtain ⟨before, after, same, _⟩ := List.lookup_eq_some_iff.mp found
    exact reserved (word, known) (same ▸ List.mem_append_cons_self)

theorem Lexeme.digits {value : String} {text : List Char} (written : Lexeme .int value text) :
    ∃ digits, value = String.ofList digits ∧ AllDigits digits := by
  generalize same : Kind.int = kind at written
  cases written with
  | word _ => exact absurd same.symm (wordKind_ne (by decide) (by decide) _)
  | int _ all => exact ⟨_, rfl, all⟩
  | float _ | text _ => cases same
  | mark known =>
    have others : ∀ entry ∈ Rule.marks, entry.1 ≠ .int := by decide
    exact absurd same.symm (others _ known)

theorem Lexeme.not_eof {value : String} {text : List Char} : ¬Lexeme .eof value text := by
  intro written
  generalize same : Kind.eof = kind at written
  cases written with
  | word _ => exact absurd same.symm (wordKind_ne (by decide) (by decide) _)
  | int _ _ | float _ | text _ => cases same
  | mark known =>
    have others : ∀ entry ∈ Rule.marks, entry.1 ≠ .eof := by decide
    exact absurd same.symm (others _ known)

theorem scan_accounts (source : String) : Accounts source.toList 0 (scan source) := by
  obtain ⟨scanned, _⟩ := Cursor.tokensFrom_spec ⟨0, 1⟩ source.toList
  have accounts : Accounts ([] ++ source.toList) 0 (scan source) := scanned.accounts rfl
  exact accounts

theorem tokens_of_scan {source : String} {tokens : List Token} (scanned : scan source = .ok tokens) :
    ∃ body, tokens = body ++ [Token.atEnd (placeAfter source.toList)] ∧
      Tiles source.toList 0 (byteLength source.toList) body := by
  have accounts := scan_accounts source
  rw [scanned] at accounts
  exact accounts

theorem start_of_scan {source : String} {tokens : List Token} (scanned : scan source = .ok tokens) :
    (Parser.start tokens).tokens = tokens := by
  obtain ⟨body, rfl, _⟩ := tokens_of_scan scanned
  exact Grammar.start_of_ended rfl body

theorem scan_lawful {source : String} {tokens : List Token} (scanned : scan source = .ok tokens) :
    ∀ token ∈ (Parser.start tokens).tokens, token.Lawful (PlaceIn source.toList) := by
  obtain ⟨body, same, tiles⟩ := tokens_of_scan scanned
  rw [start_of_scan scanned, same]
  intro token member
  rcases List.mem_append.mp member with member | member
  · refine ⟨(tiles.placed token member).1, fun isInt value read => ?_⟩
    obtain ⟨lexeme, _, _, written⟩ := tiles.written token member
    rw [isInt] at written
    obtain ⟨digits, same, all⟩ := written.digits
    rw [same] at read
    exact Integer.read?_nonneg all read
  · rw [List.mem_singleton.mp member]
    exact ⟨⟨source.toList, [], by simp, rfl⟩, nofun⟩

end MatrixScript
