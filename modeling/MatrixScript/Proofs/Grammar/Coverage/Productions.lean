import MatrixScript.Proofs.Grammar.Coverage.Moves
import MatrixScript.Proofs.Grammar.Language

/-! Every node of a parsed tree covers tokens, and the children of a node some of these one after the other.

A production is followed from the place where it starts. It is not asked whether it succeeds: what has been taken when
it does is what the node at its end covers.
-/

set_option autoImplicit false

namespace MatrixScript

namespace Grammar

open Parse

section

variable {stream : List Token} {base : Tree} {place : Nat}

theorem atom_walks : Delivers stream base place atom := by
  intro parser here grows id later done
  cases made : atomOf parser.current with
  | error fault =>
    simp only [atom, bind_apply, advance_apply, made, throw_apply] at done
    cases done
  | ok kind =>
    have other := (atomOf_sound made).1
    have here' := here.next other
    -- the node of one token
    have covers : parser.current.span.Covers stream place (place + 1) := by
      refine ⟨Nat.lt_succ_self _, here'.inside, ?_, ?_⟩
      · rw [here.current]
        rfl
      · rw [Nat.add_sub_cancel, here.current]
        rfl
    have single : ∀ token kind, atomOf token = .ok kind → kind.children = [] := by
      intro token kind made
      unfold atomOf at made
      grind [ExprKind.children, ExprKind.operands, ExprKind.indices]
    have laid : Laid (parser.next.tree.ExprCovers stream) place (place + 1) kind.children := by
      rw [single _ _ made]
      exact .nil (Nat.le_succ _)
    have added := Walks.addExpr covers laid parser.next here' (.refl _) id later
    simp only [atom, bind_apply, advance_apply, made] at done
    obtain ⟨reached, le, here'', grown, rfl, known⟩ := added done
    rw [Parser.tree_next] at grown
    exact ⟨_, Nat.le_of_succ_le le, here'', grown, place, place + 1, Nat.le_refl _, Nat.le_refl _, known⟩

theorem addRange_walks {start stop : ExprId} {lo mid mid' hi : Nat} (first : base.ExprCovers stream lo mid start)
    (second : base.ExprCovers stream mid' hi stop) (le : mid ≤ mid') :
    Walks stream base place (addRange start stop) fun id tree reached =>
      reached = place ∧ tree.ExprCovers stream lo hi id := by
  refine .exprSpan first fun front one => .exprSpan second fun back two => ?_
  have := one.lt
  have := two.lt
  exact .addExpr ⟨by omega, two.inside, one.start, two.stop⟩
    (.cons (Nat.le_refl _) first (.single le second (Nat.le_refl _)))

end

section

variable {stream : List Token} {operand : Power → Parse ExprId}
variable (each : ∀ base place power, Delivers stream base place (operand power)) {base : Tree} {place : Nat}
include each

omit each in
theorem addExprFrom_delivers {kind : ExprKind} {start : Position} {lo : Nat}
    (started : stream[lo]?.map (·.span.start) = some start) (lt : lo < place)
    (laid : Laid (base.ExprCovers stream) lo place kind.children) :
    Walks stream base place (do addExpr kind (← spanFrom start)) fun id tree reached =>
      ∃ first last, lo ≤ first ∧ last ≤ reached ∧ tree.ExprCovers stream first last id := by
  apply (Walks.addExprFrom started lt laid).weaken
  rintro id tree _ _ ⟨rfl, known⟩
  exact ⟨_, _, Nat.le_refl _, Nat.le_refl _, known⟩

theorem negation_walks (known : stream[place]?.map (·.kind) = some .dash) :
    Delivers stream base place (negation operand) := by
  refine .advance known (by decide) fun token started => (each _ _ _).bind fun value later reached grows le inner => ?_
  obtain ⟨lo, hi, above, below, covers⟩ := inner
  exact addExprFrom_delivers started (by omega) (.single (by omega) covers below)

theorem group_walks : Delivers stream base place (group operand) := by
  refine .expect _ (by decide) fun _ _ => (each _ _ _).bind fun inner later reached grows le known => ?_
  refine .expect _ (by decide) fun _ _ => .pure fun tree grows' => ?_
  obtain ⟨lo, hi, above, below, covers⟩ := known
  exact ⟨lo, hi, by omega, by omega, covers.grow grows'⟩

omit each in
theorem itemsAfter_walks {item : Parse ExprId} (one : ∀ base place, Delivers stream base place item) {lo : Nat}
    (bound : Nat) {found : List ExprId} (laid : Laid (base.ExprCovers stream) lo place found.reverse) :
    Walks stream base place (itemsAfter item bound found) fun ids tree reached =>
      Laid (tree.ExprCovers stream) lo reached ids := by
  have kept {base : Tree} {place : Nat} {found : List ExprId}
      (laid : Laid (base.ExprCovers stream) lo place found.reverse) (tree : Tree) (grows : base.Grows tree) :
      Laid (tree.ExprCovers stream) lo place found.reverse :=
    laid.mono fun _ _ _ => .grow grows
  induction bound generalizing base place found with
  | zero => exact .pure (kept laid)
  | succ bound ih =>
    refine .peek fun kind known => ?_
    split
    · next comma =>
      refine .advance known (comma ▸ by decide) fun _ _ => (one _ _).bind fun next later reached grows le inner => ?_
      obtain ⟨first, last, above, below, covers⟩ := inner
      apply ih
      rw [List.reverse_cons]
      have before := (kept laid later grows).raise (show place ≤ first by omega)
      exact (before.snoc covers).raise below
    · exact .pure (kept laid)

theorem items_walks (bound : Nat) (terminator : Kind) (other : terminator ≠ .eof) :
    Walks stream base place (items operand bound terminator) fun ids tree reached =>
      place < reached ∧ Laid (tree.ExprCovers stream) place reached ids := by
  refine .peek fun kind known => ?_
  split
  · next same =>
    refine .advance known (same ▸ other) fun _ _ => .pure fun _ _ => ?_
    exact ⟨Nat.lt_succ_self _, .nil (Nat.le_succ _)⟩
  · refine (each _ _ _).bind fun first later reached _ _ inner => ?_
    obtain ⟨lo, hi, above, below, covers⟩ := inner
    have begun : Laid (later.ExprCovers stream) place reached [first].reverse := .single above covers below
    refine (itemsAfter_walks (fun base place => each base place _) bound begun).bind fun all tree finish _ _ laid => ?_
    refine .expect _ other fun _ _ => .pure fun tree grows => ?_
    exact ⟨by omega, (laid.mono fun _ _ _ => .grow grows).raise (Nat.le_succ _)⟩

theorem arrayLiteral_walks (bound : Nat) : Delivers stream base place (arrayLiteral operand bound) := by
  refine .expect _ (by decide) fun token started => ?_
  refine (items_walks each bound _ (by decide)).bind fun items later reached _ _ known => ?_
  have laid : Laid (later.ExprCovers stream) place reached (ExprKind.array items).children := by
    simpa [ExprKind.children, ExprKind.operands, ExprKind.indices] using known.2.lower (Nat.le_succ place)
  exact addExprFrom_delivers started (by omega) laid

theorem builtin_walks (bound : Nat) (function : Builtin) {kind : Kind} (known : stream[place]?.map (·.kind) = some kind)
    (other : kind ≠ .eof) : Delivers stream base place (builtin operand bound function) := by
  refine .advance known other fun token started => .expect _ (by decide) fun _ _ => ?_
  refine (items_walks each bound _ (by decide)).bind fun arguments later reached _ _ known => ?_
  have laid : Laid (later.ExprCovers stream) place reached (ExprKind.builtin function arguments).children := by
    simpa [ExprKind.children, ExprKind.operands, ExprKind.indices] using
      known.2.lower (show place ≤ place + 1 + 1 by omega)
  exact addExprFrom_delivers started (by omega) laid

theorem opening_walks (bound : Nat) : Delivers stream base place (opening operand bound) := by
  refine .peek fun kind known => ?_
  split
  iterate 4 exact atom_walks
  · exact negation_walks each known
  · exact group_walks each
  · exact arrayLiteral_walks each bound
  iterate 3 exact builtin_walks each bound _ known (by decide)
  · exact .fails fun parser => ⟨_, _, rfl⟩

theorem component_walks : Delivers stream base place (component operand) := by
  refine (each _ _ _).bind fun start middle reached _ _ inner => .peek fun kind known => ?_
  obtain ⟨lo, mid, above, below, first⟩ := inner
  split
  · next colon =>
    refine .advance known (colon ▸ by decide) fun _ _ => (each _ _ _).bind fun stop later finish grows _ inner => ?_
    obtain ⟨mid', hi, above', below', second⟩ := inner
    refine (addRange_walks (first.grow grows) second (by omega)).weaken ?_
    rintro id tree _ _ ⟨rfl, known⟩
    exact ⟨lo, hi, above, below', known⟩
  · exact .pure fun tree grows => ⟨lo, mid, above, below, first.grow grows⟩

end

section

variable {stream : List Token} {operand : Power → Parse ExprId}
variable (each : ∀ base place power, Delivers stream base place (operand power)) {base : Tree} {place lo hi : Nat}
  {left : ExprId} (covers : base.ExprCovers stream lo hi left) (le : hi ≤ place)

abbrev Prolonged (stream : List Token) (lo : Nat) (id : ExprId) (tree : Tree) (reached : Nat) : Prop :=
  ∃ hi, hi ≤ reached ∧ tree.ExprCovers stream lo hi id

include covers

theorem addExprBehind_walks {kind : ExprKind} {rest : List ExprId} (children : kind.children = left :: rest)
    (behind : hi ≤ place) (laid : Laid (base.ExprCovers stream) hi place rest) :
    Walks stream base place (do
      let span ← spanFrom (← Parse.exprSpan left).start
      addExpr kind span) (Prolonged stream lo) := by
  refine .exprSpan covers fun span known => ?_
  have lt := known.lt
  have whole : Laid (base.ExprCovers stream) lo place kind.children := by
    rw [children]
    exact .cons (Nat.le_refl _) covers laid
  refine (Walks.addExprFrom known.start (by omega) whole).weaken ?_
  rintro id tree _ _ ⟨rfl, known⟩
  exact ⟨_, Nat.le_refl _, known⟩

include le

theorem transposition_walks : Walks stream base place (transposition left) (Prolonged stream lo) :=
  .expect _ (by decide) fun _ _ => addExprBehind_walks covers rfl (by omega) (.nil (by omega))

include each

theorem binary_walks {kind : Kind} (known : stream[place]?.map (·.kind) = some kind) (other : kind ≠ .eof)
    {join : ExprId → ExprKind} (children : ∀ right, (join right).children = [left, right]) :
    Walks stream base place (binary operand left join) (Prolonged stream lo) := by
  refine .advance known other fun token _ => (each _ _ _).bind fun right later reached grows le' inner => ?_
  obtain ⟨first, last, above, below, second⟩ := inner
  exact addExprBehind_walks (covers.grow grows) (children right) (by omega) (.single (by omega) second below)

theorem indexing_walks (bound : Nat) :
    Walks stream base place (indexing operand bound left) (Prolonged stream lo) := by
  have indexed : Walks stream base place (do
      let _ ← expect .openBracket
      let first ← component operand
      let indices ← itemsAfter (component operand) bound [first]
      let _ ← expect .closeBracket
      let span ← spanFrom (← Parse.exprSpan left).start
      addExpr (.indexed left indices) span) (Prolonged stream lo) := by
    refine .expect _ (by decide) fun _ _ => (component_walks each).bind fun first middle reached grows _ inner => ?_
    obtain ⟨front, back, above, below, known⟩ := inner
    have begun : Laid (middle.ExprCovers stream) hi reached [first].reverse := .single (by omega) known below
    refine (itemsAfter_walks (fun _ _ => component_walks each) bound begun).bind fun indices later _ grows' _ laid => ?_
    refine .expect _ (by decide) fun _ _ => ?_
    exact addExprBehind_walks ((covers.grow grows).grow grows') rfl (by omega) (laid.raise (Nat.le_succ _))
  refine .kind? fun kind => ?_
  split
  · exact indexed
  · exact indexed
  · exact .fails fun parser => ⟨_, _, rfl⟩

theorem continuation_walks (bound : Nat) :
    Walks stream base place (continuation operand bound left) (Prolonged stream lo) := by
  refine .peek fun kind known => ?_
  have other : ∀ joint, jointOf? kind = some joint → kind ≠ .eof := by
    rintro joint found rfl
    cases found
  split
  iterate 3
    next found => exact binary_walks each covers le known (other _ found) fun _ => rfl
  · exact transposition_walks covers le
  · exact indexing_walks each covers le bound
  · exact .fails fun parser => ⟨_, _, rfl⟩

theorem climb_walks (bound : Nat) (power : Power) (steps : Nat) :
    Walks stream base place (climb operand bound power steps left) (Prolonged stream lo) := by
  induction steps generalizing base place left hi with
  | zero => exact .pure fun tree grows => ⟨hi, le, covers.grow grows⟩
  | succ steps ih =>
    refine .peek fun kind known => ?_
    split
    · refine (continuation_walks each covers le bound).bind fun longer later reached _ _ inner => ?_
      obtain ⟨last, le', covers'⟩ := inner
      exact ih covers' le'
    · exact .pure fun tree grows => ⟨hi, le, covers.grow grows⟩

end

theorem expressionWithin_walks {stream : List Token} (depth : Nat) (base : Tree) (place : Nat) (power : Power) :
    Delivers stream base place (expressionWithin depth power) := by
  induction depth generalizing base place power with
  | zero => exact .fails fun parser => ⟨_, _, rfl⟩
  | succ depth ih =>
    refine (opening_walks ih depth).bind fun left later reached _ _ inner => ?_
    obtain ⟨lo, hi, above, below, covers⟩ := inner
    refine (climb_walks ih covers below depth power depth).weaken ?_
    rintro id tree finish _ ⟨last, le, known⟩
    exact ⟨lo, last, above, le, known⟩

section

variable {stream : List Token} {operand : Power → Parse ExprId} {body : Parse StmtId}
variable (each : ∀ base place power, Delivers stream base place (operand power))
variable (inner : ∀ base place, Makes stream base place body) {base : Tree} {place : Nat}

section

include each

theorem assignment_walks : Makes stream base place (assignment operand) := by
  refine .here fun start started => (each _ _ _).bind fun target middle reached _ _ first => .peek fun kind known => ?_
  obtain ⟨lo, hi, above, below, covers⟩ := first
  split
  · exact .fails fun parser => ⟨_, _, rfl⟩
  · next op found =>
    have other : kind ≠ .eof := by
      rintro rfl
      cases found
    refine .advance known other fun _ _ => (each _ _ _).bind fun value later finish grows _ second => ?_
    obtain ⟨lo', hi', above', below', covers'⟩ := second
    refine .expect _ (by decide) fun _ _ => ?_
    have lt := covers.choose_spec.2.lt
    have laid : Laid (later.ExprCovers stream) place finish [target, value] :=
      .cons above (covers.grow grows) (.single (by omega) covers' below')
    exact .addStmtFrom _ started (by omega) laid (.nil (Nat.le_succ _))

theorem values_walks (bound : Nat) {node : List ExprId → StmtKind} (exprs : ∀ values, (node values).exprs = values)
    (bodies : ∀ values, (node values).bodies = []) {token : Token}
    (started : stream[place]?.map (·.span.start) = some token.span.start) :
    Walks stream base (place + 1) (do
      let values ← items operand bound .semicolon
      addStmt (node values) (← spanFrom token.span.start)) fun id tree reached =>
        tree.StmtCovers stream place reached id := by
  refine (items_walks each bound _ (by decide)).bind fun values later reached _ _ known => ?_
  refine .addStmtFrom reached started (by omega) ?_ ?_
  · rw [exprs]
    exact known.2.lower (Nat.le_succ _)
  · rw [bodies]
    exact .nil (Nat.le_refl _)

theorem printing_walks (bound : Nat) (known : stream[place]?.map (·.kind) = some .printWord) :
    Makes stream base place (printing operand bound) := by
  refine .advance known (by decide) fun token started => .peek fun kind _ => ?_
  split
  · exact .fails fun parser => ⟨_, _, rfl⟩
  · exact values_walks each bound (fun _ => rfl) (fun _ => rfl) started

theorem returning_walks (bound : Nat) (known : stream[place]?.map (·.kind) = some .returnWord) :
    Makes stream base place (returning operand bound) :=
  .advance known (by decide) fun _ started => values_walks each bound (fun _ => rfl) (fun _ => rfl) started

end

theorem signal_walks {kind : Kind} (known : stream[place]?.map (·.kind) = some kind) (other : kind ≠ .eof)
    {node : StmtKind} (exprs : node.exprs = []) (bodies : node.bodies = []) :
    Makes stream base place (signal node) := by
  refine .advance known other fun token started => .expect _ (by decide) fun _ _ => ?_
  refine .addStmtFrom place started (by omega) ?_ ?_
  · rw [exprs]
    exact .nil (Nat.le_refl _)
  · rw [bodies]
    exact .nil (by omega)

include inner

theorem blockItems_walks {lo : Nat} (bound : Nat) {found : List StmtId}
    (laid : Laid (base.StmtCovers stream) lo place found.reverse) :
    Walks stream base place (blockItems body bound found) fun ids tree reached =>
      Laid (tree.StmtCovers stream) lo reached ids := by
  induction bound generalizing base place found with
  | zero => exact .pure fun tree grows => laid.mono fun _ _ _ => .grow grows
  | succ bound ih =>
    refine .peek fun kind _ => ?_
    split
    · exact .pure fun tree grows => laid.mono fun _ _ _ => .grow grows
    · refine (inner _ _).bind fun next later reached grows _ covers => ih ?_
      rw [List.reverse_cons]
      exact (laid.mono fun _ _ _ => .grow grows).snoc covers

theorem block_walks (bound : Nat) : Makes stream base place (block body bound) := by
  refine .expect _ (by decide) fun token started => ?_
  have none : Laid (base.StmtCovers stream) place (place + 1) ([] : List StmtId).reverse := .nil (Nat.le_succ _)
  refine (blockItems_walks inner bound none).bind fun statements later reached _ _ laid => ?_
  refine .expect _ (by decide) fun _ _ => ?_
  exact .addStmtFrom place started (by omega) (.nil (Nat.le_refl _)) (laid.raise (Nat.le_succ _))

include each

theorem branching_walks (known : stream[place]?.map (·.kind) = some .ifWord) :
    Makes stream base place (branching operand body) := by
  refine .advance known (by decide) fun token started => (group_walks each).bind fun test first reached _ _ found => ?_
  obtain ⟨lo, hi, above, below, covers⟩ := found
  refine (inner _ _).bind fun thenBody second finish grows _ taken => .peek fun kind known => ?_
  have lt := taken.choose_spec.2.lt
  split
  · next word =>
    refine .advance known (word ▸ by decide) fun _ _ => (inner _ _).bind fun elseBody third final grows' _ skipped => ?_
    have laid : Laid (third.ExprCovers stream) place reached [test] :=
      .single (by omega) ((covers.grow grows).grow grows') below
    have laid' : Laid (third.StmtCovers stream) reached final [thenBody, elseBody] :=
      .cons (Nat.le_refl _) (taken.grow grows') (.single (Nat.le_succ _) skipped (Nat.le_refl _))
    exact .addStmtFrom _ started (by omega) laid laid'
  · have laid : Laid (second.ExprCovers stream) place reached [test] := .single (by omega) (covers.grow grows) below
    exact .addStmtFrom _ started (by omega) laid (.single (Nat.le_refl _) taken (Nat.le_refl _))

theorem whileLooping_walks (known : stream[place]?.map (·.kind) = some .whileWord) :
    Makes stream base place (whileLooping operand body) := by
  refine .advance known (by decide) fun token started => (group_walks each).bind fun test first reached _ _ found => ?_
  obtain ⟨lo, hi, above, below, covers⟩ := found
  refine (inner _ _).bind fun repeated later finish grows _ taken => ?_
  have laid : Laid (later.ExprCovers stream) place reached [test] := .single (by omega) (covers.grow grows) below
  exact .addStmtFrom _ started (by omega) laid (.single (Nat.le_refl _) taken (Nat.le_refl _))

theorem forLooping_walks (known : stream[place]?.map (·.kind) = some .forWord) :
    Makes stream base place (forLooping operand body) := by
  refine .advance known (by decide) fun token started => .expect _ (by decide) fun counter _ => ?_
  refine .expect _ (by decide) fun _ _ => (each _ _ _).bind fun start first reached _ _ found => ?_
  refine .expect _ (by decide) fun _ _ => (each _ _ _).bind fun stop second finish grows _ found' => ?_
  obtain ⟨lo, mid, above, below, covers⟩ := found
  obtain ⟨mid', hi, above', below', covers'⟩ := found'
  refine (addRange_walks (covers.grow grows) covers' (by omega)).bind fun range third same grows' _ ranged => ?_
  obtain ⟨rfl, ranged⟩ := ranged
  refine (inner _ _).bind fun repeated later final grows'' _ taken => ?_
  have laid : Laid (later.ExprCovers stream) place same [range] := .single (by omega) (ranged.grow grows'') below'
  exact .addStmtFrom _ started (by omega) laid (.single (Nat.le_refl _) taken (Nat.le_refl _))

theorem statementOf_walks (bound : Nat) : Makes stream base place (statementOf operand body bound) := by
  refine .peek fun kind known => ?_
  split
  · exact block_walks inner bound
  · exact branching_walks each inner known
  · exact whileLooping_walks each inner known
  · exact forLooping_walks each inner known
  · exact signal_walks known (by decide) rfl rfl
  · exact signal_walks known (by decide) rfl rfl
  · exact returning_walks each bound known
  · exact printing_walks each bound known
  · exact assignment_walks each

end

section

variable {stream : List Token}

theorem statementWithin_walks (depth : Nat) (base : Tree) (place : Nat) :
    Makes stream base place (statementWithin depth) := by
  induction depth generalizing base place with
  | zero => exact .fails fun parser => ⟨_, _, rfl⟩
  | succ depth ih => exact statementOf_walks (expressionWithin_walks _) ih _

theorem statementsFrom_walks {base : Tree} {place lo : Nat} (depth bound : Nat) {found : List StmtId}
    (joined : Joined (base.StmtCovers stream) lo place found.reverse) (enough : stream.length ≤ place + bound) :
    Walks stream base place (statementsFrom depth bound found) fun ids tree reached =>
      Joined (tree.StmtCovers stream) lo reached ids ∧ stream[reached]?.map (·.kind) = some .eof := by
  induction bound generalizing base place found with
  | zero =>
    intro parser here
    exact absurd here.inside (by omega)
  | succ bound ih =>
    refine .peek fun kind known => ?_
    split
    · next ends =>
      subst ends
      exact .pure fun tree grows => ⟨joined.mono fun _ _ _ => .grow grows, known⟩
    · refine (statementWithin_walks depth _ _).bind fun next later reached grows _ covers => ih ?_ ?_
      · rw [List.reverse_cons]
        exact (joined.mono fun _ _ _ => .grow grows).snoc covers
      · have lt := covers.choose_spec.2.lt
        omega

end

end Grammar

open Grammar

/-- The nodes of a parsed tree cover tokens, and its statements cover all tokens up to the first that ends the
program. -/
theorem parse_spreads {tokens : List Token} {tree : Tree} (parsed : parse tokens = .ok tree) :
    ∃ count, tree.Spread (Parser.start tokens).tokens ∧
      Joined (tree.StmtCovers (Parser.start tokens).tokens) 0 count tree.body ∧
      (Parser.start tokens).tokens[count]?.map (·.kind) = some .eof := by
  obtain ⟨after, done⟩ := parse_eq_ok.mp parsed
  have start : (Parser.start tokens).At (Parser.start tokens).tokens 0 := by
    refine ⟨rfl, ended_start tokens, nofun, ?_⟩
    rw [tree_start]
    exact .empty
  obtain ⟨body, later, run, same⟩ := Parse.bind_eq_ok.mp (show (statementsFrom _ _ [] >>= _) _ = _ from done)
  cases same
  have none :
      Joined ((Parser.start tokens).tree.StmtCovers (Parser.start tokens).tokens) 0 0 ([] : List StmtId).reverse :=
    .nil
  have walks := statementsFrom_walks ((Parser.start tokens).following.length + 1)
    ((Parser.start tokens).following.length + 1) none (by simp [Parser.tokens])
  obtain ⟨count, _, finished, _, joined, ends⟩ := walks _ start (.refl _) _ _ run
  exact ⟨count, ⟨finished.spread.exprs, finished.spread.stmts⟩, joined, ends⟩

end MatrixScript
