import MatrixScript.Proofs.Grammar.Ownership
import MatrixScript.Proofs.Grammar.Soundness.Expression

/-! The tokens that a node covers.

A node is made where the parser has just left its last token, and its span goes from the start of one token to the end
of another. The tokens of a stream are counted from its first, and a node covers a stretch of them. The children of a
node cover parts of its stretch that follow one another; what lies between them are the marks and words of the node, and
the parentheses around its children.
-/

set_option autoImplicit false

namespace MatrixScript

/-- From the start of token `lo` to the end of the token before token `hi`, which the stream has. -/
structure Span.Covers (span : Span) (stream : List Token) (lo hi : Nat) : Prop where
  lt : lo < hi
  inside : hi < stream.length
  start : stream[lo]?.map (·.span.start) = some span.start
  stop : stream[hi - 1]?.map (·.span.stop) = some span.stop

namespace Grammar

section

variable {ι : Type}

/-- What lies one behind the other between two places, with gaps. -/
inductive Laid (covers : Nat → Nat → ι → Prop) : Nat → Nat → List ι → Prop where
  | nil {lo hi : Nat} : lo ≤ hi → Laid covers lo hi []
  | cons {lo first last hi : Nat} {id : ι} {ids : List ι} :
      lo ≤ first → covers first last id → Laid covers last hi ids → Laid covers lo hi (id :: ids)

/-- What lies one behind the other between two places, without gaps. -/
inductive Joined (covers : Nat → Nat → ι → Prop) : Nat → Nat → List ι → Prop where
  | nil {place : Nat} : Joined covers place place []
  | cons {lo mid hi : Nat} {id : ι} {ids : List ι} :
      covers lo mid id → Joined covers mid hi ids → Joined covers lo hi (id :: ids)

variable {covers covers' : Nat → Nat → ι → Prop} {lo lo' mid hi hi' : Nat} {id : ι} {ids : List ι}

namespace Laid

theorem mono (laid : Laid covers lo hi ids) (each : ∀ first last id, covers first last id → covers' first last id) :
    Laid covers' lo hi ids := by
  induction laid with
  | nil le => exact .nil le
  | cons le item _ ih => exact .cons le (each _ _ _ item) ih

theorem lower (laid : Laid covers lo hi ids) (le : lo' ≤ lo) : Laid covers lo' hi ids := by
  cases laid with
  | nil le' => exact .nil (Nat.le_trans le le')
  | cons le' item rest => exact .cons (Nat.le_trans le le') item rest

theorem raise (laid : Laid covers lo hi ids) (le : hi ≤ hi') : Laid covers lo hi' ids := by
  induction laid with
  | nil le' => exact .nil (Nat.le_trans le' le)
  | cons le' item _ ih => exact .cons le' item (ih le)

theorem single {first last : Nat} (le : lo ≤ first) (item : covers first last id) (le' : last ≤ hi) :
    Laid covers lo hi [id] :=
  .cons le item (.nil le')

theorem snoc {first last : Nat} (laid : Laid covers lo first ids) (item : covers first last id) :
    Laid covers lo last (ids ++ [id]) := by
  generalize place : first = mid at laid
  induction laid with
  | nil le => exact .single le (place ▸ item) (Nat.le_refl _)
  | cons le' next _ ih => exact .cons le' next (ih place)

end Laid

namespace Joined

theorem mono (joined : Joined covers lo hi ids) (each : ∀ first last id, covers first last id → covers' first last id) :
    Joined covers' lo hi ids := by
  induction joined with
  | nil => exact .nil
  | cons item _ ih => exact .cons (each _ _ _ item) ih

theorem snoc (joined : Joined covers lo mid ids) (item : covers mid hi id) : Joined covers lo hi (ids ++ [id]) := by
  induction joined with
  | nil => exact .cons item .nil
  | cons next _ ih => exact .cons next (ih item)

end Joined

end

end Grammar

open Grammar

namespace Tree

variable (tree : Tree) (stream : List Token)

def ExprCovers (lo hi : Nat) (id : ExprId) : Prop :=
  ∃ expr, tree.expr? id = some expr ∧ expr.span.Covers stream lo hi

def StmtCovers (lo hi : Nat) (id : StmtId) : Prop :=
  ∃ stmt, tree.stmt? id = some stmt ∧ stmt.span.Covers stream lo hi

/-- Every node covers tokens, and its children cover some of these one after the other. -/
structure Spread : Prop where
  exprs : ∀ id expr, tree.expr? id = some expr → ∃ lo hi, expr.span.Covers stream lo hi ∧
    Laid (tree.ExprCovers stream) lo hi expr.kind.children
  stmts : ∀ id stmt, tree.stmt? id = some stmt → ∃ lo mid hi, stmt.span.Covers stream lo hi ∧
    Laid (tree.ExprCovers stream) lo mid stmt.kind.exprs ∧ Laid (tree.StmtCovers stream) mid hi stmt.kind.bodies

variable {tree stream}

theorem ExprCovers.grow {later : Tree} (grows : tree.Grows later) {lo hi : Nat} {id : ExprId}
    (covers : tree.ExprCovers stream lo hi id) : later.ExprCovers stream lo hi id := by
  obtain ⟨expr, found, covers⟩ := covers
  exact ⟨expr, grows.exprs id expr found, covers⟩

theorem StmtCovers.grow {later : Tree} (grows : tree.Grows later) {lo hi : Nat} {id : StmtId}
    (covers : tree.StmtCovers stream lo hi id) : later.StmtCovers stream lo hi id := by
  obtain ⟨stmt, found, covers⟩ := covers
  exact ⟨stmt, grows.stmts id stmt found, covers⟩

theorem Spread.empty : ({} : Tree).Spread stream where
  exprs _ _ found := by simp [expr?] at found
  stmts _ _ found := by simp [stmt?] at found

theorem Spread.kept {later : Tree} (spread : tree.Spread stream) (grows : tree.Grows later) :
    (∀ id expr, tree.expr? id = some expr → ∃ lo hi, expr.span.Covers stream lo hi ∧
      Laid (later.ExprCovers stream) lo hi expr.kind.children) ∧
    (∀ id stmt, tree.stmt? id = some stmt → ∃ lo mid hi, stmt.span.Covers stream lo hi ∧
      Laid (later.ExprCovers stream) lo mid stmt.kind.exprs ∧
      Laid (later.StmtCovers stream) mid hi stmt.kind.bodies) := by
  constructor
  · intro id expr found
    obtain ⟨lo, hi, covers, laid⟩ := spread.exprs id expr found
    exact ⟨lo, hi, covers, laid.mono fun _ _ _ => .grow grows⟩
  · intro id stmt found
    obtain ⟨lo, mid, hi, covers, laid, laid'⟩ := spread.stmts id stmt found
    exact ⟨lo, mid, hi, covers, laid.mono fun _ _ _ => .grow grows, laid'.mono fun _ _ _ => .grow grows⟩

theorem Spread.addExpr (spread : tree.Spread stream) {kind : ExprKind} {span : Span} {lo hi : Nat}
    (covers : span.Covers stream lo hi) (laid : Laid (tree.ExprCovers stream) lo hi kind.children) :
    (tree.addExpr kind span).2.Spread stream where
  exprs id expr found := by
    have grows := Grows.addExpr tree kind span
    simp only [Tree.expr?, Tree.addExpr, Array.getElem?_push] at found
    split at found
    · cases found
      exact ⟨lo, hi, covers, laid.mono fun _ _ _ => .grow grows⟩
    · exact (spread.kept grows).1 id expr found
  stmts := (spread.kept (.addExpr tree kind span)).2

theorem Spread.addStmt (spread : tree.Spread stream) {kind : StmtKind} {span : Span} {lo mid hi : Nat}
    (covers : span.Covers stream lo hi) (laid : Laid (tree.ExprCovers stream) lo mid kind.exprs)
    (laid' : Laid (tree.StmtCovers stream) mid hi kind.bodies) : (tree.addStmt kind span).2.Spread stream where
  exprs := (spread.kept (.addStmt tree kind span)).1
  stmts id stmt found := by
    have grows := Grows.addStmt tree kind span
    simp only [Tree.stmt?, Tree.addStmt, Array.getElem?_push] at found
    split at found
    · cases found
      exact ⟨lo, mid, hi, covers, laid.mono fun _ _ _ => .grow grows, laid'.mono fun _ _ _ => .grow grows⟩
    · exact (spread.kept grows).2 id stmt found

end Tree

/-- A parser has left the first tokens of a stream, as many as its place, and knows where the last of them ends. -/
structure Parser.At (parser : Parser) (stream : List Token) (place : Nat) : Prop where
  tokens : parser.tokens = stream.drop place
  ended : Ended parser.tokens
  left : ∀ before, place = before + 1 → stream[before]?.map (·.span.stop) = parser.left?
  spread : parser.tree.Spread stream

namespace Parser.At

variable {parser : Parser} {stream : List Token} {place : Nat}

theorem current (at' : parser.At stream place) : stream[place]? = some parser.current := by
  have first : (stream.drop place)[0]? = some parser.current := by
    rw [← at'.tokens]
    rfl
  rwa [List.getElem?_drop, Nat.add_zero] at first

theorem inside (at' : parser.At stream place) : place < stream.length := by
  obtain ⟨inside, _⟩ := List.getElem?_eq_some_iff.mp at'.current
  exact inside

theorem next (at' : parser.At stream place) (other : parser.current.kind ≠ .eof) :
    parser.next.At stream (place + 1) := by
  have following : parser.following = stream.drop (place + 1) := by
    rw [← List.tail_drop, ← at'.tokens]
    rfl
  have ended := at'.ended
  generalize given : parser.tokens = tokens at ended
  cases ended with
  | last kind => exact absurd (by rw [Parser.current_of_tokens given]; exact kind) other
  | more ended =>
    have tokens := Parser.tokens_next given ended.ne_nil
    have behind := Parser.following_of_tokens given
    constructor
    case tokens => rw [tokens, ← behind, following]
    case ended => rwa [tokens]
    case left =>
      intro before same
      obtain rfl : place = before := Nat.succ.inj same
      rw [at'.current]
      unfold Parser.next
      cases rest : parser.following with
      | nil => exact absurd (behind.symm.trans rest) ended.ne_nil
      | cons token others => rfl
    case spread =>
      rw [Parser.tree_next]
      exact at'.spread

theorem covers (at' : parser.At stream place) {start : Position} {lo : Nat}
    (started : stream[lo]?.map (·.span.start) = some start) (lt : lo < place) :
    Span.Covers ⟨start, parser.previousEnd⟩ stream lo place := by
  obtain ⟨before, rfl⟩ : ∃ before, place = before + 1 := ⟨place - 1, by omega⟩
  have inside := at'.inside
  have left := at'.left before rfl
  rw [List.getElem?_eq_getElem (by omega), Option.map_some] at left
  refine ⟨lt, inside, started, ?_⟩
  show stream[before]?.map _ = some (parser.left?.getD _)
  rw [← left, List.getElem?_eq_getElem (by omega)]
  rfl

end Parser.At

namespace Grammar

open Parse

variable {α β : Type}

/-- A production that succeeds at a place, with a tree grown from `base`, gets to a place that is no earlier. -/
def Walks (stream : List Token) (base : Tree) (place : Nat) (action : Parse α) (after : α → Tree → Nat → Prop) : Prop :=
  ∀ parser : Parser, parser.At stream place → base.Grows parser.tree → ∀ value later, action parser = .ok value later →
    ∃ reached, place ≤ reached ∧ later.At stream reached ∧ parser.tree.Grows later.tree ∧
      after value later.tree reached

abbrev Delivers (stream : List Token) (base : Tree) (place : Nat) (action : Parse ExprId) : Prop :=
  Walks stream base place action fun id tree reached =>
    ∃ lo hi, place ≤ lo ∧ hi ≤ reached ∧ tree.ExprCovers stream lo hi id

abbrev Makes (stream : List Token) (base : Tree) (place : Nat) (action : Parse StmtId) : Prop :=
  Walks stream base place action fun id tree reached => tree.StmtCovers stream place reached id

namespace Walks

variable {stream : List Token} {base : Tree} {place : Nat} {action : Parse α} {after after' : α → Tree → Nat → Prop}
  {last : β → Tree → Nat → Prop}

theorem pure {value : α} (known : ∀ tree, base.Grows tree → after value tree place) :
    Walks stream base place (Pure.pure value) after := by
  intro parser here grows _ _ done
  cases done
  exact ⟨place, Nat.le_refl _, here, .refl _, known _ grows⟩

theorem bind {next : α → Parse β} (first : Walks stream base place action after)
    (second : ∀ value later reached, base.Grows later → place ≤ reached → after value later reached →
      Walks stream later reached (next value) last) : Walks stream base place (action >>= next) last := by
  intro parser here grows value later done
  obtain ⟨between, middle, begun, ended⟩ := bind_eq_ok.mp done
  obtain ⟨reached, le, here', grown, known⟩ := first parser here grows _ _ begun
  obtain ⟨finish, le', here'', grown', known'⟩ :=
    second between middle.tree reached (grows.trans grown) le known middle here' (.refl _) _ _ ended
  exact ⟨finish, Nat.le_trans le le', here'', grown.trans grown', known'⟩

theorem weaken (walks : Walks stream base place action after)
    (known : ∀ value tree reached, base.Grows tree → after value tree reached → after' value tree reached) :
    Walks stream base place action after' := by
  intro parser here grows value later done
  obtain ⟨reached, le, here', grown, held⟩ := walks parser here grows _ _ done
  exact ⟨reached, le, here', grown, known _ _ _ (grows.trans grown) held⟩

theorem fails (refused : ∀ parser, ∃ failure later, action parser = .error failure later) :
    Walks stream base place action after := by
  intro parser _ _ _ _ done
  obtain ⟨_, _, failed⟩ := refused parser
  rw [failed] at done
  cases done

theorem look {value : Parser → α} {next : α → Parse β}
    (second : ∀ parser : Parser, parser.At stream place → base.Grows parser.tree →
      Walks stream base place (next (value parser)) last) :
    Walks stream base place ((do return value (← get)) >>= next) last :=
  fun parser here grows => second parser here grows parser here grows

theorem peek {next : Kind → Parse β} (second : ∀ kind, stream[place]?.map (·.kind) = some kind →
    Walks stream base place (next kind) last) : Walks stream base place (Parse.peek >>= next) last := by
  apply look
  intro parser here _
  apply second
  rw [here.current]
  rfl

theorem here {next : Position → Parse β} (second : ∀ start, stream[place]?.map (·.span.start) = some start →
    Walks stream base place (next start) last) : Walks stream base place (Parse.here >>= next) last := by
  apply look
  intro parser here _
  apply second
  rw [here.current]
  rfl

theorem advance {kind : Kind} (known : stream[place]?.map (·.kind) = some kind) (other : kind ≠ .eof)
    {next : Token → Parse β} (second : ∀ token, stream[place]?.map (·.span.start) = some token.span.start →
      Walks stream base (place + 1) (next token) last) : Walks stream base place (Parse.advance >>= next) last := by
  intro parser here grows value later done
  rw [bind_apply, advance_apply] at done
  rw [here.current] at known
  obtain rfl : parser.current.kind = kind := Option.some.inj known
  have here' := here.next other
  have started : stream[place]?.map (·.span.start) = some parser.current.span.start := by
    rw [here.current]
    rfl
  rw [← Parser.tree_next] at grows
  obtain ⟨reached, le, here'', grown, held⟩ := second _ started _ here' grows _ _ done
  rw [Parser.tree_next] at grown
  exact ⟨reached, by omega, here'', grown, held⟩

theorem expect (kind : Kind) (other : kind ≠ .eof) {next : Token → Parse β}
    (second : ∀ token, stream[place]?.map (·.span.start) = some token.span.start →
      Walks stream base (place + 1) (next token) last) :
    Walks stream base place (Parse.expect kind >>= next) last := by
  intro parser here grows value later done
  by_cases same : parser.current.kind = kind
  · have known : stream[place]?.map (·.kind) = some kind := by
      rw [here.current, ← same]
      rfl
    refine advance known other second parser here grows value later ?_
    rw [bind_apply, expect_apply, if_pos same] at done
    exact done
  · rw [bind_apply, expect_apply, if_neg same] at done
    cases done

theorem exprSpan {id : ExprId} {lo hi : Nat} (known : base.ExprCovers stream lo hi id) {next : Span → Parse β}
    (second : ∀ span : Span, span.Covers stream lo hi → Walks stream base place (next span) last) :
    Walks stream base place (Parse.exprSpan id >>= next) last := by
  apply look
  intro parser here grows
  obtain ⟨expr, found, covers⟩ := known.grow grows
  apply second
  rw [Tree.exprSpan, found]
  exact covers

theorem kind? {id : ExprId} {next : Option ExprKind → Parse β}
    (second : ∀ kind, Walks stream base place (next kind) last) :
    Walks stream base place (Parse.kind? id >>= next) last :=
  look fun _ _ _ => second _

theorem addExpr {kind : ExprKind} {span : Span} {lo hi : Nat} (covers : span.Covers stream lo hi)
    (laid : Laid (base.ExprCovers stream) lo hi kind.children) :
    Walks stream base place (Parse.addExpr kind span) fun id tree reached =>
      reached = place ∧ tree.ExprCovers stream lo hi id := by
  intro parser here grows value later done
  cases done
  have spread := here.spread.addExpr covers (laid.mono fun _ _ _ => .grow grows)
  refine ⟨place, Nat.le_refl _, ⟨here.tokens, here.ended, here.left, spread⟩, .addExpr _ _ _, rfl, ⟨kind, span⟩, ?_,
    covers⟩
  simp [Tree.expr?]

theorem addExprFrom {kind : ExprKind} {start : Position} {lo : Nat}
    (started : stream[lo]?.map (·.span.start) = some start) (lt : lo < place)
    (laid : Laid (base.ExprCovers stream) lo place kind.children) :
    Walks stream base place (do Parse.addExpr kind (← Parse.spanFrom start)) fun id tree reached =>
      reached = place ∧ tree.ExprCovers stream lo place id :=
  look fun _ here _ => addExpr (here.covers started lt) laid

theorem addStmtFrom {kind : StmtKind} {start : Position} {lo : Nat} (mid : Nat)
    (started : stream[lo]?.map (·.span.start) = some start) (lt : lo < place)
    (laid : Laid (base.ExprCovers stream) lo mid kind.exprs)
    (laid' : Laid (base.StmtCovers stream) mid place kind.bodies) :
    Walks stream base place (do Parse.addStmt kind (← Parse.spanFrom start)) fun id tree reached =>
      tree.StmtCovers stream lo reached id := by
  apply look
  intro parser here grows other here' grows' value later done
  cases done
  have covers := here.covers started lt
  have spread := here'.spread.addStmt covers (laid.mono fun _ _ _ => .grow grows')
    (laid'.mono fun _ _ _ => .grow grows')
  refine ⟨place, Nat.le_refl _, ⟨here'.tokens, here'.ended, here'.left, spread⟩, .addStmt _ _ _, ⟨kind, _⟩, ?_, covers⟩
  simp [Tree.stmt?]

end Walks

end Grammar

end MatrixScript
