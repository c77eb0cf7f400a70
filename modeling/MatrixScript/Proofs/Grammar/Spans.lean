import MatrixScript.Proofs.Grammar.Coverage.Productions
import MatrixScript.Proofs.Grammar.Lawful
import MatrixScript.Proofs.Typing.Source

/-! Spans nest.

The tokens of a source lie one behind the other, so what a node covers among them says all about its span: a child lies
within its parent, and siblings in front of each other.
-/

set_option autoImplicit false

namespace MatrixScript

namespace Span

def Within (inner outer : Span) : Prop :=
  outer.start.offset ≤ inner.start.offset ∧ inner.stop.offset ≤ outer.stop.offset

def Before (first second : Span) : Prop := first.stop.offset ≤ second.start.offset

/-- Not empty, from the start of a token to the end of a token. -/
structure Spelled (span : Span) (tokens : List Token) : Prop where
  filled : span.start.offset < span.stop.offset
  start : ∃ token ∈ tokens, token.span.start = span.start
  stop : ∃ token ∈ tokens, token.span.stop = span.stop

def Holds (outer : Span) (inner : List Span) : Prop :=
  (∀ span ∈ inner, span.Within outer) ∧ inner.Pairwise Before

end Span

namespace Tree

variable (tree : Tree)

def exprSpan? (id : ExprId) : Option Span := (tree.expr? id).map (·.span)

def stmtSpan? (id : StmtId) : Option Span := (tree.stmt? id).map (·.span)

def HasExprSpan (id : ExprId) (span : Span) : Prop := tree.exprSpan? id = some span

def HasStmtSpan (id : StmtId) (span : Span) : Prop := tree.stmtSpan? id = some span

/-- Every node goes from token to token and holds its children in their order, and so does the program. -/
structure SpansNest (tokens : List Token) : Prop where
  exprs : ∀ id expr, tree.expr? id = some expr → expr.span.Spelled tokens ∧
    ∃ inner, List.Forall₂ tree.HasExprSpan expr.kind.children inner ∧ expr.span.Holds inner
  stmts : ∀ id stmt, tree.stmt? id = some stmt → stmt.span.Spelled tokens ∧
    ∃ first rest, List.Forall₂ tree.HasExprSpan stmt.kind.exprs first ∧
      List.Forall₂ tree.HasStmtSpan stmt.kind.bodies rest ∧ stmt.span.Holds (first ++ rest)
  body : ∃ spans, List.Forall₂ tree.HasStmtSpan tree.body spans ∧ spans.Pairwise Span.Before ∧
    ∀ token ∈ tokens, token.kind ≠ .eof → ∃ span ∈ spans, token.span.Within span

end Tree

/-- Tokens that lie one behind the other, of which only the last may be empty. It ends the program. -/
structure Tidy (stream : List Token) : Prop where
  ordered : ∀ (i j : Nat) (first second : Token), stream[i]? = some first → stream[j]? = some second → i < j →
    first.span.stop.offset ≤ second.span.start.offset
  filled : ∀ (i : Nat) (token : Token), stream[i]? = some token → i + 1 < stream.length →
    token.span.start.offset < token.span.stop.offset
  ends : ∀ (i : Nat) (token : Token), stream[i]? = some token → token.kind = .eof → i + 1 = stream.length

section

variable {stream : List Token} (tidy : Tidy stream)
include tidy

theorem Tidy.starts_le {i j : Nat} {first second : Token} (one : stream[i]? = some first)
    (two : stream[j]? = some second) (le : i ≤ j) : first.span.start.offset ≤ second.span.start.offset := by
  rcases Nat.lt_or_eq_of_le le with lt | rfl
  · obtain ⟨inside, _⟩ := List.getElem?_eq_some_iff.mp two
    have filled := tidy.filled i first one (by omega)
    have ordered := tidy.ordered i j first second one two lt
    omega
  · cases one.symm.trans two
    exact Nat.le_refl _

theorem Tidy.stops_le {i j : Nat} {first second : Token} (one : stream[i]? = some first)
    (two : stream[j]? = some second) (le : i ≤ j) (inside : j + 1 < stream.length) :
    first.span.stop.offset ≤ second.span.stop.offset := by
  rcases Nat.lt_or_eq_of_le le with lt | rfl
  · have filled := tidy.filled j second two inside
    have ordered := tidy.ordered i j first second one two lt
    omega
  · cases one.symm.trans two
    exact Nat.le_refl _

namespace Span.Covers

variable {span : Span} {lo hi : Nat}

omit tidy in
theorem edges (covers : span.Covers stream lo hi) : ∃ first last, stream[lo]? = some first ∧
    stream[hi - 1]? = some last ∧ first.span.start = span.start ∧ last.span.stop = span.stop := by
  obtain ⟨first, one, start⟩ := Option.map_eq_some_iff.mp covers.start
  obtain ⟨last, two, stop⟩ := Option.map_eq_some_iff.mp covers.stop
  exact ⟨first, last, one, two, start, stop⟩

theorem spelled (covers : span.Covers stream lo hi) : span.Spelled stream := by
  obtain ⟨first, last, one, two, start, stop⟩ := covers.edges
  have lt := covers.lt
  have inside := covers.inside
  refine ⟨?_, ⟨first, List.mem_of_getElem? one, start⟩, ⟨last, List.mem_of_getElem? two, stop⟩⟩
  rw [← start, ← stop]
  exact Nat.lt_of_lt_of_le (tidy.filled lo first one (by omega)) (tidy.stops_le one two (by omega) (by omega))

theorem before {other : Span} {lo' hi' : Nat} (covers : span.Covers stream lo hi)
    (covers' : other.Covers stream lo' hi') (le : hi ≤ lo') : span.Before other := by
  obtain ⟨_, last, _, one, _, stop⟩ := covers.edges
  obtain ⟨first, _, two, _, start, _⟩ := covers'.edges
  have lt := covers.lt
  unfold Span.Before
  rw [← stop, ← start]
  exact tidy.ordered _ _ last first one two (by omega)

theorem within {outer : Span} {lo' hi' : Nat} (covers : span.Covers stream lo hi)
    (covers' : outer.Covers stream lo' hi') (le : lo' ≤ lo) (le' : hi ≤ hi') : span.Within outer := by
  obtain ⟨first, last, one, two, start, stop⟩ := covers.edges
  obtain ⟨first', last', one', two', start', stop'⟩ := covers'.edges
  have lt := covers.lt
  have inside := covers'.inside
  unfold Span.Within
  rw [← start, ← stop, ← start', ← stop']
  exact ⟨tidy.starts_le one' one le, tidy.stops_le two two' (by omega) (by omega)⟩

theorem token {i : Nat} {token : Token} (found : stream[i]? = some token) (covers : span.Covers stream lo hi)
    (le : lo ≤ i) (lt : i < hi) : token.span.Within span := by
  obtain ⟨first, last, one, two, start, stop⟩ := covers.edges
  have inside := covers.inside
  unfold Span.Within
  rw [← start, ← stop]
  exact ⟨tidy.starts_le one found le, tidy.stops_le found two (by omega) (by omega)⟩

end Span.Covers

end

def Arranged (stream : List Token) (lo hi : Nat) (spans : List Span) : Prop :=
  (∀ span ∈ spans, ∃ first last, lo ≤ first ∧ last ≤ hi ∧ span.Covers stream first last) ∧ spans.Pairwise Span.Before

namespace Grammar

section

variable {ι : Type} {stream : List Token} (tidy : Tidy stream) {has : ι → Span → Prop} {lo mid hi : Nat} {ids : List ι}
include tidy

theorem Laid.arranged (laid : Laid (fun lo hi id => ∃ span, has id span ∧ span.Covers stream lo hi) lo hi ids) :
    lo ≤ hi ∧ ∃ spans, List.Forall₂ has ids spans ∧ Arranged stream lo hi spans := by
  induction laid with
  | nil le => exact ⟨le, [], .nil, nofun, .nil⟩
  | @cons lo first last hi id ids le item rest ih =>
    obtain ⟨span, known, covers⟩ := item
    obtain ⟨le', spans, all, inside, ordered⟩ := ih
    have lt := covers.lt
    refine ⟨by omega, span :: spans, .cons known all, ?_, ?_⟩
    · intro other member
      rcases List.mem_cons.mp member with rfl | member
      · exact ⟨first, last, le, le', covers⟩
      · obtain ⟨lo', hi', above, below, covers'⟩ := inside other member
        exact ⟨lo', hi', by omega, below, covers'⟩
    · apply List.Pairwise.cons _ ordered
      intro other member
      obtain ⟨lo', hi', above, below, covers'⟩ := inside other member
      exact covers.before tidy covers' above

theorem Arranged.append {front back : List Span} (first : Arranged stream lo mid front)
    (second : Arranged stream mid hi back) (le : lo ≤ mid) (le' : mid ≤ hi) :
    Arranged stream lo hi (front ++ back) := by
  obtain ⟨inside, ordered⟩ := first
  obtain ⟨inside', ordered'⟩ := second
  refine ⟨?_, List.pairwise_append.mpr ⟨ordered, ordered', ?_⟩⟩
  · intro span member
    rcases List.mem_append.mp member with member | member
    · obtain ⟨lo', hi', above, below, covers⟩ := inside span member
      exact ⟨lo', hi', above, by omega, covers⟩
    · obtain ⟨lo', hi', above, below, covers⟩ := inside' span member
      exact ⟨lo', hi', by omega, below, covers⟩
  · intro span member other member'
    obtain ⟨_, _, _, below, covers⟩ := inside span member
    obtain ⟨_, _, above, _, covers'⟩ := inside' other member'
    exact covers.before tidy covers' (Nat.le_trans below above)

theorem Arranged.holds {outer : Span} {spans : List Span} (arranged : Arranged stream lo hi spans)
    (covers : outer.Covers stream lo hi) : outer.Holds spans := by
  refine ⟨?_, arranged.2⟩
  intro span member
  obtain ⟨_, _, above, below, inner⟩ := arranged.1 span member
  exact inner.within tidy covers above below

/-- Where spans join, every token between is covered by one of them. -/
theorem Joined.arranged (joined : Joined (fun lo hi id => ∃ span, has id span ∧ span.Covers stream lo hi) lo hi ids) :
    lo ≤ hi ∧ ∃ spans, List.Forall₂ has ids spans ∧ Arranged stream lo hi spans ∧
      ∀ i token, lo ≤ i → i < hi → stream[i]? = some token → ∃ span ∈ spans, token.span.Within span := by
  induction joined with
  | nil => exact ⟨Nat.le_refl _, [], .nil, ⟨nofun, .nil⟩, fun i _ above below => absurd below (by omega)⟩
  | @cons lo mid hi id ids item rest ih =>
    obtain ⟨span, known, covers⟩ := item
    obtain ⟨le, spans, all, arranged, filled⟩ := ih
    have lt := covers.lt
    have single : Arranged stream lo mid [span] := by
      refine ⟨?_, List.pairwise_singleton _ _⟩
      intro other member
      rw [List.mem_singleton.mp member]
      exact ⟨lo, mid, Nat.le_refl _, Nat.le_refl _, covers⟩
    refine ⟨by omega, span :: spans, .cons known all, Arranged.append tidy single arranged (by omega) le, ?_⟩
    intro i token above below found
    by_cases earlier : i < mid
    · exact ⟨span, List.mem_cons_self, covers.token tidy found above earlier⟩
    · obtain ⟨other, member, within⟩ := filled i token (by omega) below found
      exact ⟨other, List.mem_cons_of_mem _ member, within⟩

end

end Grammar

open Grammar

section

variable {tree : Tree} {stream : List Token} {lo hi : Nat}

theorem Tree.ExprCovers.span {id : ExprId} (covers : tree.ExprCovers stream lo hi id) :
    ∃ span, tree.HasExprSpan id span ∧ span.Covers stream lo hi := by
  obtain ⟨expr, found, covers⟩ := covers
  exact ⟨expr.span, congrArg _ found, covers⟩

theorem Tree.StmtCovers.span {id : StmtId} (covers : tree.StmtCovers stream lo hi id) :
    ∃ span, tree.HasStmtSpan id span ∧ span.Covers stream lo hi := by
  obtain ⟨stmt, found, covers⟩ := covers
  exact ⟨stmt.span, congrArg _ found, covers⟩

end

theorem scan_tidy {source : String} {tokens : List Token} (scanned : scan source = .ok tokens) : Tidy tokens := by
  obtain ⟨body, rfl, tiles⟩ := tokens_of_scan scanned
  -- a token is in front of the end token, or it is the end token
  have inFront {i : Nat} {token : Token} (found : (body ++ [Token.atEnd (placeAfter source.toList)])[i]? = some token) :
      (i < body.length ∧ body[i]? = some token) ∨
        (i = body.length ∧ token = Token.atEnd (placeAfter source.toList)) := by
    rw [List.getElem?_append] at found
    split at found
    · next inside => exact .inl ⟨inside, found⟩
    · next outside =>
      rw [List.getElem?_singleton] at found
      split at found
      · cases found
        exact .inr ⟨by omega, rfl⟩
      · cases found
  constructor
  case ordered =>
    intro i j first second one two lt
    rcases inFront one with ⟨inside, one⟩ | ⟨rfl, _⟩
    · rcases inFront two with ⟨inside', two⟩ | ⟨_, rfl⟩
      · obtain ⟨_, rfl⟩ := List.getElem?_eq_some_iff.mp one
        obtain ⟨_, rfl⟩ := List.getElem?_eq_some_iff.mp two
        exact List.pairwise_iff_getElem.mp tiles.ordered i j inside inside' lt
      · exact (tiles.within first (List.mem_of_getElem? one)).2
    · obtain ⟨inside, _⟩ := List.getElem?_eq_some_iff.mp two
      rw [List.length_append, List.length_singleton] at inside
      omega
  case filled =>
    intro i token found inside
    rw [List.length_append, List.length_singleton] at inside
    rcases inFront found with ⟨_, found⟩ | ⟨rfl, _⟩
    · exact tiles.filled token (List.mem_of_getElem? found)
    · omega
  case ends =>
    intro i token found isEnd
    rcases inFront found with ⟨_, found⟩ | ⟨rfl, _⟩
    · obtain ⟨lexeme, _, _, written⟩ := tiles.written token (List.mem_of_getElem? found)
      rw [isEnd] at written
      exact absurd written Lexeme.not_eof
    · rw [List.length_append, List.length_singleton]

/-- Spans nest. Every node of a source starts where a token starts, ends where a token ends and is not empty. Its
children lie within it, each of them before the next one. The statements of the program lie before one another as well,
and no token but the last is outside of them. -/
theorem spans_nest {source : String} {tokens : List Token} {tree : Tree} (scanned : scan source = .ok tokens)
    (parsed : parse tokens = .ok tree) : tree.SpansNest tokens := by
  have tidy := scan_tidy scanned
  obtain ⟨count, spread, joined, ends⟩ := parse_spreads parsed
  rw [start_of_scan scanned] at spread joined ends
  constructor
  case exprs =>
    intro id expr found
    obtain ⟨lo, hi, covers, laid⟩ := spread.exprs id expr found
    obtain ⟨_, spans, all, arranged⟩ := (laid.mono fun _ _ _ => Tree.ExprCovers.span).arranged tidy
    exact ⟨covers.spelled tidy, spans, all, Arranged.holds tidy arranged covers⟩
  case stmts =>
    intro id stmt found
    obtain ⟨lo, mid, hi, covers, laid, laid'⟩ := spread.stmts id stmt found
    obtain ⟨le, first, all, arranged⟩ := (laid.mono fun _ _ _ => Tree.ExprCovers.span).arranged tidy
    obtain ⟨le', rest, all', arranged'⟩ := (laid'.mono fun _ _ _ => Tree.StmtCovers.span).arranged tidy
    have whole := Arranged.append tidy arranged arranged' le le'
    exact ⟨covers.spelled tidy, first, rest, all, all', Arranged.holds tidy whole covers⟩
  case body =>
    obtain ⟨_, spans, all, arranged, filled⟩ := (joined.mono fun _ _ _ => Tree.StmtCovers.span).arranged tidy
    refine ⟨spans, all, arranged.2, ?_⟩
    intro token member other
    obtain ⟨i, found⟩ := List.mem_iff_getElem?.mp member
    obtain ⟨last, at', isEnd⟩ := Option.map_eq_some_iff.mp ends
    have whole := tidy.ends count last at' isEnd
    obtain ⟨inside, _⟩ := List.getElem?_eq_some_iff.mp found
    refine filled i token (Nat.zero_le _) ?_ found
    -- only the end token is not in front of the end
    rcases Nat.lt_or_eq_of_le (show i ≤ count by omega) with lt | rfl
    · exact lt
    · cases at'.symm.trans found
      exact absurd isEnd other

/-- A sum that is transposed together with its parentheses: the transposition starts where the sum does, behind the
first of them, and ends behind the second. -/
theorem parenthesised_spans_nest :
    ∃ tokens tree, scan "m[(0) : 2] = (a + b)'; print m;" = .ok tokens ∧ parse tokens = .ok tree ∧
      tree.HasExprSpan ⟨7⟩ ⟨⟨14, 1⟩, ⟨19, 1⟩⟩ ∧ tree.HasExprSpan ⟨8⟩ ⟨⟨14, 1⟩, ⟨21, 1⟩⟩ ∧ tree.SpansNest tokens := by
  have passes : (scan "m[(0) : 2] = (a + b)'; print m;").toOption.any fun tokens =>
      (parse tokens).toOption.any fun tree =>
        tree.exprSpan? ⟨7⟩ = some ⟨⟨14, 1⟩, ⟨19, 1⟩⟩ ∧ tree.exprSpan? ⟨8⟩ = some ⟨⟨14, 1⟩, ⟨21, 1⟩⟩ := by
    decide +kernel
  obtain ⟨tokens, scanned, passes⟩ := exists_ok passes
  obtain ⟨tree, parsed, passes⟩ := exists_ok passes
  obtain ⟨sum, transposed⟩ := of_decide_eq_true passes
  exact ⟨tokens, tree, scanned, parsed, sum, transposed, spans_nest scanned parsed⟩

end MatrixScript
