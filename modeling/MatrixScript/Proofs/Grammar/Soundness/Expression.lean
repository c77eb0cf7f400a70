import MatrixScript.Proofs.Grammar.Completeness.Expression

/-! Whatever expression is parsed is derived by the grammar.

A loop of continuations keeps the level of what has been read so far at the power of the next token or above, so
that the next token can always join it.
-/

set_option autoImplicit false

namespace MatrixScript.Grammar

open Parse

inductive Ended : List Token → Prop where
  | last {token : Token} : token.kind = .eof → Ended [token]
  | more {token : Token} {rest : List Token} : Ended rest → Ended (token :: rest)

theorem Ended.ne_nil {tokens : List Token} (ended : Ended tokens) : tokens ≠ [] := by
  cases ended <;> exact List.cons_ne_nil _ _

theorem Readable.append {left right : List Token} (first : Readable left) (second : Readable right) :
    Readable (left ++ right) := by
  intro token member
  rcases List.mem_append.mp member with member | member
  · exact first token member
  · exact second token member

/-- The parser has gone over the tokens `used`. -/
structure Takes (before after : Parser) (used : List Token) : Prop where
  tokens : before.tokens = used ++ after.tokens
  ended : Ended after.tokens
  readable : Readable used

namespace Takes

variable {first second third : Parser} {left right : List Token}

theorem trans (earlier : Takes first second left) (later : Takes second third right) :
    Takes first third (left ++ right) where
  tokens := by rw [earlier.tokens, later.tokens, List.append_assoc]
  ended := later.ended
  readable := earlier.readable.append later.readable

theorem following (takes : Takes first second left) :
    second.following.length + left.length = first.following.length := by
  have count := congrArg List.length takes.tokens
  simp only [Parser.length_tokens, List.length_append] at count
  omega

theorem next {parser : Parser} (ended : Ended parser.tokens) (other : parser.current.kind ≠ .eof)
    (readable : Readable [parser.current]) : Takes parser parser.next [parser.current] := by
  generalize stream : parser.tokens = tokens at ended
  cases ended with
  | last kind => exact absurd (by rw [Parser.current_of_tokens stream]; exact kind) other
  | more ended =>
    refine ⟨?_, ?_, readable⟩
    · rw [Parser.tokens_next stream ended.ne_nil, Parser.current_of_tokens stream]
      exact stream
    · rw [Parser.tokens_next stream ended.ne_nil]
      exact ended

theorem mark {parser : Parser} (ended : Ended parser.tokens) {kind : Kind} (same : parser.current.kind = kind)
    (other : kind ≠ .eof) (word : kind ≠ .int ∧ kind ≠ .float) : Takes parser parser.next [parser.current] := by
  subst same
  refine next ended other fun token member => ?_
  obtain rfl := List.mem_singleton.mp member
  exact ⟨fun isInt => absurd isInt word.1, fun isFloat => absurd isFloat word.2⟩

end Takes

theorem Ended.current {parser : Parser} (ended : Ended parser.tokens) (none : parser.following = []) :
    parser.current.kind = .eof := by
  generalize stream : parser.tokens = tokens at ended
  cases ended with
  | last kind => rw [Parser.current_of_tokens stream]; exact kind
  | more ended =>
    rw [Parser.following_of_tokens stream] at none
    exact absurd none ended.ne_nil

section

variable {α : Type}

/-- What an action takes is derived, when it may nest deeply enough. -/
def Sound (derives : List Token → α → Prop) (action : Parse ExprId) (limit : Nat) : Prop :=
  ∀ before id after, Ended before.tokens → before.following.length < limit → action before = .ok id after →
    ∃ used x, Takes before after used ∧ derives used x ∧ used ≠ []

inductive Trailing (derives : List Token → α → Prop) : List Token → List α → Prop where
  | none : Trailing derives [] []
  | some {comma : Token} {tokens : List Token} {xs : List α} :
      comma.kind = .comma → Listed derives tokens xs → Trailing derives (comma :: tokens) xs

theorem Trailing.listed {derives : List Token → α → Prop} {tokens rest : List Token} {x : α} {xs : List α}
    (first : derives tokens x) (trailing : Trailing derives rest xs) : Listed derives (tokens ++ rest) (x :: xs) := by
  cases trailing with
  | none =>
    rw [List.append_nil]
    exact .last first
  | some kind listed => exact .more first kind listed

variable {derives : List Token → α → Prop} {item : Parse ExprId} {limit : Nat}

theorem itemsAfter_sound (sound : Sound derives item limit) :
    ∀ (bound : Nat) (found ids : List ExprId) (before after : Parser), Ended before.tokens →
      before.following.length ≤ bound → before.following.length < limit →
      itemsAfter item bound found before = .ok ids after →
      ∃ used xs, Takes before after used ∧ Trailing derives used xs := by
  intro bound
  induction bound with
  | zero =>
    intro found ids before after ended _ _ parsed
    cases parsed
    exact ⟨[], [], ⟨rfl, ended, fun _ member => nomatch member⟩, .none⟩
  | succ bound ih =>
    intro found ids before after ended enough fits parsed
    by_cases comma : before.current.kind = .comma
    · rw [itemsAfter_comma item bound found comma] at parsed
      obtain ⟨id, middle, first, rest⟩ := bind_eq_ok.mp parsed
      have skipped := Takes.mark ended comma (by decide) (by decide)
      have := skipped.following
      simp only [List.length_singleton] at this
      obtain ⟨used, x, takes, derivation, _⟩ := sound _ _ _ skipped.ended (by omega) first
      have := takes.following
      obtain ⟨others, xs, takes', trailing⟩ := ih _ _ _ _ takes.ended (by omega) (by omega) rest
      have listed := trailing.listed derivation
      exact ⟨_, x :: xs, skipped.trans (takes.trans takes'), .some comma listed⟩
    · rw [itemsAfter_stop item _ found comma] at parsed
      cases parsed
      exact ⟨[], [], ⟨rfl, ended, fun _ member => nomatch member⟩, .none⟩

theorem listed_sound (sound : Sound derives item limit) {bound : Nat} {ids : List ExprId} {before after : Parser}
    (ended : Ended before.tokens) (enough : before.following.length ≤ bound + 1)
    (fits : before.following.length < limit)
    (parsed : (item >>= fun first => itemsAfter item bound [first]) before = .ok ids after) :
    ∃ used xs, Takes before after used ∧ Listed derives used xs := by
  obtain ⟨id, middle, first, rest⟩ := bind_eq_ok.mp parsed
  obtain ⟨used, x, takes, derivation, taken⟩ := sound _ _ _ ended fits first
  have := takes.following
  have := List.length_pos_iff.mpr taken
  obtain ⟨others, xs, takes', trailing⟩ :=
    itemsAfter_sound sound _ _ _ _ _ takes.ended (by omega) (by omega) rest
  exact ⟨_, _, takes.trans takes', trailing.listed derivation⟩

end

/-- Where the root of an expression is a name or a text, that is all there is to it but for parentheses. -/
def Linked (tree : Tree) (id : ExprId) (used : List Token) : Prop :=
  ∀ base : Base, tree.kind? id = some base.kind → Indexable used base

theorem Linked.ofOther {tree : Tree} {id : ExprId} {kind : ExprKind} (found : tree.kind? id = some kind)
    (other : ∀ base : Base, kind ≠ base.kind) (used : List Token) : Linked tree id used := by
  intro base same
  rw [found] at same
  exact absurd (Option.some.inj same) (other base)

/-- What is taken for an operand behind a token of a power is an expression of the level behind that power, and
nothing that binds more tightly follows. -/
def Operates (operand : Power → Parse ExprId) (limit : Nat) : Prop :=
  ∀ power before id after, power.rank ≤ Power.unary.rank → Ended before.tokens →
    before.following.length < limit → operand power before = .ok id after →
    ∃ used term, Takes before after used ∧ Expression (Level.behind power) used term ∧
      Loose power after.current.kind ∧ Linked after.tree id used

/-- A parser has read an expression of a level that the next token can join. -/
def Reads (before after : Parser) (id : ExprId) (level : Level) : Prop :=
  ∃ used term, Takes before after used ∧ Expression level used term ∧
    after.current.kind.power.rank ≤ level.rank ∧ Linked after.tree id used

theorem rank_le_trailed (kind : Kind) : kind.power.rank ≤ Level.trailed.rank := by
  cases kind <;> decide

section

variable {operand : Power → Parse ExprId} {limit bound : Nat} {before after : Parser} {id : ExprId}
  (operates : Operates operand limit)
include operates

theorem Operates.sound : Sound (Expression .relational) (operand .lowest) limit := by
  intro before id after ended fits parsed
  obtain ⟨used, term, takes, derivation, _, _⟩ := operates .lowest before id after (by decide) ended fits parsed
  exact ⟨used, term, takes, derivation, List.length_pos_iff.mp derivation.begins.pos⟩

theorem items_sound {terminator : Kind} (other : terminator ≠ .eof) (word : terminator ≠ .int ∧ terminator ≠ .float)
    {ids : List ExprId} (ended : Ended before.tokens) (enough : before.following.length ≤ bound + 1)
    (fits : before.following.length < limit) (parsed : items operand bound terminator before = .ok ids after) :
    ∃ used terms closing, Takes before after (used ++ [closing]) ∧ Items (Expression .relational) used terms ∧
      closing.kind = terminator ∧ (before.current.kind ≠ terminator → Listed (Expression .relational) used terms) := by
  rw [items, bind_apply, peek_apply] at parsed
  simp only [choice_apply] at parsed
  split at parsed
  · next same =>
    cases parsed
    exact ⟨[], [], before.current, Takes.mark ended same other word, .none, same, fun differs => absurd same differs⟩
  · obtain ⟨first, middle, begun, rest⟩ := bind_eq_ok.mp parsed
    obtain ⟨all, later, continued, closed⟩ := bind_eq_ok.mp rest
    obtain ⟨_, last, expected, same⟩ := bind_eq_ok.mp closed
    obtain ⟨kind, rfl, rfl⟩ := expect_eq_ok.mp expected
    cases same
    obtain ⟨used, terms, takes, derivation⟩ :=
      listed_sound operates.sound ended enough fits (bind_eq_ok.mpr ⟨first, middle, begun, continued⟩)
    exact ⟨used, terms, _, takes.trans (.mark takes.ended kind other word), .some derivation, kind, fun _ => derivation⟩

theorem group_sound (ended : Ended before.tokens) (fits : before.following.length ≤ limit)
    (parsed : group operand before = .ok id after) :
    ∃ used term, Takes before after used ∧ Enclosed (Expression .relational) .openParen .closeParen used term ∧
      Linked after.tree id used := by
  obtain ⟨_, first, opened, rest⟩ := bind_eq_ok.mp parsed
  obtain ⟨opens, rfl, rfl⟩ := expect_eq_ok.mp opened
  obtain ⟨inner, second, taken, closed⟩ := bind_eq_ok.mp rest
  obtain ⟨_, last, expected, same⟩ := bind_eq_ok.mp closed
  obtain ⟨closes, rfl, rfl⟩ := expect_eq_ok.mp expected
  cases same
  have skipped := Takes.mark ended opens (by decide) (by decide)
  have := skipped.following
  simp only [List.length_singleton] at this
  obtain ⟨used, term, takes, derivation, _, linked⟩ :=
    operates .lowest _ _ _ (by decide) skipped.ended (by omega) taken
  have closing := Takes.mark takes.ended closes (by decide) (by decide)
  refine ⟨_, term, skipped.trans (takes.trans closing), .mk opens derivation closes, fun base same => ?_⟩
  rw [Parser.tree_next] at same
  exact .group (.mk opens (linked base same) closes)

theorem component_sound : Sound (Indices (Expression .relational)) (component operand) limit := by
  intro before id after ended fits parsed
  obtain ⟨start, middle, begun, rest⟩ := bind_eq_ok.mp parsed
  obtain ⟨used, a, takes, derivation, taken⟩ := operates.sound _ _ _ ended fits begun
  rw [bind_apply, peek_apply] at rest
  simp only [choice_apply] at rest
  split at rest
  · next isColon =>
    have skipped := Takes.mark takes.ended isColon (by decide) (by decide)
    have := takes.following
    have := skipped.following
    rw [bind_apply, advance_apply] at rest
    obtain ⟨stop, last, ranged, added⟩ := bind_eq_ok.mp rest
    obtain ⟨others, b, takes', derivation', _⟩ := operates.sound _ _ _ skipped.ended (by omega) ranged
    simp only [addRange, bind_apply, exprSpan_apply, addExpr_apply] at added
    cases added
    refine ⟨_, _, ?_, .span derivation isColon derivation', by simp⟩
    have whole := takes.trans (skipped.trans takes')
    exact ⟨whole.tokens, whole.ended, whole.readable⟩
  · cases rest
    exact ⟨used, _, takes, .point derivation, taken⟩

end

theorem atomOf_sound {token : Token} {kind : ExprKind} (read : atomOf token = .ok kind) :
    token.kind ≠ .eof ∧ Readable [token] ∧ (∃ term, Expression .primary [token] term) ∧
      ∀ base : Base, kind = base.kind → Indexable [token] base := by
  have single {P : Token → Prop} (holds : P token) : ∀ other ∈ [token], P other := by
    intro other member
    rw [List.mem_singleton.mp member]
    exact holds
  unfold atomOf at read
  split at read
  · next isInt =>
    split at read
    · next value found =>
      cases read
      refine ⟨by simp [isInt], single ⟨fun _ => by simp [found], by simp [isInt]⟩, ⟨_, .int isInt⟩, ?_⟩
      rintro ⟨_⟩ <;> intro same <;> cases same
    · cases read
  · next isFloat =>
    split at read
    · next value found =>
      cases read
      refine ⟨by simp [isFloat], single ⟨by simp [isFloat], fun _ => by simp [found]⟩, ⟨_, .float isFloat⟩, ?_⟩
      rintro ⟨_⟩ <;> intro same <;> cases same
    · cases read
  · next isText =>
    cases read
    refine ⟨by simp [isText], single ⟨by simp [isText], by simp [isText]⟩, ⟨_, .text isText⟩, ?_⟩
    rintro ⟨_⟩ <;> intro same <;> cases same
    exact .text isText
  · next isName =>
    cases read
    refine ⟨by simp [isName], single ⟨by simp [isName], by simp [isName]⟩, ⟨_, .name isName⟩, ?_⟩
    rintro ⟨_⟩ <;> intro same <;> cases same
    exact .name isName
  · cases read

theorem atom_sound {before after : Parser} {id : ExprId} (ended : Ended before.tokens)
    (parsed : atom before = .ok id after) : Reads before after id .primary := by
  cases read : atomOf before.current with
  | error fault =>
    simp only [atom, bind_apply, advance_apply, read, throw_apply] at parsed
    cases parsed
  | ok kind =>
    simp only [atom, bind_apply, advance_apply, read, addExpr_apply] at parsed
    cases parsed
    obtain ⟨other, readable, ⟨term, derivation⟩, base⟩ := atomOf_sound read
    have takes := Takes.next ended other readable
    refine ⟨_, term, ⟨takes.tokens, takes.ended, takes.readable⟩, derivation, ?_, fun found same => ?_⟩
    · exact Nat.le_succ_of_le (rank_le_trailed _)
    · rw [Tree.kind?_addExpr] at same
      exact base found (Option.some.inj same)

theorem word_of_builtinWords {kind : Kind} {function : Builtin} (listed : (kind, function) ∈ builtinWords) :
    kind ≠ .eof ∧ kind ≠ .int ∧ kind ≠ .float := by
  have all : ∀ pair ∈ builtinWords, pair.1 ≠ .eof ∧ pair.1 ≠ .int ∧ pair.1 ≠ .float := by decide
  exact all _ listed

section

variable {operand : Power → Parse ExprId} {limit bound : Nat} {before after : Parser} {id : ExprId}
  (operates : Operates operand limit) (ended : Ended before.tokens) (fits : before.following.length ≤ limit)
include operates ended fits

theorem negation_sound (isDash : before.current.kind = .dash) (parsed : negation operand before = .ok id after) :
    Reads before after id .signed := by
  rw [negation, bind_apply, advance_apply] at parsed
  obtain ⟨inner, middle, begun, added⟩ := bind_eq_ok.mp parsed
  simp only [bind_apply, spanFrom_apply, addExpr_apply] at added
  cases added
  have skipped := Takes.mark ended isDash (by decide) (by decide)
  have := skipped.following
  simp only [List.length_singleton] at this
  obtain ⟨used, term, takes, derivation, loose, _⟩ := operates .unary _ _ _ (by decide) skipped.ended (by omega) begun
  have whole := skipped.trans takes
  refine ⟨_, _, ⟨whole.tokens, whole.ended, whole.readable⟩, .negate isDash derivation, loose, ?_⟩
  exact .ofOther (Tree.kind?_addExpr _ _ _) (by rintro ⟨_⟩ same <;> cases same) _

theorem arrayLiteral_sound (enough : before.following.length ≤ bound + 1)
    (parsed : arrayLiteral operand bound before = .ok id after) : Reads before after id .primary := by
  obtain ⟨_, first, opened, rest⟩ := bind_eq_ok.mp parsed
  obtain ⟨opens, rfl, rfl⟩ := expect_eq_ok.mp opened
  obtain ⟨ids, middle, listed, added⟩ := bind_eq_ok.mp rest
  simp only [bind_apply, spanFrom_apply, addExpr_apply] at added
  cases added
  have skipped := Takes.mark ended opens (by decide) (by decide)
  have := skipped.following
  simp only [List.length_singleton] at this
  obtain ⟨used, terms, closing, takes, derivation, closes, _⟩ :=
    items_sound operates (by decide) (by decide) skipped.ended (by omega) (by omega) listed
  have whole := skipped.trans takes
  refine ⟨_, _, ⟨whole.tokens, whole.ended, whole.readable⟩, .array (.mk opens derivation closes), ?_, ?_⟩
  · exact Nat.le_succ_of_le (rank_le_trailed _)
  · exact .ofOther (Tree.kind?_addExpr _ _ _) (by rintro ⟨_⟩ same <;> cases same) _

theorem builtin_sound {function : Builtin} (listed : (before.current.kind, function) ∈ builtinWords)
    (enough : before.following.length ≤ bound + 1)
    (parsed : builtin operand bound function before = .ok id after) : Reads before after id .primary := by
  have word := word_of_builtinWords listed
  rw [builtin, bind_apply, advance_apply] at parsed
  obtain ⟨_, first, opened, rest⟩ := bind_eq_ok.mp parsed
  obtain ⟨opens, rfl, rfl⟩ := expect_eq_ok.mp opened
  obtain ⟨ids, middle, listed, added⟩ := bind_eq_ok.mp rest
  simp only [bind_apply, spanFrom_apply, addExpr_apply] at added
  cases added
  have named := Takes.mark ended rfl word.1 word.2
  have skipped := Takes.mark named.ended opens (by decide) (by decide)
  have := named.following
  have := skipped.following
  simp only [List.length_singleton] at *
  obtain ⟨used, terms, closing, takes, derivation, closes, _⟩ :=
    items_sound operates (by decide) (by decide) skipped.ended (by omega) (by omega) listed
  have whole := named.trans (skipped.trans takes)
  refine ⟨_, _, ⟨whole.tokens, whole.ended, whole.readable⟩, .builtin ‹_› (.mk opens derivation closes), ?_, ?_⟩
  · exact Nat.le_succ_of_le (rank_le_trailed _)
  · exact .ofOther (Tree.kind?_addExpr _ _ _) (by rintro ⟨_⟩ same <;> cases same) _

theorem opening_sound (enough : before.following.length ≤ bound + 1)
    (parsed : opening operand bound before = .ok id after) :
    Reads before after id .signed ∨ Reads before after id .primary := by
  cases kind : before.current.kind with
  | int | float | text | name =>
    rw [opening_apply kind rfl] at parsed
    exact .inr (atom_sound ended parsed)
  | dash =>
    rw [opening_apply kind rfl] at parsed
    exact .inl (negation_sound operates ended fits kind parsed)
  | openParen =>
    rw [opening_apply kind rfl] at parsed
    obtain ⟨used, term, takes, enclosed, linked⟩ := group_sound operates ended fits parsed
    exact .inr ⟨used, term, takes, .group enclosed, Nat.le_succ_of_le (rank_le_trailed _), linked⟩
  | openBracket =>
    rw [opening_apply kind rfl] at parsed
    exact .inr (arrayLiteral_sound operates ended fits enough parsed)
  | eyeWord | zerosWord | onesWord =>
    rw [opening_apply kind rfl] at parsed
    exact .inr (builtin_sound operates ended fits (by rw [kind]; simp [builtinWords]) enough parsed)
  | _ =>
    rw [opening_apply kind rfl] at parsed
    cases parsed

end

def Prolongs (start middle after : Parser) (id : ExprId) (least : Nat) : Prop :=
  after.following.length < middle.following.length ∧ ∃ level : Level, least ≤ level.rank ∧ Reads start after id level

theorem Level.behind_le {power : Power} {kind : Kind} (tight : power.rank < kind.power.rank) :
    (behind power).rank ≤ kind.power.rank := by
  have := rank_le_trailed kind
  cases power <;> simp only [Power.rank, behind, rank] at * <;> omega

theorem Joint.modest {kind : Kind} {joint : Joint} {join : Term → Term → Term} {node : ExprId → ExprId → ExprKind}
    (found : jointOf? kind = some joint) (joins : joint.join? = some (join, node)) :
    kind.power.rank ≤ Power.unary.rank ∧ kind ≠ .eof ∧ kind ≠ .int ∧ kind ≠ .float := by
  cases kind <;> cases found <;> cases joins <;> decide

section

variable {operand : Power → Parse ExprId} {limit bound : Nat} {start middle after : Parser} {left id : ExprId}
  {level : Level} (operates : Operates operand limit) (reads : Reads start middle left level)
  (fits : middle.following.length ≤ limit)
include reads

theorem transposition_sound (isMark : middle.current.kind = .apostrophe)
    (parsed : transposition left middle = .ok id after) : Prolongs start middle after id Level.trailed.rank := by
  obtain ⟨used, term, takes, derivation, joins, _⟩ := reads
  obtain ⟨_, next, expected, rest⟩ := bind_eq_ok.mp parsed
  obtain ⟨_, rfl, rfl⟩ := expect_eq_ok.mp expected
  simp only [bind_apply, exprSpan_apply, spanFrom_apply, addExpr_apply] at rest
  cases rest
  have marked := Takes.mark takes.ended isMark (by decide) (by decide)
  have shorter := marked.following
  simp only [List.length_singleton] at shorter
  have whole := takes.trans marked
  rw [isMark] at joins
  refine ⟨by show middle.next.following.length < _; omega, .trailed, Nat.le_refl _, _, _,
    ⟨whole.tokens, whole.ended, whole.readable⟩, .transpose (derivation.relax joins) isMark, rank_le_trailed _, ?_⟩
  exact .ofOther (Tree.kind?_addExpr _ _ _) (by rintro ⟨_⟩ same <;> cases same) _

include operates fits

theorem binary_sound {joint : Joint} {join : Term → Term → Term} {node : ExprId → ExprId → ExprKind}
    (found : jointOf? middle.current.kind = some joint) (joins : joint.join? = some (join, node))
    (parsed : binary operand left (node left) middle = .ok id after) :
    Prolongs start middle after id middle.current.kind.power.rank := by
  obtain ⟨used, a, takes, derivation, admits, _⟩ := reads
  obtain ⟨closer, listed, same⟩ := Level.operator_of_joint found joins
  obtain ⟨modest, word⟩ := Joint.modest found joins
  rw [binary, bind_apply, advance_apply] at parsed
  obtain ⟨right, last, begun, rest⟩ := bind_eq_ok.mp parsed
  simp only [bind_apply, exprSpan_apply, spanFrom_apply, addExpr_apply] at rest
  cases rest
  have marked := Takes.mark takes.ended rfl word.1 word.2
  have shorter := marked.following
  simp only [List.length_singleton] at shorter
  obtain ⟨others, b, takes', derivation', loose, _⟩ := operates _ _ _ _ modest marked.ended (by omega) begun
  have := takes'.following
  have whole := takes.trans (marked.trans takes')
  refine ⟨by show last.following.length < _; omega, _, Nat.le_of_eq same.symm, _, _,
    ⟨whole.tokens, whole.ended, whole.readable⟩,
    .binary closer listed (derivation.relax (by omega)) derivation', ?_, ?_⟩
  · exact Nat.le_trans loose (Nat.le_of_eq same.symm)
  · refine .ofOther (Tree.kind?_addExpr _ _ _) ?_ _
    cases joint <;> cases joins <;> rintro ⟨_⟩ same <;> cases same

omit operates reads fits in
theorem base_of_indexing (parsed : indexing operand bound left middle = .ok id after) :
    ∃ base : Base, middle.tree.kind? left = some base.kind := by
  cases found : middle.tree.kind? left with
  | none =>
    simp only [indexing, bind_apply, kind?_apply, found, unexpectedDetailed_apply] at parsed
    cases parsed
  | some kind =>
    cases kind with
    | name known => exact ⟨.name known, rfl⟩
    | text value => exact ⟨.text value, rfl⟩
    | _ =>
      simp only [indexing, bind_apply, kind?_apply, found, unexpectedDetailed_apply] at parsed
      cases parsed

theorem indexing_sound (enough : middle.following.length ≤ bound + 1)
    (parsed : indexing operand bound left middle = .ok id after) :
    Prolongs start middle after id Level.trailed.rank := by
  obtain ⟨used, term, takes, _, _, linked⟩ := reads
  obtain ⟨base, found⟩ := base_of_indexing parsed
  rw [indexing_apply operand bound found] at parsed
  obtain ⟨_, next, expected, rest⟩ := bind_eq_ok.mp parsed
  obtain ⟨opens, rfl, rfl⟩ := expect_eq_ok.mp expected
  obtain ⟨first, second, begun, rest⟩ := bind_eq_ok.mp rest
  obtain ⟨ids, third, continued, rest⟩ := bind_eq_ok.mp rest
  obtain ⟨_, last, expected', rest⟩ := bind_eq_ok.mp rest
  obtain ⟨closes, rfl, rfl⟩ := expect_eq_ok.mp expected'
  simp only [bind_apply, exprSpan_apply, spanFrom_apply, addExpr_apply] at rest
  cases rest
  have opened := Takes.mark takes.ended opens (by decide) (by decide)
  have shorter := opened.following
  simp only [List.length_singleton] at shorter
  obtain ⟨others, indices, takes', derivation⟩ := listed_sound (component_sound operates) opened.ended (by omega)
    (by omega) (bind_eq_ok.mpr ⟨first, second, begun, continued⟩)
  have := takes'.following
  have closed := Takes.mark takes'.ended closes (by decide) (by decide)
  have := closed.following
  have whole := takes.trans (opened.trans (takes'.trans closed))
  refine ⟨by show third.next.following.length < _; omega, .trailed, Nat.le_refl _, _, _,
    ⟨whole.tokens, whole.ended, whole.readable⟩, .indexed (linked base found) (.mk opens derivation closes),
    rank_le_trailed _, ?_⟩
  exact .ofOther (Tree.kind?_addExpr _ _ _) (by rintro ⟨_⟩ same <;> cases same) _

theorem continuation_sound (enough : middle.following.length ≤ bound + 1)
    (parsed : continuation operand bound left middle = .ok id after) :
    Prolongs start middle after id middle.current.kind.power.rank := by
  cases found : jointOf? middle.current.kind with
  | none =>
    simp only [continuation, bind_apply, peek_apply, found, unexpected_apply] at parsed
    cases parsed
  | some joint =>
    cases joint with
    | transpose =>
      have isMark := kind_of_transpose found
      simp only [continuation, bind_apply, peek_apply, found] at parsed
      rw [isMark]
      exact transposition_sound reads isMark parsed
    | index =>
      have isMark := kind_of_index found
      simp only [continuation, bind_apply, peek_apply, found] at parsed
      rw [isMark]
      exact indexing_sound operates reads fits enough parsed
    | compare op | linear op | elementwise op =>
      rw [continuation_of_joint rfl _ _ _ _ found] at parsed
      exact binary_sound operates reads fits found rfl parsed

end

section

variable {operand : Power → Parse ExprId} {limit bound : Nat} {power : Power} (operates : Operates operand limit)
include operates

theorem climb_sound : ∀ (steps : Nat) {start middle after : Parser} {left id : ExprId} {level : Level},
    Reads start middle left level → (Level.behind power).rank ≤ level.rank → middle.following.length ≤ steps →
    middle.following.length ≤ limit → middle.following.length ≤ bound + 1 →
    climb operand bound power steps left middle = .ok id after →
    ∃ used term, Takes start after used ∧ Expression (Level.behind power) used term ∧
      Loose power after.current.kind ∧ Linked after.tree id used := by
  intro steps
  induction steps with
  | zero =>
    intro start middle after left id level reads admits few _ _ parsed
    cases parsed
    obtain ⟨used, term, takes, derivation, _, linked⟩ := reads
    -- no step is left only when no token is, and the end token prolongs nothing
    have none := takes.ended.current (List.length_eq_zero_iff.mp (Nat.le_zero.mp few))
    refine ⟨used, term, takes, derivation.relax admits, ?_, linked⟩
    unfold Loose
    rw [none]
    exact Nat.zero_le _
  | succ steps ih =>
    intro start middle after left id level reads admits few fits enough parsed
    by_cases tight : power.rank < middle.current.kind.power.rank
    · simp only [climb, bind_apply, peek_apply, choice_apply, tight, if_true] at parsed
      rw [← bind_apply] at parsed
      obtain ⟨longer, next, continued, rest⟩ := bind_eq_ok.mp parsed
      obtain ⟨shorter, level', least, reads'⟩ := continuation_sound operates reads fits enough continued
      have := Level.behind_le tight
      exact ih reads' (by omega) (by omega) (by omega) (by omega) rest
    · rw [climb_stops operand bound _ left (Nat.not_lt.mp tight)] at parsed
      cases parsed
      obtain ⟨used, term, takes, derivation, _, linked⟩ := reads
      exact ⟨used, term, takes, derivation.relax admits, Nat.not_lt.mp tight, linked⟩

end

/-- What is parsed as an operand is derived, by induction on how deeply operands may nest. -/
theorem expressionWithin_operates (depth : Nat) : Operates (expressionWithin depth) depth := by
  induction depth with
  | zero =>
    intro power before id after _ _ fits _
    exact absurd fits (Nat.not_lt_zero _)
  | succ depth ih =>
    intro power before id after modest ended fits parsed
    obtain ⟨left, middle, opened, climbed⟩ := bind_eq_ok.mp parsed
    have within : before.following.length ≤ depth := Nat.le_of_lt_succ fits
    have finish {level : Level} (reads : Reads before middle left level)
        (admits : (Level.behind power).rank ≤ level.rank) :
        ∃ used term, Takes before after used ∧ Expression (Level.behind power) used term ∧
          Loose power after.current.kind ∧ Linked after.tree id used := by
      have shorter : middle.following.length ≤ depth := by
        obtain ⟨used, _, takes, _, _⟩ := reads
        have := takes.following
        omega
      exact climb_sound ih depth reads admits shorter shorter (by omega) climbed
    rcases opening_sound ih ended within (by omega) opened with reads | reads
    · refine finish reads ?_
      cases power <;> first | exact absurd modest (by decide) | decide
    · refine finish reads ?_
      cases power <;> decide

end MatrixScript.Grammar
