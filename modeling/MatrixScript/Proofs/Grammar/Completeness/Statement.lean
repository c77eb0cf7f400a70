import MatrixScript.Proofs.Grammar.Completeness.Expression

/-! Whatever program the grammar derives is parsed, and to the derived syntax tree.

No statement begins with `else`, so a branch without one is only ever followed by one where the grammar leaves no
branch open. The end of the range of a counted loop is found because its body does not prolong the range.
-/

set_option autoImplicit false

namespace MatrixScript.Grammar

open Parse

@[simp] theorem size_addStmt (tree : Tree) (kind : StmtKind) (span : Span) :
    (tree.addStmt kind span).2.stmts.size = tree.stmts.size + 1 := Array.size_push _

theorem Advances.addStmt {before after : Parser} {used rest : List Token}
    (advances : Advances before after used rest) (kind : StmtKind) (span : Span) :
    Advances before { after with tree := (after.tree.addStmt kind span).2 } used rest where
  tokens := advances.tokens
  grows := advances.grows.trans (.addStmt _ _ _)
  few := advances.few

/-- An action takes the tokens `used` and gives the statement that lies where the new nodes are. -/
def Places (action : Parse StmtId) (before : Parser) (used rest : List Token) (phrase : Phrase) : Prop :=
  ∃ id after, action before = .ok id after ∧ Advances before after used rest ∧
    StmtLayout after.tree before.tree.mark after.tree.mark id phrase

abbrev Stated : List Token → Phrase → Prop := Statement fun token => ¬prolongs token

/-- What stands behind a statement is not taken for a part of it. -/
def Apart (phrase : Phrase) (rest : List Token) : Prop :=
  rest ≠ [] ∧ (phrase.endsOpen = true → ¬Begins [.elseWord] rest)

/-- An action takes every derived statement of fewer than `size` tokens, when it may nest deeply enough. -/
def Settles (action : Parse StmtId) (size limit : Nat) : Prop :=
  ∀ before used rest phrase, Stated used phrase → used.length < size → Readable used →
    before.tokens = used ++ rest → before.following.length < limit → Apart phrase rest →
    Places action before used rest phrase

def statementKinds : List Kind :=
  [.openCurly, .ifWord, .whileWord, .forWord, .breakWord, .continueWord, .returnWord, .printWord] ++ openingKinds

theorem Begins.mono {kinds others : List Kind} {tokens : List Token} (begins : Begins kinds tokens)
    (subset : ∀ kind ∈ kinds, kind ∈ others) : Begins others tokens := by
  obtain ⟨token, rest, rfl, member⟩ := begins
  exact ⟨token, rest, rfl, subset _ member⟩

theorem Statement.begins {starts : Token → Prop} {tokens : List Token} {phrase : Phrase}
    (derivation : Statement starts tokens phrase) : Begins statementKinds tokens := by
  cases derivation with
  | block enclosed =>
    obtain ⟨kind, _, _⟩ := enclosed
    exact ⟨_, _, rfl, by rw [kind]; decide⟩
  | assign target _ _ _ => exact (target.begins.mono fun _ => List.mem_append_right _).append _
  | forRange kind _ _ _ _ _ _ _ | whileLoop kind _ _ | branch kind _ _ | branchElse kind _ _ _ _ _
  | breakLoop kind _ | continueLoop kind _ | giveBack kind _ _ | print kind _ _ =>
    exact ⟨_, _, rfl, by rw [kind]; decide⟩

/-- An `else` is neither the first token of a statement nor that of what ends a list of them. -/
theorem Sequence.not_else {starts : Token → Prop} {tokens : List Token} {phrases : List Phrase}
    (sequence : Sequence (Statement starts) tokens phrases) {closing : Token} (other : closing.kind ≠ .elseWord)
    (rest : List Token) : ¬Begins [.elseWord] (tokens ++ closing :: rest) := by
  rintro ⟨token, others, same, member⟩
  have isElse := List.mem_singleton.mp member
  cases sequence with
  | nil =>
    obtain ⟨rfl, _⟩ := List.cons.inj same
    exact other isElse
  | cons derivation _ =>
    obtain ⟨first, more, rfl, listed⟩ := derivation.begins
    obtain ⟨rfl, _⟩ := List.cons.inj same
    rw [isElse] at listed
    revert listed
    decide

/-- A loop over statements ends at the tokens that close it. -/
structure Loops (body : Parse StmtId) (closes : Kind → Prop) (loop : Nat → List StmtId → Parse (List StmtId)) :
    Prop where
  exhausted : ∀ found parser, loop 0 found parser = .ok found.reverse parser
  stops : ∀ bound found parser, closes parser.current.kind → loop (bound + 1) found parser = .ok found.reverse parser
  goes : ∀ bound found parser, ¬closes parser.current.kind →
    loop (bound + 1) found parser = (body >>= fun next => loop bound (next :: found)) parser

theorem blockItems_loops (body : Parse StmtId) :
    Loops body (fun kind => kind = .closeCurly ∨ kind = .eof) (blockItems body) where
  exhausted _ _ := rfl
  stops _ _ _ closed := by simp only [blockItems, bind_apply, peek_apply, choice_apply, closed, if_true, pure_apply]
  goes _ _ _ other := by simp only [blockItems, bind_apply, peek_apply, choice_apply, other, if_false]

theorem statementsFrom_loops (depth : Nat) :
    Loops (statementWithin depth) (fun kind => kind = .eof) (statementsFrom depth) where
  exhausted _ _ := rfl
  stops _ _ _ closed := by simp only [statementsFrom, bind_apply, peek_apply, choice_apply, closed, if_true, pure_apply]
  goes _ _ _ other := by simp only [statementsFrom, bind_apply, peek_apply, choice_apply, other, if_false]

theorem Loops.closed {body : Parse StmtId} {closes : Kind → Prop} {loop : Nat → List StmtId → Parse (List StmtId)}
    (loops : Loops body closes loop) (bound : Nat) (found : List StmtId) {parser : Parser}
    (closed : closes parser.current.kind) : loop bound found parser = .ok found.reverse parser := by
  cases bound with
  | zero => exact loops.exhausted found parser
  | succ bound => exact loops.stops bound found parser closed

section

variable {body : Parse StmtId} {size limit : Nat}

theorem sequence_places (settles : Settles body size limit) {closes : Kind → Prop}
    {loop : Nat → List StmtId → Parse (List StmtId)} (loops : Loops body closes loop)
    (goes : ∀ kind ∈ statementKinds, ¬closes kind) {used : List Token} {phrases : List Phrase}
    (sequence : Sequence Stated used phrases) {closing : Token} {rest : List Token} (closed : closes closing.kind)
    (other : closing.kind ≠ .elseWord) :
    ∀ (bound : Nat) (found : List StmtId) (before : Parser), used.length < size → Readable used →
      before.tokens = used ++ closing :: rest → before.following.length < limit → used.length ≤ bound →
      ∃ ids after, loop bound found before = .ok (found.reverse ++ ids) after ∧
        Advances before after used (closing :: rest) ∧
        Stretch (StmtLayout after.tree) before.tree.mark after.tree.mark ids phrases := by
  induction sequence with
  | nil =>
    intro bound found before _ _ stream _ _
    refine ⟨[], before, ?_, ⟨stream, .refl _, Nat.le_add_right _ _⟩, .nil⟩
    rw [loops.closed bound found (by rw [Parser.current_of_tokens stream]; exact closed), List.append_nil]
  | @cons used others phrase phrases derivation sequence ih =>
    intro bound found before short readable stream fits enough
    rw [List.append_assoc] at stream
    simp only [List.length_append] at short enough
    have taken := derivation.begins.pos
    -- no `else` follows that the statement in front would take for its own
    have apart : Apart phrase (others ++ closing :: rest) := ⟨by simp, fun _ => sequence.not_else other rest⟩
    obtain ⟨id, middle, parsed, advances, layout⟩ :=
      settles before used _ phrase derivation (by omega) readable.left stream fits apart
    obtain ⟨bound, rfl⟩ : ∃ smaller, bound = smaller + 1 := ⟨bound - 1, by omega⟩
    have := advances.following stream
    obtain ⟨ids, after, rest, advances', layouts⟩ := ih bound (id :: found) middle (by omega) readable.right
      advances.tokens (by omega) (by omega)
    refine ⟨id :: ids, after, ?_, advances.trans advances', .cons (layout.grow advances'.grows) layouts⟩
    rw [loops.goes bound found before (goes _ (derivation.begins.current stream)), bind_apply, parsed]
    simp only []
    rw [rest, List.reverse_cons, List.append_assoc, List.singleton_append]

end

theorem Advances.places {action : Parse StmtId} {before after : Parser} {used rest : List Token} {phrase : Phrase}
    (advances : Advances before after used rest) (kind : StmtKind) (span : Span)
    (parsed : action before = .ok ⟨after.tree.stmts.size⟩ { after with tree := (after.tree.addStmt kind span).2 })
    (layout : ∀ tree : Tree, after.tree.Grows tree → tree.stmtKind? ⟨after.tree.stmts.size⟩ = some kind →
      StmtLayout tree before.tree.mark ⟨after.tree.exprs.size, after.tree.stmts.size + 1⟩
        ⟨after.tree.stmts.size⟩ phrase) : Places action before used rest phrase := by
  refine ⟨_, _, parsed, advances.addStmt kind span, ?_⟩
  have marked : (after.tree.addStmt kind span).2.mark = ⟨after.tree.exprs.size, after.tree.stmts.size + 1⟩ := by
    unfold Tree.mark
    rw [size_addStmt]
    rfl
  rw [marked]
  exact layout _ (.addStmt _ _ _) (Tree.stmtKind?_addStmt _ _ _)

theorem assignOf?_of_mem {kind : Kind} {op : Assign} (listed : (kind, op) ∈ assignMarks) :
    assignOf? kind = some op ∧ Loose .lowest kind := by
  have all : ∀ pair ∈ assignMarks, assignOf? pair.1 = some pair.2 ∧ Loose .lowest pair.1 := by decide
  exact all _ listed

section

variable {operand : Power → Parse ExprId} {size limit : Nat} {before : Parser} {rest : List Token}
  (complete : Completes ExprLayout (Expression .relational) (Loose .lowest) (operand .lowest) size (limit + 1))

section

include complete

theorem assignment_places {mark last : Token} {op : Assign} {left right : List Token} {target value : Term}
    (first : Expression .relational left target) (listed : (mark.kind, op) ∈ assignMarks)
    (second : Expression .relational right value) (ends : last.kind = .semicolon) (more : rest ≠ [])
    (short : (left ++ mark :: (right ++ [last])).length ≤ size) (readable : Readable (left ++ mark :: (right ++ [last])))
    (stream : before.tokens = left ++ mark :: (right ++ [last]) ++ rest) (fits : before.following.length ≤ limit) :
    Places (assignment operand) before (left ++ mark :: (right ++ [last])) rest (.assign target op value) := by
  obtain ⟨found, loose⟩ := assignOf?_of_mem listed
  simp only [List.length_append, List.length_cons] at short
  simp only [List.append_assoc, List.cons_append, List.nil_append] at stream
  obtain ⟨id, middle, parsed, passes, layout⟩ := complete before left _ target first (by omega) readable.left stream
    (by omega) ⟨mark, _, rfl, loose⟩
  have marked := Passes.next passes.tokens (by simp)
  have := passes.following stream
  have := marked.following passes.tokens
  obtain ⟨id', after, parsed', passes', layout'⟩ := complete middle.next right _ value second (by omega)
    readable.right.tail.left marked.tokens (by omega) ⟨last, rest, rfl, by rw [ends]; decide⟩
  have ended := Passes.next passes'.tokens more
  have whole := passes.trans (marked.trans (passes'.trans ended))
  refine whole.toAdvances.places (.assign id op id') ⟨before.current.span.start, after.next.previousEnd⟩ ?_
    fun tree grows node => ?_
  · simp only [assignment, bind_apply, here_apply, parsed, peek_apply, Parser.current_of_tokens passes.tokens, found,
      advance_apply, parsed', expect_apply, Parser.current_of_tokens passes'.tokens, ends, if_true, spanFrom_apply,
      addStmt_apply]
  · rw [Parser.tree_next] at layout'
    rw [whole.stmts] at node ⊢
    have grown : middle.tree.Grows tree := (marked.trans (passes'.trans ended)).grows.trans grows
    have grown' : after.tree.Grows tree := ended.grows.trans grows
    rw [Parser.tree_next]
    exact .assign (layout.grow grown) (layout'.grow grown') node

theorem returning_places {word last : Token} {used : List Token} {values : List Term} (bound : Nat)
    (derivation : Items (Expression .relational) used values) (ends : last.kind = .semicolon) (more : rest ≠ [])
    (short : used.length < size) (readable : Readable used)
    (stream : before.tokens = word :: (used ++ last :: rest)) (fits : before.following.length ≤ limit)
    (enough : used.length ≤ bound) :
    Places (returning operand bound) before (word :: (used ++ [last])) rest (.giveBack values) := by
  have first := Passes.next stream (by simp)
  have := first.following stream
  obtain ⟨ids, after, parsed, passes, layout⟩ := items_yields complete bound .semicolon (by decide) (by decide)
    (by decide) derivation ends more short readable first.tokens (by omega) enough
  have whole := first.trans passes
  refine whole.toAdvances.places (.giveBack ids) ⟨word.span.start, after.previousEnd⟩ ?_ fun tree grows node => ?_
  · simp only [returning, bind_apply, advance_apply, parsed, Parser.current_of_tokens stream, spanFrom_apply,
      addStmt_apply]
  · rw [Parser.tree_next] at layout
    rw [whole.stmts] at node ⊢
    exact .giveBack (ExprLayout.stretch_grow grows layout) node

theorem printing_places {word last : Token} {used : List Token} {values : List Term} (bound : Nat)
    (derivation : Listed (Expression .relational) used values) (ends : last.kind = .semicolon) (more : rest ≠ [])
    (short : used.length < size) (readable : Readable used)
    (stream : before.tokens = word :: (used ++ last :: rest)) (fits : before.following.length ≤ limit)
    (enough : used.length ≤ bound) :
    Places (printing operand bound) before (word :: (used ++ [last])) rest (.print values) := by
  have first := Passes.next stream (by simp)
  have := first.following stream
  obtain ⟨ids, after, parsed, passes, layout⟩ := items_yields complete bound .semicolon (by decide) (by decide)
    (by decide) (.some derivation) ends more short readable first.tokens (by omega) enough
  have whole := first.trans passes
  have some : before.next.current.kind ≠ .semicolon := by
    intro same
    have member := (derivation.begins Expression.begins).current first.tokens
    rw [same] at member
    revert member
    decide
  refine whole.toAdvances.places (.print ids) ⟨word.span.start, after.previousEnd⟩ ?_ fun tree grows node => ?_
  · simp only [printing, bind_apply, advance_apply, peek_apply, choice_apply, some, if_false, parsed,
      Parser.current_of_tokens stream, spanFrom_apply, addStmt_apply]
  · rw [Parser.tree_next] at layout
    rw [whole.stmts] at node ⊢
    exact .print (ExprLayout.stretch_grow grows layout) node

end

theorem signal_places {word last : Token} {kind : StmtKind} {phrase : Phrase} (ends : last.kind = .semicolon)
    (more : rest ≠ []) (stream : before.tokens = [word, last] ++ rest)
    (layout : ∀ (tree : Tree) (e s : Nat), tree.stmtKind? ⟨s⟩ = some kind →
      StmtLayout tree ⟨e, s⟩ ⟨e, s + 1⟩ ⟨s⟩ phrase) : Places (signal kind) before [word, last] rest phrase := by
  have first := Passes.next stream (by simp)
  have second := Passes.next first.tokens more
  refine (first.trans second).toAdvances.places kind ⟨word.span.start, before.next.next.previousEnd⟩ ?_
    fun tree grows node => ?_
  · simp only [signal, bind_apply, advance_apply, expect_apply, Parser.current_of_tokens first.tokens, ends, if_true,
      Parser.current_of_tokens stream, spanFrom_apply, addStmt_apply]
  · simp only [Parser.tree_next] at node ⊢
    exact layout tree _ _ node

section

variable {body : Parse StmtId} (settles : Settles body size limit)
include settles

theorem block_places {used : List Token} {phrases : List Phrase} (bound : Nat)
    (derivation : Enclosed (Sequence Stated) .openCurly .closeCurly used phrases) (more : rest ≠ [])
    (short : used.length ≤ size) (readable : Readable used) (stream : before.tokens = used ++ rest)
    (fits : before.following.length ≤ limit) (enough : used.length ≤ bound) :
    Places (block body bound) before used rest (.block phrases) := by
  obtain ⟨opens, sequence, ends⟩ := derivation
  rename_i opening closing tokens
  simp only [List.length_cons, List.length_append, List.length_nil] at short enough
  rw [List.cons_append, List.append_assoc, List.singleton_append] at stream
  have first := Passes.next stream (by simp)
  have := first.following stream
  simp only [List.length_singleton] at this
  obtain ⟨ids, middle, parsed, advances, layout⟩ := sequence_places settles (blockItems_loops body) (by decide) sequence
    (.inl ends) (by rw [ends]; decide) bound [] before.next (by omega) readable.tail.left first.tokens (by omega)
    (by omega)
  have last := Passes.next advances.tokens more
  have whole := first.toAdvances.trans (advances.trans last.toAdvances)
  refine whole.places (.block ids) ⟨opening.span.start, middle.next.previousEnd⟩ ?_ fun tree grows node => ?_
  · simp only [block, bind_apply, expect_apply, Parser.current_of_tokens stream, opens, if_true, parsed,
      Parser.current_of_tokens advances.tokens, ends, spanFrom_apply, addStmt_apply, List.reverse_nil, List.nil_append]
  · rw [Parser.tree_next] at layout grows node ⊢
    refine .block (layout.map Mark.stmts (fun _ _ _ _ => StmtLayout.lt) fun _ _ _ _ _ item => item.grow grows) node

include complete

theorem headed_places {word : Token} {test used : List Token} {condition : Term} {phrase : Phrase}
    (tested : Enclosed (Expression .relational) .openParen .closeParen test condition) (stated : Stated used phrase)
    (apart : Apart phrase rest) (short : (word :: (test ++ used)).length ≤ size)
    (readable : Readable (word :: (test ++ used))) (stream : before.tokens = word :: (test ++ (used ++ rest)))
    (fits : before.following.length ≤ limit) :
    ∃ id middle id' after, Grammar.condition operand before.next = .ok id middle ∧ body middle = .ok id' after ∧
      Advances before after (word :: (test ++ used)) rest ∧
      after.following.length < before.following.length ∧
      (∀ tree : Tree, after.tree.Grows tree →
        ExprLayout tree before.tree.exprs.size middle.tree.exprs.size id condition ∧
        StmtLayout tree ⟨middle.tree.exprs.size, before.tree.stmts.size⟩ after.tree.mark id' phrase) := by
  simp only [List.length_cons, List.length_append] at short
  have first := Passes.next stream (by simp [apart.1])
  have := first.following stream
  simp only [List.length_singleton] at this
  obtain ⟨id, middle, parsed, passes, layout⟩ := group_yields complete tested (by simp [apart.1]) (by omega)
    readable.tail.left first.tokens (by omega)
  have := passes.following first.tokens
  obtain ⟨id', after, parsed', advances, layout'⟩ := settles middle used rest phrase stated (by omega)
    readable.tail.right passes.tokens (by omega) apart
  have := advances.following passes.tokens
  refine ⟨id, middle, id', after, parsed, parsed', first.toAdvances.trans (passes.toAdvances.trans advances),
    by omega, fun tree grows => ⟨?_, ?_⟩⟩
  · rw [Parser.tree_next] at layout
    exact layout.grow (advances.grows.trans grows)
  · have same := (first.trans passes).stmts
    unfold Tree.mark at layout'
    rw [same] at layout'
    exact layout'.grow grows

theorem whileLooping_places {word : Token} {test used : List Token} {condition : Term} {phrase : Phrase}
    (tested : Enclosed (Expression .relational) .openParen .closeParen test condition) (stated : Stated used phrase)
    (apart : Apart phrase rest) (short : (word :: (test ++ used)).length ≤ size)
    (readable : Readable (word :: (test ++ used))) (stream : before.tokens = word :: (test ++ (used ++ rest)))
    (fits : before.following.length ≤ limit) :
    Places (whileLooping operand body) before (word :: (test ++ used)) rest (.whileLoop condition phrase) := by
  obtain ⟨id, middle, id', after, parsed, parsed', advances, _, layout⟩ :=
    headed_places complete settles tested stated apart short readable stream fits
  refine advances.places (.whileLoop id id') ⟨word.span.start, after.previousEnd⟩ ?_ fun tree grows node => ?_
  · simp only [whileLooping, bind_apply, advance_apply, parsed, parsed', Parser.current_of_tokens stream,
      spanFrom_apply, addStmt_apply]
  · obtain ⟨first, second⟩ := layout tree grows
    exact .whileLoop first second node

theorem branching_places {word : Token} {test used : List Token} {condition : Term} {phrase : Phrase}
    (tested : Enclosed (Expression .relational) .openParen .closeParen test condition) (stated : Stated used phrase)
    (apart : Apart (.branch condition phrase) rest) (short : (word :: (test ++ used)).length ≤ size)
    (readable : Readable (word :: (test ++ used))) (stream : before.tokens = word :: (test ++ (used ++ rest)))
    (fits : before.following.length ≤ limit) :
    Places (branching operand body) before (word :: (test ++ used)) rest (.branch condition phrase) := by
  have closed := apart.2 rfl
  obtain ⟨id, middle, id', after, parsed, parsed', advances, _, layout⟩ :=
    headed_places complete settles tested stated ⟨apart.1, fun _ => closed⟩ short readable stream fits
  have other : after.current.kind ≠ .elseWord := fun same =>
    closed ⟨after.current, after.following, advances.tokens.symm, List.mem_singleton.mpr same⟩
  refine advances.places (.branch id id' none) ⟨word.span.start, after.previousEnd⟩ ?_ fun tree grows node => ?_
  · simp only [branching, bind_apply, advance_apply, parsed, parsed', Parser.current_of_tokens stream, peek_apply,
      choice_apply, other, if_false, spanFrom_apply, addStmt_apply]
  · obtain ⟨first, second⟩ := layout tree grows
    exact .branch first second node

theorem branchingElse_places {word other : Token} {test used last : List Token} {condition : Term}
    {phrase elsePhrase : Phrase}
    (tested : Enclosed (Expression .relational) .openParen .closeParen test condition) (stated : Stated used phrase)
    (closed : phrase.endsOpen = false) (isElse : other.kind = .elseWord) (stated' : Stated last elsePhrase)
    (apart : Apart elsePhrase rest) (short : (word :: (test ++ (used ++ other :: last))).length ≤ size)
    (readable : Readable (word :: (test ++ (used ++ other :: last))))
    (stream : before.tokens = word :: (test ++ (used ++ (other :: (last ++ rest)))))
    (fits : before.following.length ≤ limit) :
    Places (branching operand body) before (word :: (test ++ (used ++ other :: last))) rest
      (.branchElse condition phrase elsePhrase) := by
  simp only [List.length_cons, List.length_append] at short
  have beginning : word :: (test ++ (used ++ other :: last)) = word :: (test ++ used) ++ other :: last := by
    simp only [List.cons_append, List.append_assoc]
  rw [beginning] at readable ⊢
  obtain ⟨id, middle, id', after, parsed, parsed', advances, fewer, layout⟩ :=
    headed_places complete settles tested stated ⟨by simp, by simp [closed]⟩
      (by simp only [List.length_cons, List.length_append]; omega) readable.left stream fits
  have skipped := Passes.next advances.tokens (by simp [apart.1])
  have := skipped.following advances.tokens
  obtain ⟨id'', final, parsed'', advances', layout'⟩ := settles after.next last rest elsePhrase stated' (by omega)
    readable.right.tail skipped.tokens (by omega) apart
  have whole := advances.trans (skipped.toAdvances.trans advances')
  refine whole.places (.branch id id' (some id'')) ⟨word.span.start, final.previousEnd⟩ ?_ fun tree grows node => ?_
  · simp only [branching, bind_apply, advance_apply, parsed, parsed', Parser.current_of_tokens stream, peek_apply,
      choice_apply, Parser.current_of_tokens advances.tokens, isElse, if_true, parsed'', spanFrom_apply, addStmt_apply]
  · have grown : after.tree.Grows tree := (skipped.toAdvances.trans advances').grows.trans grows
    obtain ⟨first, second⟩ := layout tree grown
    rw [Parser.tree_next] at layout'
    exact .branchElse first second (layout'.grow grows) node

theorem forLooping_places {word counter mark colon : Token} {left right used : List Token} {start stop : Term}
    {phrase : Phrase} (isName : counter.kind = .name) (isMark : mark.kind = .assign)
    (first : Expression .relational left start) (isColon : colon.kind = .colon)
    (second : Expression .relational right stop) (stated : Stated used phrase)
    (starts : ∀ token ∈ used.head?, ¬prolongs token) (apart : Apart phrase rest)
    (short : (word :: counter :: mark :: (left ++ colon :: (right ++ used))).length ≤ size)
    (readable : Readable (word :: counter :: mark :: (left ++ colon :: (right ++ used))))
    (stream : before.tokens = word :: counter :: mark :: (left ++ colon :: (right ++ (used ++ rest))))
    (fits : before.following.length ≤ limit) :
    Places (forLooping operand body) before (word :: counter :: mark :: (left ++ colon :: (right ++ used))) rest
      (.forRange counter.value start stop phrase) := by
  simp only [List.length_cons, List.length_append] at short
  have one := Passes.next stream (by simp)
  have two := Passes.next one.tokens (by simp)
  have three := Passes.next two.tokens (by simp)
  have header := one.trans (two.trans three)
  have := header.following stream
  simp only [List.length_append, List.length_singleton] at this
  -- the range ends where the body begins, because the body does not prolong it
  have loose : Followed (Loose .lowest) (used ++ rest) := by
    obtain ⟨token, others, rfl, member⟩ := stated.begins
    have free := starts token rfl
    refine ⟨token, others ++ rest, rfl, ?_⟩
    unfold prolongs at free
    generalize token.kind = kind at member free
    revert member free
    cases kind <;> decide
  have inside : Readable ((left ++ colon :: right) ++ used) := by
    simpa only [List.append_assoc, List.cons_append] using readable.tail.tail.tail
  obtain ⟨id, middle, id', last, after, parsed, skipped, parsed', added, passes, size, mid, layout, layout', ranged⟩ :=
    range_yields complete first isColon second (by simp only [List.length_append, List.length_cons]; omega)
      inside.left three.tokens (by omega) loose
  have := passes.following (by rw [three.tokens, List.append_assoc, List.cons_append])
  simp only [List.length_append, List.length_cons] at this
  obtain ⟨id'', final, parsed'', advances, layout''⟩ := settles after used rest phrase stated (by omega)
    inside.right passes.tokens (by omega) apart
  have ahead := header.trans passes
  have whole := ahead.toAdvances.trans advances
  simp only [List.cons_append, List.nil_append, List.append_assoc] at whole
  refine whole.places (.forRange counter.value ⟨last.tree.exprs.size⟩ id'') ⟨word.span.start, final.previousEnd⟩ ?_
    fun tree grows node => ?_
  · simp only [forLooping, bind_apply, advance_apply, expect_apply, Parser.current_of_tokens one.tokens, isName,
      Parser.current_of_tokens two.tokens, isMark, if_true, parsed, skipped, parsed', added, parsed'',
      Parser.current_of_tokens stream, spanFrom_apply, addStmt_apply]
  · have later := advances.grows.trans grows
    have same := ahead.stmts
    unfold Tree.mark at layout''
    rw [same, size] at layout''
    rw [Parser.tree_next, Parser.tree_next, Parser.tree_next] at layout
    exact .forRange (layout.grow later) (layout'.grow later) (later.kind ranged) (layout''.grow grows) node

end

end

theorem statementWithin_apply {depth : Nat} {parser : Parser} {token : Token} {rest : List Token} {kind : Kind}
    (same : token.kind = kind) (stream : parser.tokens = token :: rest) :
    statementWithin (depth + 1) parser = (match kind with
      | .openCurly => block (statementWithin depth) (depth + 1)
      | .ifWord => branching (expressionWithin (depth + 1)) (statementWithin depth)
      | .whileWord => whileLooping (expressionWithin (depth + 1)) (statementWithin depth)
      | .forWord => forLooping (expressionWithin (depth + 1)) (statementWithin depth)
      | .breakWord => signal .breakLoop
      | .continueWord => signal .continueLoop
      | .returnWord => returning (expressionWithin (depth + 1)) (depth + 1)
      | .printWord => printing (expressionWithin (depth + 1)) (depth + 1)
      | _ => assignment (expressionWithin (depth + 1))) parser := by
  rw [← same, ← Parser.current_of_tokens stream]
  rfl

theorem Places.ofDispatch {action other : Parse StmtId} {before : Parser} {used rest : List Token}
    {phrase : Phrase} (same : action before = other before) (places : Places other before used rest phrase) :
    Places action before used rest phrase := by
  unfold Places
  rw [same]
  exact places

/-- Every derived statement is taken where nothing behind it belongs to it. -/
theorem Statement.settles {used : List Token} {phrase : Phrase} (derivation : Stated used phrase) :
    ∀ (depth : Nat) (before : Parser) (rest : List Token), Readable used → before.tokens = used ++ rest →
      before.following.length ≤ depth → Apart phrase rest →
      Places (statementWithin (depth + 1)) before used rest phrase := by
  induction size : used.length using Nat.strongRecOn generalizing used phrase with
  | ind n ih =>
    subst size
    intro depth before rest readable stream fits apart
    -- a statement inside has fewer tokens, and what is left of the depth suffices for them
    have inner : Settles (statementWithin depth) used.length depth := by
      intro before' used' rest' phrase' stated fewer readable' stream' fits' apart'
      obtain ⟨depth, rfl⟩ : ∃ smaller, depth = smaller + 1 := ⟨depth - 1, by omega⟩
      exact ih _ fewer stated rfl depth before' rest' readable' stream' (by omega) apart'
    have complete := expression_completes used.length (depth + 1)
    have count := congrArg List.length stream
    simp only [Parser.length_tokens, List.length_append] at count
    have := List.length_pos_iff.mpr apart.1
    cases derivation with
    | block enclosed =>
      have places := block_places inner (depth + 1) enclosed apart.1 (Nat.le_refl _) readable stream fits (by omega)
      cases enclosed with
      | mk kind _ _ => exact .ofDispatch (statementWithin_apply kind stream) places
    | assign target listed value ends =>
      refine .ofDispatch ?_ (assignment_places complete target listed value ends apart.1 (Nat.le_refl _) readable
        stream fits)
      rw [List.append_assoc] at stream
      obtain ⟨token, others, rfl, member⟩ := target.begins
      rw [statementWithin_apply rfl stream]
      generalize token.kind = kind at member
      cases kind <;> first | rfl | exact absurd member (by decide)
    | forRange kind isName isMark first isColon second stated starts =>
      have lined := stream
      simp only [List.cons_append, List.append_assoc] at lined
      exact .ofDispatch (statementWithin_apply kind stream) (forLooping_places complete inner isName isMark first
        isColon second stated starts apart (Nat.le_refl _) readable lined fits)
    | whileLoop kind tested stated =>
      have lined := stream
      simp only [List.cons_append, List.append_assoc] at lined
      exact .ofDispatch (statementWithin_apply kind stream) (whileLooping_places complete inner tested stated apart
        (Nat.le_refl _) readable lined fits)
    | branch kind tested stated =>
      have lined := stream
      simp only [List.cons_append, List.append_assoc] at lined
      exact .ofDispatch (statementWithin_apply kind stream) (branching_places complete inner tested stated apart
        (Nat.le_refl _) readable lined fits)
    | branchElse kind tested stated closed isElse stated' =>
      have lined := stream
      simp only [List.cons_append, List.append_assoc] at lined
      exact .ofDispatch (statementWithin_apply kind stream) (branchingElse_places complete inner tested stated closed
        isElse stated' apart (Nat.le_refl _) readable lined fits)
    | breakLoop kind ends =>
      exact .ofDispatch (statementWithin_apply kind stream) (signal_places ends apart.1 stream fun _ _ _ => .breakLoop)
    | continueLoop kind ends =>
      exact .ofDispatch (statementWithin_apply kind stream)
        (signal_places ends apart.1 stream fun _ _ _ => .continueLoop)
    | giveBack kind values ends =>
      have lined := stream
      simp only [List.cons_append, List.append_assoc, List.nil_append] at lined
      simp only [List.length_cons, List.length_append] at count
      exact .ofDispatch (statementWithin_apply kind stream) (returning_places complete (depth + 1) values ends apart.1
        (by simp only [List.length_cons, List.length_append]; omega) readable.tail.left lined fits (by omega))
    | print kind values ends =>
      have lined := stream
      simp only [List.cons_append, List.append_assoc, List.nil_append] at lined
      simp only [List.length_cons, List.length_append] at count
      exact .ofDispatch (statementWithin_apply kind stream) (printing_places complete (depth + 1) values ends apart.1
        (by simp only [List.length_cons, List.length_append]; omega) readable.tail.left lined fits (by omega))

theorem program_completes {used : List Token} {phrases : List Phrase} (sequence : Sequence Stated used phrases)
    {last : Token} (ends : last.kind = .eof) (readable : Readable used) {before : Parser} {rest : List Token}
    (stream : before.tokens = used ++ last :: rest) :
    ∃ tree after, program before = .ok tree after ∧ before.tree.Grows tree ∧
      tree.exprs.size ≤ before.tree.exprs.size + used.length ∧
      Stretch (StmtLayout tree) before.tree.mark tree.mark tree.body phrases := by
  have count := congrArg List.length stream
  simp only [Parser.length_tokens, List.length_append, List.length_cons] at count
  generalize size : before.following.length + 1 = depth at *
  have settles : Settles (statementWithin depth) depth depth := by
    intro before' used' rest' phrase' stated _ readable' stream' fits' apart'
    obtain ⟨depth, rfl⟩ : ∃ smaller, depth = smaller + 1 := ⟨depth - 1, by omega⟩
    exact stated.settles depth before' rest' readable' stream' (by omega) apart'
  obtain ⟨ids, after, parsed, advances, layout⟩ := sequence_places settles (statementsFrom_loops depth) (by decide)
    sequence ends (by rw [ends]; decide) depth [] before (by omega) readable stream (by omega) (by omega)
  have same : after.tree.Grows { after.tree with body := ids } := ⟨fun _ _ found => found, fun _ _ found => found⟩
  refine ⟨{ after.tree with body := ids }, after, ?_, advances.grows.trans same, advances.few, ?_⟩
  · simp only [program, bind_apply, get_apply, size, parsed, List.reverse_nil, List.nil_append, pure_apply]
  · exact layout.map Mark.stmts (fun _ _ _ _ => StmtLayout.lt) fun _ _ _ _ _ item => item.grow same

end MatrixScript.Grammar
