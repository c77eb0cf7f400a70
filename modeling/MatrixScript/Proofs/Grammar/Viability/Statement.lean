import MatrixScript.Proofs.Grammar.Language
import MatrixScript.Proofs.Grammar.Viability.Expression

/-! Where a program fails to be parsed, what the parser has gone over can still become one.

A statement that is still missing can be an assignment to a name. It begins with a name, so that it can be the body of
a counted loop as well.
-/

set_option autoImplicit false

namespace MatrixScript.Grammar

open Parse

def fillerKinds : List Kind := [.name, .assign, .name, .semicolon]

def fillerTokens : List Token := fillerKinds.map Token.bare

theorem Readable.filler : Readable fillerTokens := @Readable.bare fillerKinds (by decide)

theorem Statement.filler :
    Stated fillerTokens (.assign (.name (Token.bare .name).value) .plain (.name (Token.bare .name).value)) := by
  have name := Expression.filler .relational
  have listed : ((Token.bare .assign).kind, Assign.plain) ∈ assignMarks := by decide
  exact Statement.assign name listed name (Token.kind_bare _)

theorem filler_not_prolongs : ∀ token ∈ fillerTokens.head?, ¬prolongs token := by
  rintro _ ⟨⟩ (kind | kind) <;> cases kind

section

variable {operand : Power → Parse ExprId} {limit bound : Nat} {before after : Parser} {failure : Failure}
  (ended : Ended before.tokens)
include ended

theorem signal_stalls {kind : StmtKind} {phrase : Phrase}
    (word : before.current.kind ≠ .eof ∧ before.current.kind ≠ .int ∧ before.current.kind ≠ .float)
    (states : ∀ last : Token, last.kind = .semicolon → Stated [before.current, last] phrase)
    (failed : signal kind before = .error failure after) : Stalls Stated before failure := by
  have named := Takes.mark ended rfl word.1 word.2
  rw [signal, bind_apply, advance_apply] at failed
  rcases bind_eq_error.mp failed with unended | ⟨_, _, _, added⟩
  · obtain ⟨_, rfl, rfl⟩ := expect_eq_error.mp unended
    exact .here named rfl (@Readable.bare [.semicolon] (by decide)) (states _ (Token.kind_bare _))
  · cases added

variable (operates : Operates operand (limit + 1))
  (stalling : ∀ power : Power, power.rank ≤ Power.unary.rank →
    Stalling (Expression (.behind power)) (operand power) (limit + 1)) (fits : before.following.length ≤ limit)
include operates stalling fits

theorem assignment_stalls (failed : assignment operand before = .error failure after) :
    Stalls Stated before failure := by
  have value := Expression.filler .relational
  have first := stalling .lowest (by decide)
  -- the shortest end of an assignment: each failure leaves a part of it to be written
  have closing : Readable [.bare .assign, .bare .name, .bare .semicolon] :=
    @Readable.bare [.assign, .name, .semicolon] (by decide)
  have listed : ((Token.bare .assign).kind, Assign.plain) ∈ assignMarks := by decide
  rw [assignment, bind_apply, here_apply] at failed
  rcases bind_eq_error.mp failed with target | ⟨id, middle, target, rest⟩
  · refine (first _ _ _ ended (by omega) target).behind (.none ended) closing ?_
    exact fun tokens x derivation => ⟨_, _, .assign derivation listed value (Token.kind_bare _), rfl⟩
  · obtain ⟨left, a, takes, derivation, _⟩ := operates.sound _ _ _ ended (by omega) target
    have := takes.notLonger
    rw [bind_apply, peek_apply] at rest
    cases found : assignOf? middle.current.kind with
    | none =>
      simp only [found, unexpectedDetailed_apply] at rest
      cases rest
      exact .here takes rfl closing (Statement.assign derivation listed value (Token.kind_bare _))
    | some op =>
      obtain ⟨listed, word⟩ := assignMarks_of_assignOf? found
      have marked := Takes.mark takes.ended rfl word.1 word.2
      have := marked.shorter
      simp only [found] at rest
      rw [bind_apply, advance_apply] at rest
      rcases bind_eq_error.mp rest with valued | ⟨id', last, valued, rest⟩
      · refine (first _ _ _ marked.ended (by omega) valued).behind (takes.trans marked) closing.tail.tail ?_
        exact fun tokens x derivation' => ⟨_, _, .assign derivation listed derivation' (Token.kind_bare _), by simp⟩
      · obtain ⟨right, b, takes', derivation', _⟩ := operates.sound _ _ _ marked.ended (by omega) valued
        rcases bind_eq_error.mp rest with unended | ⟨_, _, _, added⟩
        · obtain ⟨_, rfl, rfl⟩ := expect_eq_error.mp unended
          have whole : Stated (left ++ middle.current :: (right ++ [.bare .semicolon])) (.assign a op b) :=
            .assign derivation listed derivation' (Token.kind_bare _)
          exact .here (takes.trans (marked.trans takes')) rfl closing.tail.tail (by simpa using whole)
        · cases added

theorem returning_stalls (isWord : before.current.kind = .returnWord) (enough : before.following.length ≤ bound)
    (failed : returning operand bound before = .error failure after) : Stalls Stated before failure := by
  have named := Takes.mark ended isWord (by decide) (by decide)
  have := named.shorter
  rw [returning, bind_apply, advance_apply] at failed
  rcases bind_eq_error.mp failed with listed | ⟨_, _, _, added⟩
  · have items := items_stalls operates stalling named.ended (by omega) (by decide) (by omega) listed
    refine items.2.behind named .nil ?_
    rintro _ values ⟨body, closing, rfl, closes, derivation⟩
    exact ⟨_, _, .giveBack isWord (.some derivation) closes, by simp⟩
  · cases added

theorem printing_stalls (isWord : before.current.kind = .printWord) (enough : before.following.length ≤ bound)
    (failed : printing operand bound before = .error failure after) : Stalls Stated before failure := by
  have named := Takes.mark ended isWord (by decide) (by decide)
  have := named.shorter
  rw [printing, bind_apply, advance_apply] at failed
  simp only [] at failed
  rw [bind_apply, peek_apply] at failed
  simp only [choice_apply] at failed
  split at failed
  · cases failed
    have one : Readable [.bare .name, .bare .semicolon] := @Readable.bare [.name, .semicolon] (by decide)
    exact .here named rfl one (Statement.print isWord (.last (.filler _)) (Token.kind_bare _))
  · rcases bind_eq_error.mp failed with listed | ⟨_, _, _, added⟩
    · have items := items_stalls operates stalling named.ended (by omega) (by decide) (by omega) listed
      refine items.2.behind named .nil ?_
      rintro _ values ⟨body, closing, rfl, closes, derivation⟩
      exact ⟨_, _, .print isWord derivation closes, by simp⟩
    · cases added

end

theorem sequence_stalls {body : Parse StmtId} {limit : Nat} (founded : Founded body limit)
    (stalling : Stalling Stated body limit) {closes : Kind → Prop} {loop : Nat → List StmtId → Parse (List StmtId)}
    (loops : Loops body closes loop) :
    ∀ (bound : Nat) (found : List StmtId) {before after : Parser} {failure : Failure}, Ended before.tokens →
      before.following.length < limit → loop bound found before = .error failure after →
      Stalls (Sequence Stated) before failure := by
  intro bound
  induction bound with
  | zero =>
    intro found before after failure _ _ failed
    rw [loops.exhausted] at failed
    cases failed
  | succ bound ih =>
    intro found before after failure ended fits failed
    by_cases closed : closes before.current.kind
    · rw [loops.stops bound found before closed] at failed
      cases failed
    · rw [loops.goes bound found before closed] at failed
      rcases bind_eq_error.mp failed with next | ⟨id, middle, next, others⟩
      · apply (stalling _ _ _ ended fits next).map
        intro tokens phrase stated
        have single : Sequence Stated (tokens ++ []) [phrase] := .cons stated .nil
        rw [List.append_nil] at single
        exact ⟨_, single⟩
      · obtain ⟨used, phrase, takes, stated, _⟩ := founded _ _ _ ended fits next
        have := takes.notLonger
        refine (ih _ takes.ended (by omega) others).behind takes .nil ?_
        exact fun tokens phrases sequence => ⟨_, _, .cons stated sequence, by simp⟩

/-- A body that does not prolong what stands before it need not do so when it is completed. -/
theorem Stalls.upright {parser : Parser} {failure : Failure} (stalls : Stalls Stated parser failure)
    (free : ¬prolongs parser.current) :
    Stalls (fun tokens phrase => Stated tokens phrase ∧ ∀ token ∈ tokens.head?, ¬prolongs token) parser failure := by
  obtain ⟨used, token, back, stream, place, readable, more, phrase, readable', stated⟩ := stalls
  cases used with
  | nil =>
    -- nothing has been gone over, so that any statement completes it
    exact ⟨[], token, back, stream, place, readable, _, _, .filler, .filler, filler_not_prolongs⟩
  | cons first used =>
    refine ⟨first :: used, token, back, stream, place, readable, more, phrase, readable', stated, ?_⟩
    rintro _ ⟨⟩
    rw [← Parser.current_of_tokens stream]
    exact free

section

variable {operand : Power → Parse ExprId} {body : Parse StmtId} {limit bound : Nat} {before after : Parser}
  {failure : Failure} (founded : Founded body limit) (inner : Stalling Stated body limit)
  (ended : Ended before.tokens) (fits : before.following.length ≤ limit)
include inner ended fits

include founded in
theorem block_stalls (isOpen : before.current.kind = .openCurly)
    (failed : block body bound before = .error failure after) (enough : before.following.length ≤ bound) :
    Stalls Stated before failure := by
  have skipped := Takes.mark ended isOpen (by decide) (by decide)
  have := skipped.shorter
  have closing : Readable [.bare .closeCurly] := @Readable.bare [.closeCurly] (by decide)
  rcases bind_eq_error.mp failed with unopened | ⟨_, _, opened, rest⟩
  · exact absurd isOpen (expect_eq_error.mp unopened).1
  · obtain ⟨_, rfl, rfl⟩ := expect_eq_ok.mp opened
    rcases bind_eq_error.mp rest with refused | ⟨ids, middle, listed, rest⟩
    · have sequence := sequence_stalls founded inner (blockItems_loops body) bound [] skipped.ended (by omega) refused
      refine sequence.behind skipped closing ?_
      exact fun tokens phrases derivation => ⟨_, _, .block (.mk isOpen derivation (Token.kind_bare _)), by simp⟩
    · obtain ⟨used, phrases, takes, derivation, _⟩ := sequence_sound founded (blockItems_loops body) (.inr rfl) bound
        [] ids _ middle skipped.ended (by omega) (by omega) listed
      rcases bind_eq_error.mp rest with unclosed | ⟨_, _, _, added⟩
      · obtain ⟨_, rfl, rfl⟩ := expect_eq_error.mp unclosed
        have whole : Stated (before.current :: (used ++ [.bare .closeCurly])) (.block phrases) :=
          .block (.mk isOpen derivation (Token.kind_bare _))
        exact .here (skipped.trans takes) rfl closing whole
      · cases added

variable (operates : Operates operand (limit + 1))
  (stalling : ∀ power : Power, power.rank ≤ Power.unary.rank →
    Stalling (Expression (.behind power)) (operand power) (limit + 1))
include operates stalling

omit inner in
theorem condition_stalls
    (word : before.current.kind ≠ .eof ∧ before.current.kind ≠ .int ∧ before.current.kind ≠ .float)
    {make : Term → Phrase → Phrase}
    (states : ∀ {test used : List Token} {term : Term} {phrase : Phrase},
      Enclosed (Expression .relational) .openParen .closeParen test term → Stated used phrase →
      Stated (before.current :: (test ++ used)) (make term phrase))
    (failed : condition operand before.next = .error failure after) : Stalls Stated before failure := by
  have named := Takes.mark ended rfl word.1 word.2
  have := named.shorter
  refine (group_stalls operates stalling named.ended (by omega) failed).behind named Readable.filler ?_
  exact fun tokens term enclosed => ⟨_, _, states enclosed Statement.filler, by simp⟩

theorem whileLooping_stalls (isWord : before.current.kind = .whileWord)
    (failed : whileLooping operand body before = .error failure after) : Stalls Stated before failure := by
  have named := Takes.mark ended isWord (by decide) (by decide)
  have := named.shorter
  rw [whileLooping, bind_apply, advance_apply] at failed
  rcases bind_eq_error.mp failed with tested | ⟨test, middle, tested, rest⟩
  · exact condition_stalls ended fits operates stalling (by rw [isWord]; decide) (.whileLoop isWord) tested
  · obtain ⟨left, term, takes, enclosed, _⟩ := group_sound operates named.ended (by omega) tested
    have := takes.notLonger
    rcases bind_eq_error.mp rest with begun | ⟨_, _, _, added⟩
    · refine (inner _ _ _ takes.ended (by omega) begun).behind (named.trans takes) .nil ?_
      exact fun tokens phrase stated => ⟨_, _, .whileLoop isWord enclosed stated, by simp⟩
    · cases added

theorem forLooping_stalls (isWord : before.current.kind = .forWord)
    (failed : forLooping operand body before = .error failure after) : Stalls Stated before failure := by
  have value := Expression.filler .relational
  have first := stalling .lowest (by decide)
  -- the shortest end of the loop: each failure leaves a part of it to be written
  have closing :
      Readable (.bare .name :: .bare .assign :: .bare .name :: .bare .colon :: .bare .name :: fillerTokens) :=
    @Readable.bare (.name :: .assign :: .name :: .colon :: .name :: fillerKinds) (by decide)
  have one := Takes.mark ended isWord (by decide) (by decide)
  have := one.shorter
  rw [forLooping, bind_apply, advance_apply] at failed
  rcases bind_eq_error.mp failed with unnamed | ⟨_, _, named, rest⟩
  · obtain ⟨_, rfl, rfl⟩ := expect_eq_error.mp unnamed
    exact .here one rfl closing (Statement.forRange isWord (Token.kind_bare _) (Token.kind_bare _) value
      (Token.kind_bare _) value .filler filler_not_prolongs)
  obtain ⟨isName, rfl, rfl⟩ := expect_eq_ok.mp named
  have two := Takes.mark one.ended isName (by decide) (by decide)
  have := two.shorter
  rcases bind_eq_error.mp rest with unmarked | ⟨_, _, marked, rest⟩
  · obtain ⟨_, rfl, rfl⟩ := expect_eq_error.mp unmarked
    exact .here (one.trans two) rfl closing.tail (Statement.forRange isWord isName (Token.kind_bare _) value
      (Token.kind_bare _) value .filler filler_not_prolongs)
  obtain ⟨isMark, rfl, rfl⟩ := expect_eq_ok.mp marked
  have three := Takes.mark two.ended isMark (by decide) (by decide)
  have := three.shorter
  have header := one.trans (two.trans three)
  rcases bind_eq_error.mp rest with started | ⟨start, middle, started, rest⟩
  · refine (first _ _ _ three.ended (by omega) started).behind header closing.tail.tail.tail ?_
    exact fun tokens a derivation => ⟨_, _, .forRange isWord isName isMark derivation (Token.kind_bare _) value .filler
      filler_not_prolongs, by simp⟩
  obtain ⟨left, a, takes, derivation, _⟩ := operates.sound _ _ _ three.ended (by omega) started
  have := takes.notLonger
  rcases bind_eq_error.mp rest with uncoloned | ⟨_, _, coloned, rest⟩
  · obtain ⟨_, rfl, rfl⟩ := expect_eq_error.mp uncoloned
    exact .here (header.trans takes) rfl closing.tail.tail.tail (Statement.forRange isWord isName isMark derivation
      (Token.kind_bare _) value .filler filler_not_prolongs)
  obtain ⟨isColon, rfl, rfl⟩ := expect_eq_ok.mp coloned
  have skipped := Takes.mark takes.ended isColon (by decide) (by decide)
  have := skipped.shorter
  have ranging := header.trans (takes.trans skipped)
  rcases bind_eq_error.mp rest with stopped | ⟨stop, third, stopped, rest⟩
  · refine (first _ _ _ skipped.ended (by omega) stopped).behind ranging Readable.filler ?_
    exact fun tokens b derivation' => ⟨_, _, .forRange isWord isName isMark derivation isColon derivation' .filler
      filler_not_prolongs, by simp⟩
  obtain ⟨right, b, takes', derivation', loose, _⟩ :=
    operates .lowest _ _ _ (by decide) skipped.ended (by omega) stopped
  have := takes'.notLonger
  rcases bind_eq_error.mp rest with ⟨⟨⟩⟩ | ⟨range, ranged, added, rest⟩
  simp only [addRange, bind_apply, exprSpan_apply, addExpr_apply] at added
  cases added
  have room : third.following.length < limit := by omega
  rcases bind_eq_error.mp rest with begun | ⟨_, _, _, added⟩
  · -- the range has been added to the tree, but nothing was taken for it
    have repeated := inner _ _ _ (by exact takes'.ended) (by exact room) begun
    change Stalls Stated third failure at repeated
    refine (repeated.upright (not_prolongs_of_loose loose)).behind (ranging.trans takes') .nil ?_
    rintro tokens phrase ⟨stated, starts⟩
    exact ⟨_, _, .forRange isWord isName isMark derivation isColon derivation' stated starts, by simp⟩
  · cases added

include founded

theorem branching_stalls (isWord : before.current.kind = .ifWord)
    (failed : branching operand body before = .error failure after) : Stalls Stated before failure := by
  have named := Takes.mark ended isWord (by decide) (by decide)
  have := named.shorter
  rw [branching, bind_apply, advance_apply] at failed
  rcases bind_eq_error.mp failed with tested | ⟨test, middle, tested, rest⟩
  · exact condition_stalls ended fits operates stalling (by rw [isWord]; decide) (.branch isWord) tested
  · obtain ⟨left, term, takes, enclosed, _⟩ := group_sound operates named.ended (by omega) tested
    have := takes.notLonger
    rcases bind_eq_error.mp rest with begun | ⟨first, last, begun, rest⟩
    · refine (inner _ _ _ takes.ended (by omega) begun).behind (named.trans takes) .nil ?_
      exact fun tokens phrase stated => ⟨_, _, .branch isWord enclosed stated, by simp⟩
    · obtain ⟨right, phrase, takes', stated, closed⟩ := founded _ _ _ takes.ended (by omega) begun
      have := takes'.notLonger
      rw [bind_apply, peek_apply] at rest
      simp only [choice_apply] at rest
      split at rest
      · next isElse =>
        -- a branch that is still open would have taken the `else`
        have done : phrase.endsOpen = false := by
          cases ends : phrase.endsOpen with
          | false => rfl
          | true => exact absurd isElse (closed ends)
        have skipped := Takes.mark takes'.ended isElse (by decide) (by decide)
        have := skipped.shorter
        rw [bind_apply, advance_apply] at rest
        rcases bind_eq_error.mp rest with continued | ⟨_, _, _, added⟩
        · have whole := named.trans (takes.trans (takes'.trans skipped))
          refine (inner _ _ _ skipped.ended (by omega) continued).behind whole .nil ?_
          exact fun tokens phrase' stated' => ⟨_, _, .branchElse isWord enclosed stated done isElse stated', by simp⟩
        · cases added
      · cases rest

end

theorem statementWithin_stalls (depth : Nat) : Stalling Stated (statementWithin depth) depth := by
  induction depth with
  | zero =>
    intro before failure after _ fits _
    exact absurd fits (Nat.not_lt_zero _)
  | succ depth ih =>
    intro before failure after ended fits failed
    have founded := statementWithin_founded depth
    have operates := expressionWithin_operates (depth + 1)
    have stalling := expressionWithin_stalls (depth + 1)
    have within : before.following.length ≤ depth := Nat.le_of_lt_succ fits
    cases kind : before.current.kind with
    | openCurly =>
      rw [statementWithin_apply kind rfl] at failed
      exact block_stalls founded ih ended within kind failed (Nat.le_succ_of_le within)
    | ifWord =>
      rw [statementWithin_apply kind rfl] at failed
      exact branching_stalls founded ih ended within operates stalling kind failed
    | whileWord =>
      rw [statementWithin_apply kind rfl] at failed
      exact whileLooping_stalls ih ended within operates stalling kind failed
    | forWord =>
      rw [statementWithin_apply kind rfl] at failed
      exact forLooping_stalls ih ended within operates stalling kind failed
    | breakWord =>
      rw [statementWithin_apply kind rfl] at failed
      exact signal_stalls ended (by rw [kind]; decide) (fun _ => .breakLoop kind) failed
    | continueWord =>
      rw [statementWithin_apply kind rfl] at failed
      exact signal_stalls ended (by rw [kind]; decide) (fun _ => .continueLoop kind) failed
    | returnWord =>
      rw [statementWithin_apply kind rfl] at failed
      exact returning_stalls ended operates stalling within kind (Nat.le_succ_of_le within) failed
    | printWord =>
      rw [statementWithin_apply kind rfl] at failed
      exact printing_stalls ended operates stalling within kind (Nat.le_succ_of_le within) failed
    | _ =>
      rw [statementWithin_apply kind rfl] at failed
      exact assignment_stalls ended operates stalling within failed

theorem program_stalls {before after : Parser} {failure : Failure} (ended : Ended before.tokens)
    (failed : program before = .error failure after) : Stalls (Sequence Stated) before failure := by
  rw [program, bind_apply, get_apply] at failed
  rcases bind_eq_error.mp failed with refused | ⟨_, _, _, returned⟩
  · exact sequence_stalls (statementWithin_founded _) (statementWithin_stalls _) (statementsFrom_loops _) _ [] ended
      (Nat.lt_succ_self _) refused
  · cases returned

end MatrixScript.Grammar
