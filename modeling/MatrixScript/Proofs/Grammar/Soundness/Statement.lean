import MatrixScript.Proofs.Grammar.Completeness.Statement
import MatrixScript.Proofs.Grammar.Soundness.Expression

/-! Whatever program is parsed is derived by the grammar. -/

set_option autoImplicit false

namespace MatrixScript.Grammar

open Parse

/-- A parser has gone over a statement, and no `else` follows that a branch in it could take. -/
def States (before after : Parser) : Prop :=
  ∃ used phrase, Takes before after used ∧ Stated used phrase ∧
    (phrase.endsOpen = true → after.current.kind ≠ .elseWord)

def Founded (action : Parse StmtId) (limit : Nat) : Prop :=
  ∀ before id after, Ended before.tokens → before.following.length < limit → action before = .ok id after →
    States before after

theorem Takes.addStmt {before after : Parser} {used : List Token} (takes : Takes before after used)
    (kind : StmtKind) (span : Span) :
    Takes before { after with tree := (after.tree.addStmt kind span).2 } used :=
  ⟨takes.tokens, takes.ended, takes.readable⟩

theorem assignMarks_of_assignOf? {kind : Kind} {op : Assign} (found : assignOf? kind = some op) :
    (kind, op) ∈ assignMarks ∧ kind ≠ .eof ∧ kind ≠ .int ∧ kind ≠ .float := by
  cases kind <;> cases found <;> decide

section

variable {operand : Power → Parse ExprId} {limit bound : Nat} {before after : Parser} {id : StmtId}
  (ended : Ended before.tokens)
include ended

theorem signal_sound {kind : StmtKind} {phrase : Phrase} (closed : phrase.endsOpen = false)
    (word : before.current.kind ≠ .eof ∧ before.current.kind ≠ .int ∧ before.current.kind ≠ .float)
    (states : ∀ last : Token, last.kind = .semicolon → Stated [before.current, last] phrase)
    (parsed : signal kind before = .ok id after) : States before after := by
  rw [signal, bind_apply, advance_apply] at parsed
  obtain ⟨_, next, expected, rest⟩ := bind_eq_ok.mp parsed
  obtain ⟨ends, rfl, rfl⟩ := expect_eq_ok.mp expected
  simp only [bind_apply, spanFrom_apply, addStmt_apply] at rest
  cases rest
  have named := Takes.mark ended rfl word.1 word.2
  have whole := named.trans (.mark named.ended ends (by decide) (by decide))
  exact ⟨_, phrase, whole.addStmt _ _, states _ ends, by simp [closed]⟩

variable (operates : Operates operand (limit + 1)) (fits : before.following.length ≤ limit)
include operates fits

theorem assignment_sound (parsed : assignment operand before = .ok id after) : States before after := by
  rw [assignment, bind_apply, here_apply] at parsed
  obtain ⟨target, first, begun, rest⟩ := bind_eq_ok.mp parsed
  obtain ⟨left, a, takes, derivation, _⟩ := operates.sound _ _ _ ended (by omega) begun
  rw [bind_apply, peek_apply] at rest
  cases found : assignOf? first.current.kind with
  | none =>
    simp only [found, unexpectedDetailed_apply] at rest
    cases rest
  | some op =>
    obtain ⟨listed, word⟩ := assignMarks_of_assignOf? found
    simp only [found] at rest
    rw [bind_apply, advance_apply] at rest
    obtain ⟨value, second, valued, rest⟩ := bind_eq_ok.mp rest
    obtain ⟨_, last, expected, rest⟩ := bind_eq_ok.mp rest
    obtain ⟨ends, rfl, rfl⟩ := expect_eq_ok.mp expected
    simp only [bind_apply, spanFrom_apply, addStmt_apply] at rest
    cases rest
    have marked := Takes.mark takes.ended rfl word.1 word.2
    have := takes.following
    have := marked.following
    obtain ⟨right, b, takes', derivation', _⟩ := operates.sound _ _ _ marked.ended (by omega) valued
    have closed := Takes.mark takes'.ended ends (by decide) (by decide)
    have whole := takes.trans (marked.trans (takes'.trans closed))
    exact ⟨_, _, whole.addStmt _ _, .assign derivation listed derivation' ends, fun isOpen => by cases isOpen⟩

theorem returning_sound (isWord : before.current.kind = .returnWord) (enough : before.following.length ≤ bound)
    (parsed : returning operand bound before = .ok id after) : States before after := by
  rw [returning, bind_apply, advance_apply] at parsed
  obtain ⟨ids, middle, listed, rest⟩ := bind_eq_ok.mp parsed
  simp only [bind_apply, spanFrom_apply, addStmt_apply] at rest
  cases rest
  have named := Takes.mark ended isWord (by decide) (by decide)
  have := named.following
  obtain ⟨used, values, closing, takes, derivation, closes, _⟩ :=
    items_sound operates (by decide) (by decide) named.ended (by omega) (by omega) listed
  have whole := named.trans takes
  exact ⟨_, _, whole.addStmt _ _, .giveBack isWord derivation closes, fun isOpen => by cases isOpen⟩

theorem printing_sound (isWord : before.current.kind = .printWord) (enough : before.following.length ≤ bound)
    (parsed : printing operand bound before = .ok id after) : States before after := by
  rw [printing, bind_apply, advance_apply] at parsed
  simp only [] at parsed
  rw [bind_apply, peek_apply] at parsed
  simp only [choice_apply] at parsed
  split at parsed
  · cases parsed
  · next some =>
    obtain ⟨ids, middle, listed, rest⟩ := bind_eq_ok.mp parsed
    simp only [bind_apply, spanFrom_apply, addStmt_apply] at rest
    cases rest
    have named := Takes.mark ended isWord (by decide) (by decide)
    have := named.following
    obtain ⟨used, values, closing, takes, _, closes, derivation⟩ :=
      items_sound operates (by decide) (by decide) named.ended (by omega) (by omega) listed
    have whole := named.trans takes
    exact ⟨_, _, whole.addStmt _ _, .print isWord (derivation some) closes, fun isOpen => by cases isOpen⟩

end

theorem sequence_sound {body : Parse StmtId} {limit : Nat} (founded : Founded body limit) {closes : Kind → Prop}
    {loop : Nat → List StmtId → Parse (List StmtId)} (loops : Loops body closes loop) (ends : closes .eof) :
    ∀ (bound : Nat) (found ids : List StmtId) (before after : Parser), Ended before.tokens →
      before.following.length < limit → before.following.length ≤ bound →
      loop bound found before = .ok ids after →
      ∃ used phrases, Takes before after used ∧ Sequence Stated used phrases ∧ closes after.current.kind := by
  intro bound
  induction bound with
  | zero =>
    intro found ids before after ended _ enough parsed
    rw [loops.exhausted] at parsed
    cases parsed
    refine ⟨[], [], ⟨rfl, ended, fun _ member => nomatch member⟩, .nil, ?_⟩
    -- only the end token is left, and it closes every loop
    rw [ended.current (List.length_eq_zero_iff.mp (Nat.le_zero.mp enough))]
    exact ends
  | succ bound ih =>
    intro found ids before after ended fits enough parsed
    by_cases closed : closes before.current.kind
    · rw [loops.stops bound found before closed] at parsed
      cases parsed
      exact ⟨[], [], ⟨rfl, ended, fun _ member => nomatch member⟩, .nil, closed⟩
    · rw [loops.goes bound found before closed] at parsed
      obtain ⟨next, middle, begun, rest⟩ := bind_eq_ok.mp parsed
      obtain ⟨used, phrase, takes, derivation, _⟩ := founded _ _ _ ended fits begun
      have := takes.following
      have := derivation.begins.pos
      obtain ⟨others, phrases, takes', sequence, closed⟩ :=
        ih _ _ _ _ takes.ended (by omega) (by omega) rest
      exact ⟨_, _, takes.trans takes', .cons derivation sequence, closed⟩

theorem not_prolongs_of_loose {token : Token} (loose : Loose .lowest token.kind) : ¬prolongs token := by
  rintro (kind | kind) <;> rw [kind] at loose <;> revert loose <;> decide

section

variable {operand : Power → Parse ExprId} {body : Parse StmtId} {limit bound : Nat} {before after : Parser}
  {id : StmtId} (founded : Founded body limit) (ended : Ended before.tokens)
  (fits : before.following.length ≤ limit)
include founded ended fits

theorem block_sound (enough : before.following.length ≤ bound) (parsed : block body bound before = .ok id after) :
    States before after := by
  obtain ⟨_, first, opened, rest⟩ := bind_eq_ok.mp parsed
  obtain ⟨opens, rfl, rfl⟩ := expect_eq_ok.mp opened
  obtain ⟨ids, second, listed, rest⟩ := bind_eq_ok.mp rest
  obtain ⟨_, last, expected, rest⟩ := bind_eq_ok.mp rest
  obtain ⟨closes, rfl, rfl⟩ := expect_eq_ok.mp expected
  simp only [bind_apply, spanFrom_apply, addStmt_apply] at rest
  cases rest
  have skipped := Takes.mark ended opens (by decide) (by decide)
  have := skipped.following
  simp only [List.length_singleton] at this
  obtain ⟨used, phrases, takes, sequence, _⟩ :=
    sequence_sound founded (blockItems_loops body) (.inr rfl) bound [] ids before.next second skipped.ended (by omega)
      (by omega) listed
  have whole := skipped.trans (takes.trans (.mark takes.ended closes (by decide) (by decide)))
  exact ⟨_, _, whole.addStmt _ _, .block (.mk opens sequence closes), fun isOpen => by cases isOpen⟩

variable (operates : Operates operand (limit + 1))
include operates

theorem headed_sound {test : ExprId} {first : StmtId} {middle : Parser}
    (word : before.current.kind ≠ .eof ∧ before.current.kind ≠ .int ∧ before.current.kind ≠ .float)
    (tested : condition operand before.next = .ok test middle) (begun : body middle = .ok first after) :
    ∃ left right term phrase, Takes before after (before.current :: (left ++ right)) ∧
      Enclosed (Expression .relational) .openParen .closeParen left term ∧ Stated right phrase ∧
      (phrase.endsOpen = true → after.current.kind ≠ .elseWord) ∧
      after.following.length < before.following.length := by
  have named := Takes.mark ended rfl word.1 word.2
  have := named.following
  simp only [List.length_singleton] at this
  obtain ⟨left, term, takes, enclosed, _⟩ := group_sound operates named.ended (by omega) tested
  have := takes.following
  obtain ⟨right, phrase, takes', derivation, closed⟩ := founded _ _ _ takes.ended (by omega) begun
  have := takes'.following
  exact ⟨left, right, term, phrase, named.trans (takes.trans takes'), enclosed, derivation, closed, by omega⟩

theorem whileLooping_sound (isWord : before.current.kind = .whileWord)
    (parsed : whileLooping operand body before = .ok id after) : States before after := by
  rw [whileLooping, bind_apply, advance_apply] at parsed
  obtain ⟨test, middle, tested, rest⟩ := bind_eq_ok.mp parsed
  obtain ⟨first, last, begun, rest⟩ := bind_eq_ok.mp rest
  simp only [bind_apply, spanFrom_apply, addStmt_apply] at rest
  cases rest
  obtain ⟨left, right, term, phrase, takes, enclosed, derivation, closed, _⟩ :=
    headed_sound founded ended fits operates (by rw [isWord]; decide) tested begun
  exact ⟨_, _, takes.addStmt _ _, .whileLoop isWord enclosed derivation, closed⟩

theorem branching_sound (isWord : before.current.kind = .ifWord)
    (parsed : branching operand body before = .ok id after) : States before after := by
  rw [branching, bind_apply, advance_apply] at parsed
  obtain ⟨test, middle, tested, rest⟩ := bind_eq_ok.mp parsed
  obtain ⟨first, last, begun, rest⟩ := bind_eq_ok.mp rest
  obtain ⟨left, right, term, phrase, takes, enclosed, derivation, closed, shorter⟩ :=
    headed_sound founded ended fits operates (by rw [isWord]; decide) tested begun
  rw [bind_apply, peek_apply] at rest
  simp only [choice_apply] at rest
  split at rest
  · next isElse =>
    rw [bind_apply, advance_apply] at rest
    obtain ⟨second, final, continued, rest⟩ := bind_eq_ok.mp rest
    simp only [bind_apply, spanFrom_apply, addStmt_apply] at rest
    cases rest
    have skipped := Takes.mark takes.ended isElse (by decide) (by decide)
    have := skipped.following
    obtain ⟨others, elsePhrase, takes', derivation', closed'⟩ := founded _ _ _ skipped.ended (by omega) continued
    -- a branch that is still open would have taken the `else`
    have done : phrase.endsOpen = false := by
      cases ends : phrase.endsOpen with
      | false => rfl
      | true => exact absurd isElse (closed ends)
    have whole := takes.trans (skipped.trans takes')
    simp only [List.cons_append, List.append_assoc, List.nil_append] at whole
    exact ⟨_, _, whole.addStmt _ _, .branchElse isWord enclosed derivation done isElse derivation', closed'⟩
  · next other =>
    simp only [bind_apply, spanFrom_apply, addStmt_apply] at rest
    cases rest
    exact ⟨_, _, takes.addStmt _ _, .branch isWord enclosed derivation, fun _ => other⟩

theorem forLooping_sound (isWord : before.current.kind = .forWord)
    (parsed : forLooping operand body before = .ok id after) : States before after := by
  rw [forLooping, bind_apply, advance_apply] at parsed
  obtain ⟨_, _, expected, rest⟩ := bind_eq_ok.mp parsed
  obtain ⟨isName, rfl, rfl⟩ := expect_eq_ok.mp expected
  obtain ⟨_, _, expected', rest⟩ := bind_eq_ok.mp rest
  obtain ⟨isMark, rfl, rfl⟩ := expect_eq_ok.mp expected'
  obtain ⟨start, second, started, rest⟩ := bind_eq_ok.mp rest
  obtain ⟨_, _, expected'', rest⟩ := bind_eq_ok.mp rest
  obtain ⟨isColon, rfl, rfl⟩ := expect_eq_ok.mp expected''
  obtain ⟨stop, third, stopped, rest⟩ := bind_eq_ok.mp rest
  obtain ⟨range, ranged, added, rest⟩ := bind_eq_ok.mp rest
  obtain ⟨inner, last, begun, rest⟩ := bind_eq_ok.mp rest
  simp only [bind_apply, spanFrom_apply, addStmt_apply] at rest
  cases rest
  simp only [addRange, bind_apply, exprSpan_apply, addExpr_apply] at added
  cases added
  have one := Takes.mark ended isWord (by decide) (by decide)
  have two := Takes.mark one.ended isName (by decide) (by decide)
  have three := Takes.mark two.ended isMark (by decide) (by decide)
  have header := one.trans (two.trans three)
  have := header.following
  simp only [List.length_append, List.length_singleton] at this
  obtain ⟨left, a, takes, derivation, _⟩ := operates.sound _ _ _ header.ended (by omega) started
  have skipped := Takes.mark takes.ended isColon (by decide) (by decide)
  have := takes.following
  have := skipped.following
  obtain ⟨right, b, takes', derivation', loose, _⟩ :=
    operates .lowest _ _ _ (by decide) skipped.ended (by omega) stopped
  have := takes'.following
  have room : third.following.length < limit := by omega
  obtain ⟨used, phrase, taken, stated, closed⟩ := founded _ _ _ (by exact takes'.ended) (by exact room) begun
  have final : Takes third last used := ⟨taken.tokens, taken.ended, taken.readable⟩
  have whole := header.trans (takes.trans (skipped.trans (takes'.trans final)))
  simp only [List.cons_append, List.nil_append] at whole
  refine ⟨_, _, whole.addStmt _ _, .forRange isWord isName isMark derivation isColon derivation' stated ?_, closed⟩
  intro token member prolonging
  -- the body begins with the token that the upper bound ended in front of
  have stands : third.current = token := by
    have stream := final.tokens
    obtain ⟨first, others, rfl, _⟩ := stated.begins
    rw [Parser.current_of_tokens stream]
    exact Option.some.inj member
  rw [stands] at loose
  exact not_prolongs_of_loose loose prolonging

end

/-- What is parsed as a statement is derived, by induction on how deeply statements may nest. -/
theorem statementWithin_founded (depth : Nat) : Founded (statementWithin depth) depth := by
  induction depth with
  | zero =>
    intro before id after _ fits _
    exact absurd fits (Nat.not_lt_zero _)
  | succ depth ih =>
    intro before id after ended fits parsed
    have operates := expressionWithin_operates (depth + 1)
    have within : before.following.length ≤ depth := Nat.le_of_lt_succ fits
    cases kind : before.current.kind with
    | openCurly =>
      rw [statementWithin_apply kind rfl] at parsed
      exact block_sound ih ended within (Nat.le_succ_of_le within) parsed
    | ifWord =>
      rw [statementWithin_apply kind rfl] at parsed
      exact branching_sound ih ended within operates kind parsed
    | whileWord =>
      rw [statementWithin_apply kind rfl] at parsed
      exact whileLooping_sound ih ended within operates kind parsed
    | forWord =>
      rw [statementWithin_apply kind rfl] at parsed
      exact forLooping_sound ih ended within operates kind parsed
    | breakWord =>
      rw [statementWithin_apply kind rfl] at parsed
      exact signal_sound ended rfl (by rw [kind]; decide) (fun _ => .breakLoop kind) parsed
    | continueWord =>
      rw [statementWithin_apply kind rfl] at parsed
      exact signal_sound ended rfl (by rw [kind]; decide) (fun _ => .continueLoop kind) parsed
    | returnWord =>
      rw [statementWithin_apply kind rfl] at parsed
      exact returning_sound ended operates within kind (Nat.le_succ_of_le within) parsed
    | printWord =>
      rw [statementWithin_apply kind rfl] at parsed
      exact printing_sound ended operates within kind (Nat.le_succ_of_le within) parsed
    | _ =>
      rw [statementWithin_apply kind rfl] at parsed
      exact assignment_sound ended operates within parsed

theorem program_sound {before after : Parser} {tree : Tree} (ended : Ended before.tokens)
    (parsed : program before = .ok tree after) :
    ∃ used phrases, Takes before after used ∧ Sequence Stated used phrases ∧ after.current.kind = .eof := by
  rw [program, bind_apply, get_apply] at parsed
  obtain ⟨ids, last, listed, rest⟩ := bind_eq_ok.mp parsed
  cases rest
  exact sequence_sound (statementWithin_founded _) (statementsFrom_loops _) rfl _ [] ids before after ended
    (Nat.lt_succ_self _) (Nat.le_succ _) listed

end MatrixScript.Grammar
