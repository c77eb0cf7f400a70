import MatrixScript.Proofs.Grammar.Soundness.Statement
import MatrixScript.Token.Scan

/-! The parser accepts the language of the grammar, and builds the derived syntax tree. -/

set_option autoImplicit false

namespace MatrixScript.Grammar

def Finished (tokens : List Token) : Prop :=
  ∃ front last, tokens = front ++ [last] ∧ (last.kind = .semicolon ∨ last.kind = .closeCurly)

theorem Finished.append {tokens : List Token} (finished : Finished tokens) (before : List Token) :
    Finished (before ++ tokens) := by
  obtain ⟨front, last, rfl, kind⟩ := finished
  exact ⟨before ++ front, last, by rw [List.append_assoc], kind⟩

theorem Statement.finished {starts : Token → Prop} {tokens : List Token} {phrase : Phrase}
    (derivation : Statement starts tokens phrase) : Finished tokens := by
  induction size : tokens.length using Nat.strongRecOn generalizing tokens phrase with
  | ind n ih =>
    subst size
    cases derivation with
    | block enclosed =>
      obtain ⟨_, _, closes⟩ := enclosed
      exact ⟨_ :: _, _, rfl, .inr closes⟩
    | @assign mark last _ left right _ _ _ _ _ ends => exact ⟨left ++ mark :: right, last, by simp, .inl ends⟩
    | @forRange word counter mark colon first second rest _ _ _ _ _ _ _ _ _ body _ =>
      have inner := ih _ (by simp only [List.length_cons, List.length_append]; omega) body rfl
      have whole := inner.append (word :: counter :: mark :: (first ++ colon :: second))
      simpa using whole
    | @whileLoop word test rest _ _ _ _ body | @branch word test rest _ _ _ _ body =>
      have inner := ih _ (by simp only [List.length_cons, List.length_append]; omega) body rfl
      exact inner.append (word :: test)
    | @branchElse word other test rest last _ _ _ _ _ _ _ _ body =>
      have inner := ih _ (by simp only [List.length_cons, List.length_append]; omega) body rfl
      have whole := inner.append (word :: (test ++ (rest ++ [other])))
      simpa using whole
    | breakLoop _ ends | continueLoop _ ends => exact ⟨[_], _, rfl, .inl ends⟩
    | giveBack _ _ ends | print _ _ ends => exact ⟨_ :: _, _, rfl, .inl ends⟩

theorem Sequence.finished {starts : Token → Prop} {tokens : List Token} {phrases : List Phrase}
    (sequence : Sequence (Statement starts) tokens phrases) : tokens = [] ∨ Finished tokens := by
  induction sequence with
  | nil => exact .inl rfl
  | cons derivation _ ih =>
    rcases ih with rfl | finished
    · rw [List.append_nil]
      exact .inr derivation.finished
    · exact .inr (finished.append _)

theorem start_tokens (tokens : List Token) :
    ∃ front last, (Parser.start tokens).tokens = front ++ [last] ∧ last.kind = .eof ∧
      (tokens = front ++ [last] ∨ tokens = front ∧ ∀ token ∈ tokens.getLast?, token.kind ≠ .eof) := by
  cases tokens with
  | nil => exact ⟨[], _, rfl, rfl, .inr ⟨rfl, fun _ member => nomatch member⟩⟩
  | cons first rest =>
    have last : (first :: rest).getLast? = some (rest.getLastD first) := by
      rw [List.getLast?_cons, List.getLastD_eq_getLast?]
    by_cases ends : (rest.getLastD first).kind = .eof
    · obtain ⟨front, same⟩ := List.getLast?_eq_some_iff.mp last
      refine ⟨front, rest.getLastD first, ?_, ends, .inl same⟩
      simp only [Parser.start, Parser.tokens, ends, if_true, List.append_nil]
      exact same
    · refine ⟨first :: rest, Token.atEnd (rest.getLastD first).span.stop, ?_, rfl, .inr ⟨rfl, ?_⟩⟩
      · simp only [Parser.start, Parser.tokens, ends, if_false, List.cons_append]
      · intro token member
        rw [last] at member
        cases member
        exact ends

theorem Ended.append {last : Token} (ends : last.kind = .eof) : ∀ front : List Token, Ended (front ++ [last])
  | [] => .last ends
  | _ :: front => .more (append ends front)

theorem ended_start (tokens : List Token) : Ended (Parser.start tokens).tokens := by
  obtain ⟨front, last, stream, isEnd, _⟩ := start_tokens tokens
  rw [stream]
  exact .append isEnd front

theorem start_extends (tokens : List Token) : ∃ more, (Parser.start tokens).tokens = tokens ++ more := by
  obtain ⟨front, last, stream, _, rfl | ⟨rfl, _⟩⟩ := start_tokens tokens
  · exact ⟨[], by rw [stream, List.append_nil]⟩
  · exact ⟨[last], stream⟩

theorem start_of_ended {last : Token} (isEnd : last.kind = .eof) (front : List Token) :
    (Parser.start (front ++ [last])).tokens = front ++ [last] := by
  obtain ⟨front', last', stream, _, given | ⟨_, unended⟩⟩ := start_tokens (front ++ [last])
  · rw [stream, given]
  · rw [List.getLast?_concat] at unended
    exact absurd isEnd (unended _ rfl)

theorem parse_eq_ok {tokens : List Token} {tree : Tree} :
    parse tokens = .ok tree ↔ ∃ after, program (Parser.start tokens) = .ok tree after := by
  unfold parse EStateM.run
  cases program (Parser.start tokens) with
  | ok value after => simp
  | error failure after => simp

theorem parse_eq_error {tokens : List Token} {failure : Failure} :
    parse tokens = .error failure ↔ ∃ after, program (Parser.start tokens) = .error failure after := by
  unfold parse EStateM.run
  cases program (Parser.start tokens) with
  | ok value after => simp
  | error failure after => simp

@[simp] theorem tree_start (tokens : List Token) : (Parser.start tokens).tree = {} := by
  cases tokens <;> rfl

theorem parse_of_sequence {tokens used rest : List Token} {last : Token} {body : List Phrase}
    (sequence : Sequence Stated used body) (isEnd : last.kind = .eof) (readable : Readable used)
    (stream : (Parser.start tokens).tokens = used ++ last :: rest) :
    ∃ tree, parse tokens = .ok tree ∧ tree.Represents body ∧ tree.exprs.size ≤ used.length := by
  obtain ⟨tree, after, done, _, few, layout⟩ := program_completes sequence isEnd readable stream
  rw [tree_start] at few layout
  refine ⟨tree, parse_eq_ok.mpr ⟨after, done⟩, layout, Nat.le_trans few ?_⟩
  exact Nat.le_of_eq (Nat.zero_add _)

theorem sequence_of_parse {tokens : List Token} {tree : Tree} (parsed : parse tokens = .ok tree) :
    ∃ used last rest body, (Parser.start tokens).tokens = used ++ last :: rest ∧ last.kind = .eof ∧
      Readable used ∧ Sequence Stated used body := by
  obtain ⟨after, done⟩ := parse_eq_ok.mp parsed
  obtain ⟨used, body, takes, sequence, stopped⟩ := program_sound (ended_start tokens) done
  exact ⟨used, after.current, after.following, body, takes.tokens, stopped, takes.readable, sequence⟩

end Grammar

/-- Every parsed tree is that of a program, with no more expressions than tokens. -/
theorem parse_represents {tokens : List Token} {tree : Tree} (parsed : parse tokens = .ok tree) :
    ∃ body, tree.Represents body ∧ tree.exprs.size ≤ tokens.length := by
  obtain ⟨used, token, rest, body, stream, isEnd, readable, sequence⟩ := Grammar.sequence_of_parse parsed
  obtain ⟨tree', parsed', represents, few⟩ := Grammar.parse_of_sequence sequence isEnd readable stream
  rw [parsed] at parsed'
  cases parsed'
  refine ⟨body, represents, Nat.le_trans few ?_⟩
  obtain ⟨front, last, same, _, given⟩ := Grammar.start_tokens tokens
  have count := congrArg List.length (stream.symm.trans same)
  simp only [List.length_append, List.length_cons, List.length_nil] at count
  have room : front.length ≤ tokens.length := by
    rcases given with rfl | ⟨rfl, _⟩
    · simp
    · exact Nat.le_refl _
  omega

theorem Grammar.append_eof {used front rest : List Token} {token last : Token}
    (same : used ++ token :: rest = front ++ [last]) (isEnd : token.kind = .eof)
    (others : ∀ other ∈ front, other.kind ≠ .eof) : used = front ∧ token = last := by
  rcases List.append_eq_append_iff.mp same with ⟨more, rfl, tail⟩ | ⟨more, rfl, tail⟩
  · cases more with
    | nil => exact ⟨(List.append_nil _).symm, (List.cons.inj tail).1⟩
    | cons first more =>
      obtain ⟨rfl, _⟩ := List.cons.inj tail
      exact absurd isEnd (others _ (by simp))
  · cases more with
    | nil => exact ⟨List.append_nil _, (List.cons.inj tail).1.symm⟩
    | cons first more => simp at tail

section

variable {tokens : List Token} (ends : ∀ token ∈ tokens.dropLast, token.kind ≠ .eof)
include ends

theorem Grammar.sentence_iff (body : List Phrase) {front : List Token} {last : Token}
    (isEnd : last.kind = .eof)
    (given : tokens = front ++ [last] ∨ tokens = front ∧ ∀ token ∈ tokens.getLast?, token.kind ≠ .eof) :
    (∀ token ∈ front, token.kind ≠ .eof) ∧
      (Sentence (fun token => ¬prolongs token) tokens body ↔ Sequence Stated front body) := by
  rcases given with rfl | ⟨rfl, other⟩
  · rw [List.dropLast_concat] at ends
    refine ⟨ends, ?_, fun sequence => .ended sequence isEnd⟩
    intro sentence
    generalize whole : front ++ [last] = tokens at sentence
    cases sentence with
    | ended sequence _ =>
      obtain ⟨rfl, _⟩ := List.append_inj' whole rfl
      exact sequence
    | unended sequence =>
      subst whole
      -- a statement ends with a semicolon or a bracket, never with the end token
      rcases sequence.finished with none | ⟨_, closing, same, kind⟩
      · simp at none
      · obtain ⟨_, same⟩ := List.append_inj' same rfl
        obtain ⟨rfl, _⟩ := List.cons.inj same
        rcases kind with kind | kind <;> rw [kind] at isEnd <;> cases isEnd
  · have all : ∀ token ∈ tokens, token.kind ≠ .eof := by
      cases found : tokens.getLast? with
      | none =>
        rw [List.getLast?_eq_none_iff.mp found]
        exact fun _ member => nomatch member
      | some final =>
        obtain ⟨front, rfl⟩ := List.getLast?_eq_some_iff.mp found
        rw [List.dropLast_concat] at ends
        intro token member
        rcases List.mem_append.mp member with member | member
        · exact ends token member
        · rw [List.mem_singleton.mp member]
          exact other final found
    refine ⟨all, ?_, .unended⟩
    intro sentence
    cases sentence with
    | @ended tokens closing _ sequence isEnd => exact absurd isEnd (all closing (by simp))
    | unended sequence => exact sequence

end

/-- The parser accepts a list of tokens with at most one end token, its last, exactly when its numbers can be read
and the grammar derives it. Its tree is then the derived one. -/
theorem parse_accepts_language {tokens : List Token} (ends : ∀ token ∈ tokens.dropLast, token.kind ≠ .eof) :
    ((∃ tree, parse tokens = .ok tree) ↔
      Grammar.Readable tokens ∧ ∃ body, Grammar.Sentence (fun token => ¬Grammar.prolongs token) tokens body) ∧
    ∀ tree body, parse tokens = .ok tree → Grammar.Sentence (fun token => ¬Grammar.prolongs token) tokens body →
      tree.Represents body := by
  obtain ⟨front, last, stream, isEnd, given⟩ := Grammar.start_tokens tokens
  have derived (body : List Grammar.Phrase) := Grammar.sentence_iff ends body isEnd given
  have sound {tree : Tree} (parsed : parse tokens = .ok tree) :
      Grammar.Readable front ∧ ∃ body, Grammar.Sequence Grammar.Stated front body := by
    -- the parser stops at an end token, and there is only one
    obtain ⟨used, token, rest, body, same, stopped, readable, sequence⟩ := Grammar.sequence_of_parse parsed
    obtain ⟨rfl, _⟩ := Grammar.append_eof (same.symm.trans stream) stopped (derived []).1
    exact ⟨readable, body, sequence⟩
  have readable_iff : Grammar.Readable tokens ↔ Grammar.Readable front := by
    rcases given with rfl | ⟨rfl, _⟩
    · refine ⟨fun readable => readable.left, fun readable => readable.append fun token member => ?_⟩
      rw [List.mem_singleton.mp member, isEnd]
      exact ⟨nofun, nofun⟩
    · exact Iff.rfl
  refine ⟨⟨?_, ?_⟩, ?_⟩
  · rintro ⟨tree, parsed⟩
    obtain ⟨readable, body, sequence⟩ := sound parsed
    exact ⟨readable_iff.mpr readable, body, (derived body).2.mpr sequence⟩
  · rintro ⟨readable, body, sentence⟩
    have sequence := (derived body).2.mp sentence
    obtain ⟨tree, parsed, _⟩ := Grammar.parse_of_sequence sequence isEnd (readable_iff.mp readable) stream
    exact ⟨tree, parsed⟩
  · intro tree body parsed sentence
    have sequence := (derived body).2.mp sentence
    obtain ⟨tree', parsed', represents, _⟩ :=
      Grammar.parse_of_sequence sequence isEnd (sound parsed).1 stream
    rw [parsed] at parsed'
    cases parsed'
    exact represents

def Token.onFirstLine (kind : Kind) (value : String) (offset : Nat) : Token :=
  ⟨kind, value, ⟨⟨offset, 1⟩, ⟨offset + value.length, 1⟩⟩⟩

namespace Grammar

def printedSum : List Token :=
  [.onFirstLine .printWord "print" 0, .onFirstLine .int "1" 6, .onFirstLine .plus "+" 8, .onFirstLine .int "2" 10,
    .onFirstLine .semicolon ";" 11, .atEnd ⟨12, 1⟩]

theorem printedSum_derived :
    (∀ token ∈ printedSum.dropLast, token.kind ≠ .eof) ∧
      ∃ body, Sentence (fun token => ¬prolongs token) printedSum body := by
  have ends : ∀ token ∈ printedSum.dropLast, token.kind ≠ .eof := by decide
  exact ⟨ends, ((parse_accepts_language ends).1.mp ⟨_, rfl⟩).2⟩

/-- The bracket could open the body of the loop, or an index behind the end of its range. -/
def bracketedBody : List Token :=
  [.onFirstLine .forWord "for" 0, .onFirstLine .name "i" 4, .onFirstLine .assign "=" 6, .onFirstLine .int "0" 8,
    .onFirstLine .colon ":" 10, .onFirstLine .int "3" 12, .onFirstLine .openBracket "[" 14,
    .onFirstLine .int "1" 15, .onFirstLine .closeBracket "]" 16, .onFirstLine .assign "=" 18,
    .onFirstLine .int "2" 20, .onFirstLine .semicolon ";" 21, .atEnd ⟨22, 1⟩]

theorem Expression.number {token : Token} (kind : token.kind = .int) :
    Expression .relational [token] (.int token.value) := (Expression.int kind).relax (by decide)

/-- Where every body may follow a range, the grammar derives more than the parser takes. -/
theorem bracketedBody_derived_not_parsed :
    scan "for i = 0 : 3 [1] = 2;" = .ok bracketedBody ∧
      (∀ token ∈ bracketedBody.dropLast, token.kind ≠ .eof) ∧ Readable bracketedBody ∧
      (∃ body, Sentence (fun _ => True) bracketedBody body) ∧ ¬∃ tree, parse bracketedBody = .ok tree := by
  have row : Expression .relational
      [.onFirstLine .openBracket "[" 14, .onFirstLine .int "1" 15, .onFirstLine .closeBracket "]" 16]
      (.array [.int "1"]) := (Expression.array (.mk rfl (.some (.last (.number rfl))) rfl)).relax (by decide)
  have body : Statement (fun _ => True) (bracketedBody.drop 6).dropLast
      (.assign (.array [.int "1"]) .plain (.int "2")) := .assign row (by decide) (.number rfl) rfl
  have loop : Statement (fun _ => True) bracketedBody.dropLast
      (.forRange "i" (.int "0") (.int "3") (.assign (.array [.int "1"]) .plain (.int "2"))) :=
    .forRange rfl rfl rfl (.number rfl) rfl (.number rfl) body fun _ _ => trivial
  refine ⟨rfl, by decide, by unfold Readable; decide +kernel, ⟨_, .ended (.cons loop .nil) rfl⟩, ?_⟩
  rintro ⟨_, ⟨⟩⟩

end Grammar

end MatrixScript
