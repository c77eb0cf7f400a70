import MatrixScript.Proofs.Grammar.Lookahead
import MatrixScript.Proofs.Grammar.Spans
import MatrixScript.Proofs.Grammar.Viability.Statement

/-! Where a syntax failure is reported.

The parser fails at the first token with which no program goes on. The tokens before it can be completed, because the
parser has gone over parts of constructs only. With the token they cannot, because the parser would fail in the same way
whatever came behind it.
-/

set_option autoImplicit false

namespace MatrixScript

def Parses (tokens : List Token) : Prop := ∃ tree, parse tokens = .ok tree

theorem Parses.not_error {tokens : List Token} (parses : Parses tokens) (failure : Failure) :
    parse tokens ≠ .error failure := by
  obtain ⟨tree, parsed⟩ := parses
  rw [parsed]
  exact nofun

/-- What stands before a token is the beginning of a program, and together with the token it is not. At the end, it is
no program. -/
structure FirstImpossible (before : List Token) (token : Token) : Prop where
  possible : ∃ rest, Parses (before ++ rest)
  impossible : token.kind ≠ .eof → ∀ rest, ¬Parses (before ++ token :: rest)
  unfinished : token.kind = .eof → ¬Parses before

namespace Tidy

variable {stream before back : List Token} {token other : Token} (tidy : Tidy stream)
  (same : stream = before ++ token :: back)
include tidy same

theorem starts_ne (member : other ∈ back) : token.span.start ≠ other.span.start := by
  obtain ⟨i, inside, rfl⟩ := List.mem_iff_getElem.mp member
  have one : stream[before.length]? = some token := by simp [same]
  have two : stream[before.length + 1 + i]? = some back[i] := by
    rw [same, List.getElem?_append_right (by omega)]
    have gap : before.length + 1 + i - before.length = i + 1 := by omega
    rw [gap, List.getElem?_cons_succ]
    exact List.getElem?_eq_getElem inside
  obtain ⟨bound, _⟩ := List.getElem?_eq_some_iff.mp two
  have filled := tidy.filled _ _ one (by omega)
  have ordered := tidy.ordered _ _ _ _ one two (by omega)
  intro starts
  rw [starts] at filled
  omega

theorem last_of_eof (isEnd : token.kind = .eof) : back = [] := by
  have ends := tidy.ends before.length token (by simp [same]) isEnd
  rw [same, List.length_append, List.length_cons] at ends
  exact List.length_eq_zero_iff.mp (by omega)

theorem others_of_mem (member : other ∈ before) : other.kind ≠ .eof := by
  intro isEnd
  obtain ⟨i, inside, rfl⟩ := List.mem_iff_getElem.mp member
  have found : stream[i]? = some before[i] := by
    rw [same, List.getElem?_append_left inside]
    exact List.getElem?_eq_getElem inside
  have ends := tidy.ends i _ found isEnd
  rw [same, List.length_append, List.length_cons] at ends
  omega

end Tidy

namespace Grammar

theorem Sequence.parses {used : List Token} {body : List Phrase} (sequence : Sequence Stated used body)
    (readable : Readable used) {last : Token} (isEnd : last.kind = .eof) : Parses (used ++ [last]) := by
  obtain ⟨tree, parsed, _⟩ := parse_of_sequence sequence isEnd readable (start_of_ended isEnd used)
  exact ⟨tree, parsed⟩

theorem Twins.start {tokens tokens' shared back rest : List Token} (some : shared ≠ []) (more : back ≠ [])
    (stream : (Parser.start tokens).tokens = shared ++ back)
    (stream' : (Parser.start tokens').tokens = shared ++ rest) :
    Twins back rest shared.length (Parser.start tokens) (Parser.start tokens') := by
  have unmoved (tokens : List Token) : (Parser.start tokens).left? = none := by cases tokens <;> rfl
  cases shared with
  | nil => contradiction
  | cons first ahead =>
    refine ⟨?_, ⟨ahead, Nat.lt_succ_self _, ?_, ?_⟩, more, ?_, ?_⟩
    · rw [Parser.current_of_tokens stream, Parser.current_of_tokens stream']
    · exact Parser.following_of_tokens stream
    · exact Parser.following_of_tokens stream'
    · rw [unmoved, unmoved]
    · rw [tree_start, tree_start]

end Grammar

open Grammar

theorem Parses.ended {used : List Token} (parses : Parses used) (others : ∀ token ∈ used, token.kind ≠ .eof)
    {last : Token} (isEnd : last.kind = .eof) : Parses (used ++ [last]) := by
  obtain ⟨tree, parsed⟩ := parses
  obtain ⟨used', token, rest, body, stream, stopped, readable, sequence⟩ := sequence_of_parse parsed
  obtain ⟨front, closing, stream', closes, rfl | ⟨rfl, _⟩⟩ := start_tokens used
  · exact absurd closes (others closing (by simp))
  · obtain ⟨rfl, _⟩ := append_eof (stream.symm.trans stream') stopped others
    exact sequence.parses readable isEnd

section

variable {source : String} {tokens before back : List Token} {token : Token} {failure : Failure}
  (scanned : scan source = .ok tokens) (failed : parse tokens = .error failure)
  (stream : tokens = before ++ token :: back)
include scanned failed stream

/-- Nothing that comes behind the failure can prevent it. -/
theorem not_parses_of_error (place : failure.position = token.span.start) (other : token.kind ≠ .eof)
    (rest : List Token) : ¬Parses (before ++ token :: rest) := by
  obtain ⟨after, refused⟩ := parse_eq_error.mp failed
  obtain ⟨added, stream'⟩ := start_extends (before ++ token :: rest)
  have more : back ≠ [] := by
    rintro rfl
    obtain ⟨front, same, _⟩ := tokens_of_scan scanned
    obtain ⟨_, last⟩ := List.append_inj' (stream.symm.trans same) rfl
    cases last
    exact other rfl
  have shared : (Parser.start tokens).tokens = (before ++ [token]) ++ back := by
    rw [start_of_scan scanned, stream, List.append_assoc, List.singleton_append]
  have shared' : (Parser.start (before ++ token :: rest)).tokens = (before ++ [token]) ++ (rest ++ added) := by
    rw [stream', List.append_assoc, List.append_assoc, List.singleton_append, List.cons_append]
  intro parses
  rcases program_fails_alike (Twins.start (by simp) more shared shared') refused with ⟨later, member, place'⟩ | refused'
  · exact (scan_tidy scanned).starts_ne stream member (place.symm.trans place')
  · exact parses.not_error failure (parse_eq_error.mpr refused')

theorem not_parses_of_end (isEnd : token.kind = .eof) : ¬Parses before := by
  have tidy := scan_tidy scanned
  obtain rfl := tidy.last_of_eof stream isEnd
  intro parses
  have whole := parses.ended (fun _ member => tidy.others_of_mem stream member) isEnd
  rw [← stream] at whole
  exact whole.not_error failure failed

end

/-- A syntax failure is at the first token with which the program cannot go on. -/
theorem failure_at_first_impossible_token {source : String} {tokens : List Token} {failure : Failure}
    (scanned : scan source = .ok tokens) (failed : parse tokens = .error failure) :
    ∃ before token back, tokens = before ++ token :: back ∧ failure.position = token.span.start ∧
      FirstImpossible before token := by
  obtain ⟨after, refused⟩ := parse_eq_error.mp failed
  obtain ⟨before, token, back, stream, place, readable, more, body, readable', sequence⟩ :=
    program_stalls (ended_start tokens) refused
  rw [start_of_scan scanned] at stream
  refine ⟨before, token, back, stream, place, ?_⟩
  constructor
  case possible =>
    have whole : Parses (before ++ more ++ [.atEnd ⟨0, 0⟩]) := sequence.parses (readable.append readable') rfl
    rw [List.append_assoc] at whole
    exact ⟨_, whole⟩
  case impossible => exact not_parses_of_error scanned failed stream place
  case unfinished => exact not_parses_of_end scanned failed stream

/-- A parenthesis is not closed. The failure is at the semicolon, in front of which it could still have been. -/
theorem unclosed_parenthesis_at_semicolon :
    ∃ tokens failure, scan "x = (1 + 2; print x;" = .ok tokens ∧ parse tokens = .error failure ∧
      failure.position = ⟨10, 1⟩ ∧ ∃ before token back, tokens = before ++ token :: back ∧
        failure.position = token.span.start ∧ FirstImpossible before token := by
  have passes : (scan "x = (1 + 2; print x;").toOption.any fun tokens =>
      ((parse tokens).map fun _ => ()).mapError (·.position) = .error ⟨10, 1⟩ := by
    decide +kernel
  obtain ⟨tokens, scanned, passes⟩ := exists_ok passes
  have outcome := of_decide_eq_true passes
  cases failed : parse tokens with
  | ok tree =>
    rw [failed] at outcome
    cases outcome
  | error failure =>
    rw [failed] at outcome
    have place : failure.position = ⟨10, 1⟩ := Except.error.inj outcome
    exact ⟨tokens, failure, scanned, failed, place, failure_at_first_impossible_token scanned failed⟩

end MatrixScript
