import MatrixScript.Proofs.Grammar.Soundness.Expression

/-! Where an expression fails to be parsed, what the parser has gone over can still become one.

What has been parsed in full is derived by the grammar. It remains to say how the rest of every construct could have
gone on: an expression that is still missing can be a name, and every mark that is still missing can be added.
-/

set_option autoImplicit false

namespace MatrixScript

def Token.bare (kind : Kind) : Token := ⟨kind, kind.label, ⟨⟨0, 0⟩, ⟨0, 0⟩⟩⟩

@[simp] theorem Token.kind_bare (kind : Kind) : (Token.bare kind).kind = kind := rfl

namespace Grammar

open Parse

theorem Readable.nil : Readable [] := nofun

theorem Readable.bare {kinds : List Kind} (words : ∀ kind ∈ kinds, kind ≠ .int ∧ kind ≠ .float) :
    Readable (kinds.map Token.bare) := by
  intro token member
  obtain ⟨kind, listed, rfl⟩ := List.mem_map.mp member
  exact ⟨fun isInt => absurd isInt (words kind listed).1, fun isFloat => absurd isFloat (words kind listed).2⟩

theorem Expression.filler (level : Level) :
    Expression level [.bare .name] (.name (Token.bare .name).value) :=
  (Expression.name rfl).relax level.rank_le

section

variable {α β ι : Type}

/-- More tokens make something of these that is derived. -/
def Viable (derives : List Token → α → Prop) (tokens : List Token) : Prop :=
  Readable tokens ∧ ∃ more x, Readable more ∧ derives (tokens ++ more) x

/-- A failure is at a token, and the tokens up to it can still become what is derived. -/
def Stalls (derives : List Token → α → Prop) (before : Parser) (failure : Failure) : Prop :=
  ∃ used token back, before.tokens = used ++ token :: back ∧ failure.position = token.span.start ∧
    Viable derives used

/-- Wherever an action fails, the tokens up to there can still become what is derived, when it may nest deeply
enough. -/
def Stalling (derives : List Token → α → Prop) (action : Parse ι) (limit : Nat) : Prop :=
  ∀ before failure after, Ended before.tokens → before.following.length < limit →
    action before = .error failure after → Stalls derives before failure

namespace Stalls

variable {derives : List Token → α → Prop} {derives' : List Token → β → Prop} {before middle : Parser}
  {failure : Failure} {used more closing : List Token} {x : α}

theorem here (takes : Takes before middle used) (place : failure.position = middle.current.span.start)
    (readable : Readable more) (derivation : derives (used ++ more) x) : Stalls derives before failure :=
  ⟨used, middle.current, middle.following, takes.tokens, place, takes.readable, more, x, readable, derivation⟩

theorem atStart (place : failure.position = before.current.span.start) (readable : Readable more)
    (derivation : derives more x) : Stalls derives before failure :=
  ⟨[], before.current, before.following, rfl, place, Readable.nil, more, x, readable, derivation⟩

theorem behind (stalls : Stalls derives middle failure) (takes : Takes before middle used) (readable : Readable closing)
    (frame : ∀ tokens x, derives tokens x → ∃ whole y, derives' whole y ∧ whole = used ++ (tokens ++ closing)) :
    Stalls derives' before failure := by
  obtain ⟨others, token, back, stream, place, readable', more, x, readable'', derivation⟩ := stalls
  obtain ⟨whole, y, derivation', rfl⟩ := frame _ _ derivation
  refine ⟨used ++ others, token, back, ?_, place, takes.readable.append readable', more ++ closing, y,
    readable''.append readable, ?_⟩
  · rw [takes.tokens, stream, List.append_assoc]
  · rw [List.append_assoc] at derivation' ⊢
    exact derivation'

theorem map (stalls : Stalls derives before failure) (each : ∀ tokens x, derives tokens x → ∃ y, derives' tokens y) :
    Stalls derives' before failure := by
  obtain ⟨used, token, back, stream, place, readable, more, x, readable', derivation⟩ := stalls
  obtain ⟨y, derivation'⟩ := each _ _ derivation
  exact ⟨used, token, back, stream, place, readable, more, y, readable', derivation'⟩

theorem relax {level looser : Level} (stalls : Stalls (Expression level) before failure)
    (below : looser.rank ≤ level.rank) : Stalls (Expression looser) before failure :=
  stalls.map fun _ _ derivation => ⟨_, derivation.relax below⟩

end Stalls

def Closed (terminator : Kind) (derives : List Token → α → Prop) (tokens : List Token) (x : α) : Prop :=
  ∃ body closing, tokens = body ++ [closing] ∧ closing.kind = terminator ∧ derives body x

theorem Takes.none {parser : Parser} (ended : Ended parser.tokens) : Takes parser parser [] := ⟨rfl, ended, .nil⟩

theorem Takes.shorter {before after : Parser} {token : Token} {used : List Token}
    (takes : Takes before after (token :: used)) : after.following.length < before.following.length := by
  have := takes.following
  rw [List.length_cons] at this
  omega

theorem Takes.notLonger {before after : Parser} {used : List Token} (takes : Takes before after used) :
    after.following.length ≤ before.following.length := by
  have := takes.following
  omega

variable {derives : List Token → α → Prop} {item : Parse ExprId} {limit : Nat}

theorem itemsAfter_stalls (sound : Sound derives item limit) (stalling : Stalling derives item limit) :
    ∀ (bound : Nat) (found : List ExprId) {before after : Parser} {failure : Failure}, Ended before.tokens →
      before.following.length < limit → itemsAfter item bound found before = .error failure after →
      Stalls (Trailing derives) before failure := by
  intro bound
  induction bound with
  | zero =>
    intro found before after failure _ _ failed
    cases failed
  | succ bound ih =>
    intro found before after failure ended fits failed
    by_cases comma : before.current.kind = .comma
    · rw [itemsAfter_comma item bound found comma] at failed
      have skipped := Takes.mark ended comma (by decide) (by decide)
      have shorter := skipped.shorter
      rcases bind_eq_error.mp failed with first | ⟨id, middle, first, others⟩
      · refine (stalling _ _ _ skipped.ended (by omega) first).behind skipped Readable.nil ?_
        exact fun tokens x derivation => ⟨_, _, .some comma (.last derivation), by simp⟩
      · obtain ⟨used, x, takes, derivation, _⟩ := sound _ _ _ skipped.ended (by omega) first
        have := takes.notLonger
        refine (ih _ takes.ended (by omega) others).behind (skipped.trans takes) Readable.nil ?_
        exact fun tokens xs trailing => ⟨_, _, .some comma (trailing.listed derivation), by simp⟩
    · rw [itemsAfter_stop item _ found comma] at failed
      cases failed

theorem listed_stalls (sound : Sound derives item limit) (stalling : Stalling derives item limit) {bound : Nat}
    {before after : Parser} {failure : Failure} (ended : Ended before.tokens) (fits : before.following.length < limit)
    (failed : (item >>= fun first => itemsAfter item bound [first]) before = .error failure after) :
    Stalls (Listed derives) before failure := by
  rcases bind_eq_error.mp failed with first | ⟨id, middle, first, others⟩
  · exact (stalling _ _ _ ended fits first).map fun tokens x derivation => ⟨_, .last derivation⟩
  · obtain ⟨used, x, takes, derivation, _⟩ := sound _ _ _ ended fits first
    have := takes.notLonger
    refine (itemsAfter_stalls sound stalling _ _ takes.ended (by omega) others).behind takes Readable.nil ?_
    exact fun tokens xs trailing => ⟨_, _, trailing.listed derivation, by simp⟩

theorem closed_stalls {γ : Type} (sound : Sound derives item limit) (stalling : Stalling derives item limit)
    {terminator : Kind} (word : terminator ≠ .int ∧ terminator ≠ .float) {finish : List ExprId → Parse γ}
    (total : ∀ ids parser, ∃ value after, finish ids parser = .ok value after) {bound : Nat} {before after : Parser}
    {failure : Failure} (ended : Ended before.tokens) (enough : before.following.length ≤ bound + 1)
    (fits : before.following.length < limit)
    (failed : (do
      let first ← item
      let ids ← itemsAfter item bound [first]
      let _ ← expect terminator
      finish ids) before = .error failure after) : Stalls (Closed terminator (Listed derives)) before failure := by
  have closing : Readable [Token.bare terminator] := @Readable.bare [terminator] (by simpa using word)
  rw [← bind_assoc] at failed
  rcases bind_eq_error.mp failed with listed | ⟨ids, middle, listed, closed⟩
  · refine (listed_stalls sound stalling ended fits listed).behind (.none ended) closing ?_
    exact fun tokens xs derivation => ⟨_, xs, ⟨tokens, _, rfl, Token.kind_bare _, derivation⟩, rfl⟩
  · obtain ⟨used, xs, takes, derivation⟩ := listed_sound sound ended enough fits listed
    rcases bind_eq_error.mp closed with unclosed | ⟨_, _, _, finished⟩
    · obtain ⟨_, rfl, rfl⟩ := expect_eq_error.mp unclosed
      exact .here takes rfl closing ⟨used, _, rfl, Token.kind_bare _, derivation⟩
    · obtain ⟨_, _, done⟩ := total ids _
      rw [done] at finished
      cases finished

end

theorem atom_stalls {before after : Parser} {failure : Failure} (failed : atom before = .error failure after) :
    Stalls (Expression .signed) before failure := by
  simp only [atom, bind_apply, advance_apply] at failed
  cases read : atomOf before.current with
  | ok kind =>
    rw [read] at failed
    cases failed
  | error fault =>
    rw [read] at failed
    cases failed
    exact .atStart rfl (@Readable.bare [.name] (by decide)) (.filler _)

section

variable {operand : Power → Parse ExprId} {limit bound : Nat} {before after : Parser} {failure : Failure}
  (operates : Operates operand limit)
  (stalling : ∀ power : Power, power.rank ≤ Power.unary.rank →
    Stalling (Expression (.behind power)) (operand power) limit)
include stalling

section

variable (ended : Ended before.tokens) (fits : before.following.length ≤ limit)
include ended fits

theorem negation_stalls (isDash : before.current.kind = .dash)
    (failed : negation operand before = .error failure after) : Stalls (Expression .signed) before failure := by
  rw [negation, bind_apply, advance_apply] at failed
  rcases bind_eq_error.mp failed with inner | ⟨id, middle, _, added⟩
  · have skipped := Takes.mark ended isDash (by decide) (by decide)
    have := skipped.shorter
    refine (stalling .unary (by decide) _ _ _ skipped.ended (by omega) inner).behind skipped .nil ?_
    exact fun tokens x derivation => ⟨_, _, .negate isDash derivation, by simp⟩
  · cases added

include operates

theorem group_stalls (failed : group operand before = .error failure after) :
    Stalls (Enclosed (Expression .relational) .openParen .closeParen) before failure := by
  have whole : Readable [.bare .openParen, .bare .name, .bare .closeParen] :=
    @Readable.bare [.openParen, .name, .closeParen] (by decide)
  rcases bind_eq_error.mp failed with unopened | ⟨_, _, opened, rest⟩
  · obtain ⟨_, rfl, rfl⟩ := expect_eq_error.mp unopened
    exact .atStart rfl whole (.mk (Token.kind_bare _) (Expression.filler _) (Token.kind_bare _))
  · obtain ⟨opens, rfl, rfl⟩ := expect_eq_ok.mp opened
    have skipped := Takes.mark ended opens (by decide) (by decide)
    have := skipped.shorter
    rcases bind_eq_error.mp rest with inner | ⟨id, middle, inner, closed⟩
    · refine (stalling .lowest (by decide) _ _ _ skipped.ended (by omega) inner).behind skipped whole.tail.tail ?_
      exact fun tokens x derivation => ⟨_, _, .mk opens derivation (Token.kind_bare _), by simp⟩
    · obtain ⟨used, term, takes, derivation, _⟩ := operates.sound _ _ _ skipped.ended (by omega) inner
      rcases bind_eq_error.mp closed with unclosed | ⟨_, _, _, returned⟩
      · obtain ⟨_, rfl, rfl⟩ := expect_eq_error.mp unclosed
        exact .here (skipped.trans takes) rfl whole.tail.tail (Enclosed.mk opens derivation (Token.kind_bare _))
      · cases returned

omit fits in
theorem items_stalls {terminator : Kind} (enough : before.following.length ≤ bound + 1)
    (word : terminator ≠ .int ∧ terminator ≠ .float) (fits : before.following.length < limit)
    (failed : items operand bound terminator before = .error failure after) :
    before.current.kind ≠ terminator ∧ Stalls (Closed terminator (Listed (Expression .relational))) before failure := by
  rw [items, bind_apply, peek_apply] at failed
  simp only [choice_apply] at failed
  split at failed
  · cases failed
  · next other =>
    exact ⟨other, closed_stalls operates.sound (stalling .lowest (by decide)) word (fun _ _ => ⟨_, _, rfl⟩)
      ended enough fits failed⟩

theorem arrayLiteral_stalls (enough : before.following.length ≤ bound + 1)
    (isOpen : before.current.kind = .openBracket)
    (failed : arrayLiteral operand bound before = .error failure after) :
    Stalls (Expression .signed) before failure := by
  suffices array : Stalls (Expression .primary) before failure from array.relax (by decide)
  have skipped := Takes.mark ended isOpen (by decide) (by decide)
  have := skipped.shorter
  rcases bind_eq_error.mp failed with unopened | ⟨_, _, opened, rest⟩
  · exact absurd isOpen (expect_eq_error.mp unopened).1
  · obtain ⟨_, rfl, rfl⟩ := expect_eq_ok.mp opened
    rcases bind_eq_error.mp rest with inner | ⟨_, _, _, added⟩
    · have items := items_stalls operates stalling skipped.ended (by omega) (by decide) (by omega) inner
      refine items.2.behind skipped .nil ?_
      rintro _ terms ⟨body, closing, rfl, closes, derivation⟩
      exact ⟨_, _, .array (.mk isOpen (.some derivation) closes), by simp⟩
    · cases added

theorem builtin_stalls (enough : before.following.length ≤ bound + 1) {function : Builtin}
    (listed : (before.current.kind, function) ∈ builtinWords)
    (failed : builtin operand bound function before = .error failure after) :
    Stalls (Expression .signed) before failure := by
  have word := word_of_builtinWords listed
  suffices called : Stalls (Expression .primary) before failure from called.relax (by decide)
  have named := Takes.mark ended rfl word.1 word.2
  rw [builtin, bind_apply, advance_apply] at failed
  rcases bind_eq_error.mp failed with unopened | ⟨_, _, opened, rest⟩
  · obtain ⟨_, rfl, rfl⟩ := expect_eq_error.mp unopened
    have closing : Readable [.bare .openParen, .bare .closeParen] :=
      @Readable.bare [.openParen, .closeParen] (by decide)
    have called : Expression .primary [before.current, .bare .openParen, .bare .closeParen] (.builtin function []) :=
      .builtin listed (.mk (Token.kind_bare _) Items.none (Token.kind_bare _))
    exact .here named rfl closing called
  · obtain ⟨opens, rfl, rfl⟩ := expect_eq_ok.mp opened
    have skipped := Takes.mark named.ended opens (by decide) (by decide)
    have := named.shorter
    have := skipped.shorter
    rcases bind_eq_error.mp rest with inner | ⟨_, _, _, added⟩
    · have items := items_stalls operates stalling skipped.ended (by omega) (by decide) (by omega) inner
      refine items.2.behind (named.trans skipped) .nil ?_
      rintro _ terms ⟨body, closing, rfl, closes, derivation⟩
      exact ⟨_, _, .builtin listed (.mk opens (.some derivation) closes), by simp⟩
    · cases added

theorem opening_stalls (enough : before.following.length ≤ bound + 1)
    (failed : opening operand bound before = .error failure after) : Stalls (Expression .signed) before failure := by
  cases kind : before.current.kind with
  | int | float | text | name =>
    rw [opening_apply kind rfl] at failed
    exact atom_stalls failed
  | dash =>
    rw [opening_apply kind rfl] at failed
    exact negation_stalls stalling ended fits kind failed
  | openParen =>
    rw [opening_apply kind rfl] at failed
    have group : Stalls (Expression .primary) before failure :=
      (group_stalls operates stalling ended fits failed).map fun tokens x derivation => ⟨x, .group derivation⟩
    exact group.relax (by decide)
  | openBracket =>
    rw [opening_apply kind rfl] at failed
    exact arrayLiteral_stalls operates stalling ended fits enough kind failed
  | eyeWord | zerosWord | onesWord =>
    rw [opening_apply kind rfl] at failed
    exact builtin_stalls operates stalling ended fits enough (by rw [kind]; simp [builtinWords]) failed
  | _ =>
    rw [opening_apply kind rfl] at failed
    cases failed
    exact .atStart rfl (@Readable.bare [.name] (by decide)) (.filler _)

end

include operates

theorem component_stalls : Stalling (Indices (Expression .relational)) (component operand) limit := by
  intro before failure after ended fits failed
  have first := stalling .lowest (by decide)
  rcases bind_eq_error.mp failed with begun | ⟨start, middle, begun, rest⟩
  · exact (first _ _ _ ended fits begun).map fun tokens x derivation => ⟨_, .point derivation⟩
  · obtain ⟨used, a, takes, derivation, _⟩ := operates.sound _ _ _ ended fits begun
    have := takes.notLonger
    rw [bind_apply, peek_apply] at rest
    simp only [choice_apply] at rest
    split at rest
    · next isColon =>
      have skipped := Takes.mark takes.ended isColon (by decide) (by decide)
      have := skipped.shorter
      rw [bind_apply, advance_apply] at rest
      rcases bind_eq_error.mp rest with ranged | ⟨_, _, _, added⟩
      · refine (first _ _ _ skipped.ended (by omega) ranged).behind (takes.trans skipped) .nil ?_
        exact fun tokens x derivation' => ⟨_, _, .span derivation isColon derivation', by simp⟩
      · cases added
    · cases rest

end

section

variable {operand : Power → Parse ExprId} {limit bound : Nat} {start middle after : Parser} {left : ExprId}
  {level : Level} {failure : Failure} (operates : Operates operand limit)
  (stalling : ∀ power : Power, power.rank ≤ Power.unary.rank →
    Stalling (Expression (.behind power)) (operand power) limit)
  (reads : Reads start middle left level) (fits : middle.following.length ≤ limit)
include reads

theorem Reads.stalls (place : failure.position = middle.current.span.start) :
    Stalls (Expression level) start failure := by
  obtain ⟨used, term, takes, derivation, _⟩ := reads
  apply Stalls.here takes place .nil
  rw [List.append_nil]
  exact derivation

include stalling fits

theorem binary_stalls {joint : Joint} {join : Term → Term → Term} {node : ExprId → ExprId → ExprKind}
    (found : jointOf? middle.current.kind = some joint) (joins : joint.join? = some (join, node))
    (failed : binary operand left (node left) middle = .error failure after) :
    Stalls (Expression (.ofPower middle.current.kind.power)) start failure := by
  obtain ⟨used, a, takes, derivation, admits, _⟩ := reads
  obtain ⟨closer, listed, same⟩ := Level.operator_of_joint found joins
  obtain ⟨modest, word⟩ := Joint.modest found joins
  have marked := Takes.mark takes.ended rfl word.1 word.2
  have := marked.shorter
  rw [binary, bind_apply, advance_apply] at failed
  rcases bind_eq_error.mp failed with right | ⟨_, _, _, added⟩
  · refine (stalling _ modest _ _ _ marked.ended (by omega) right).behind (takes.trans marked) .nil ?_
    exact fun tokens b derivation' => ⟨_, _, .binary closer listed (derivation.relax (by omega)) derivation', by simp⟩
  · cases added

include operates

/-- What is indexed is a name or a text, or else the bracket cannot follow. -/
theorem indexing_stalls (enough : middle.following.length ≤ bound + 1)
    (isOpen : middle.current.kind = .openBracket)
    (failed : indexing operand bound left middle = .error failure after) :
    Stalls (Expression level) start failure ∨ Stalls (Expression .trailed) start failure := by
  have indexed (base : Base) (found : middle.tree.kind? left = some base.kind) :
      Stalls (Expression .trailed) start failure := by
    obtain ⟨used, term, takes, _, _, linked⟩ := reads
    have opened := Takes.mark takes.ended isOpen (by decide) (by decide)
    have := opened.shorter
    have indices (tokens : List Token) (xs : List (Component Term))
        (derivation : Closed .closeBracket (Listed (Indices (Expression .relational))) tokens xs) :
        Expression .trailed (used ++ middle.current :: tokens) (.indexed base xs) := by
      obtain ⟨body, closing, rfl, closes, derivation⟩ := derivation
      exact .indexed (linked base found) (.mk isOpen derivation closes)
    rw [indexing_apply operand bound found, bind_apply, expect_apply, if_pos isOpen] at failed
    have listed : Stalls (Closed .closeBracket (Listed (Indices (Expression .relational)))) middle.next failure :=
      closed_stalls (component_sound operates) (component_stalls operates stalling) (by decide) (fun _ _ => ⟨_, _, rfl⟩)
        opened.ended (by omega) (by omega) failed
    apply listed.behind (takes.trans opened) .nil
    exact fun tokens xs derivation => ⟨_, _, indices tokens xs derivation, by simp⟩
  -- behind anything else the bracket is the failure, and what is in front of it is an expression
  cases found : middle.tree.kind? left with
  | none =>
    simp only [indexing, bind_apply, kind?_apply, found, unexpectedDetailed_apply] at failed
    cases failed
    exact .inl (reads.stalls rfl)
  | some kind =>
    cases kind with
    | name known => exact .inr (indexed (.name known) found)
    | text value => exact .inr (indexed (.text value) found)
    | _ =>
      simp only [indexing, bind_apply, kind?_apply, found, unexpectedDetailed_apply] at failed
      cases failed
      exact .inl (reads.stalls rfl)

theorem continuation_stalls (enough : middle.following.length ≤ bound + 1)
    (failed : continuation operand bound left middle = .error failure after) :
    ∃ other : Level, Stalls (Expression other) start failure ∧
      (level.rank ≤ other.rank ∨ middle.current.kind.power.rank ≤ other.rank) := by
  cases found : jointOf? middle.current.kind with
  | none =>
    simp only [continuation, bind_apply, peek_apply, found, unexpected_apply] at failed
    cases failed
    exact ⟨level, reads.stalls rfl, .inl (Nat.le_refl _)⟩
  | some joint =>
    cases joint with
    | transpose =>
      have isMark := kind_of_transpose found
      simp only [continuation, bind_apply, peek_apply, found] at failed
      rcases bind_eq_error.mp failed with unmarked | ⟨_, _, _, added⟩
      · exact absurd isMark (expect_eq_error.mp unmarked).1
      · cases added
    | index =>
      have isOpen := kind_of_index found
      simp only [continuation, bind_apply, peek_apply, found] at failed
      rcases indexing_stalls operates stalling reads fits enough isOpen failed with stalls | stalls
      · exact ⟨level, stalls, .inl (Nat.le_refl _)⟩
      · exact ⟨.trailed, stalls, .inr (rank_le_trailed _)⟩
    | compare op | linear op | elementwise op =>
      rw [continuation_of_joint rfl _ _ _ _ found] at failed
      obtain ⟨_, _, same⟩ := Level.operator_of_joint found rfl
      exact ⟨_, binary_stalls stalling reads fits found rfl failed, .inr (Nat.le_of_eq same.symm)⟩

end

section

variable {operand : Power → Parse ExprId} {limit bound : Nat} {power : Power} (operates : Operates operand limit)
  (stalling : ∀ power : Power, power.rank ≤ Power.unary.rank →
    Stalling (Expression (.behind power)) (operand power) limit)
include operates stalling

theorem climb_stalls : ∀ (steps : Nat) {start middle after : Parser} {left : ExprId} {level : Level}
    {failure : Failure}, Reads start middle left level → (Level.behind power).rank ≤ level.rank →
    middle.following.length ≤ limit → middle.following.length ≤ bound + 1 → climb operand bound power steps left middle = .error failure after →
    Stalls (Expression (.behind power)) start failure := by
  intro steps
  induction steps with
  | zero =>
    intro start middle after left level failure _ _ _ _ failed
    cases failed
  | succ steps ih =>
    intro start middle after left level failure reads admits fits enough failed
    by_cases tight : power.rank < middle.current.kind.power.rank
    · simp only [climb, bind_apply, peek_apply, choice_apply, tight, if_true] at failed
      rw [← bind_apply] at failed
      have below := Level.behind_le tight
      rcases bind_eq_error.mp failed with refused | ⟨longer, next, continued, rest⟩
      · obtain ⟨other, stalls, closer | closer⟩ := continuation_stalls operates stalling reads fits enough refused
        · exact stalls.relax (Nat.le_trans admits closer)
        · exact stalls.relax (Nat.le_trans below closer)
      · obtain ⟨shorter, level', least, reads'⟩ := continuation_sound operates reads fits enough continued
        exact ih reads' (by omega) (by omega) (by omega) rest
    · rw [climb_stops operand bound _ left (Nat.not_lt.mp tight)] at failed
      cases failed

end

/-- An operand fails where it could still have become one, by induction on how deeply operands may nest. -/
theorem expressionWithin_stalls (depth : Nat) : ∀ power : Power, power.rank ≤ Power.unary.rank →
    Stalling (Expression (.behind power)) (expressionWithin depth power) depth := by
  induction depth with
  | zero =>
    intro power _ before failure after _ fits _
    exact absurd fits (Nat.not_lt_zero _)
  | succ depth ih =>
    intro power modest before failure after ended fits failed
    have operates := expressionWithin_operates depth
    have within : before.following.length ≤ depth := Nat.le_of_lt_succ fits
    have signed : (Level.behind power).rank ≤ Level.signed.rank := by
      cases power <;> first | exact absurd modest (by decide) | decide
    rcases bind_eq_error.mp failed with unopened | ⟨left, middle, opened, climbed⟩
    · exact (opening_stalls operates ih ended within (by omega) unopened).relax signed
    · have finish {level : Level} (reads : Reads before middle left level) (admits : Level.signed.rank ≤ level.rank) :
          Stalls (Expression (.behind power)) before failure := by
        have shorter : middle.following.length ≤ depth := by
          obtain ⟨used, _, takes, _, _⟩ := reads
          exact Nat.le_trans takes.notLonger within
        exact climb_stalls operates ih depth reads (Nat.le_trans signed admits) shorter (by omega) climbed
      rcases opening_sound operates ended within (by omega) opened with reads | reads
      · exact finish reads (Nat.le_refl _)
      · exact finish reads (by decide)

end Grammar

end MatrixScript
