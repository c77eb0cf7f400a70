import MatrixScript.Proofs.Token.Steps

/-! Scanning loses nothing and places everything.

The tokens of a source and the gaps between them tile it from its first byte on: to its end, or to the character at
which no rule takes anything.
-/

set_option autoImplicit false

namespace MatrixScript

theorem byteLength_toList (text : String) : byteLength text.toList = text.utf8ByteSize := by
  induction text using String.push_induction with
  | empty => rfl
  | push text c ih => simp [ih]

/-- The place behind the first characters of a source: its line is one more than the newlines before it. -/
def placeAfter (before : List Char) : Position := ⟨byteLength before, 1 + before.count '\n'⟩

theorem placeAfter_past (before text : List Char) : (placeAfter before).past text = placeAfter (before ++ text) := by
  simp [placeAfter, Position.past, Nat.add_assoc]

def PlaceIn (source : List Char) (place : Position) : Prop :=
  ∃ before after, source = before ++ after ∧ place = placeAfter before

/-- The part of a source between two byte offsets, and what follows it. -/
def Cut (source : List Char) (start stop : Nat) (part after : List Char) : Prop :=
  ∃ before, source = before ++ (part ++ after) ∧ byteLength before = start ∧ byteLength (before ++ part) = stop

/-- Where the gaps before, between and behind tokens are. -/
def gapsAround (start : Nat) : List Token → Nat → List (Nat × Nat)
  | [], stop => [(start, stop)]
  | token :: rest, stop => (start, token.span.start.offset) :: gapsAround token.span.stop.offset rest stop

/-- Tokens and the gaps around them tile a source between two byte offsets. -/
structure Tiles (source : List Char) (start stop : Nat) (tokens : List Token) : Prop where
  forward : start ≤ stop
  within : ∀ token ∈ tokens, start ≤ token.span.start.offset ∧ token.span.stop.offset ≤ stop
  filled : ∀ token ∈ tokens, token.span.start.offset < token.span.stop.offset
  ordered : tokens.Pairwise fun first second => first.span.stop.offset ≤ second.span.start.offset
  written : ∀ token ∈ tokens, ∃ lexeme after,
    Cut source token.span.start.offset token.span.stop.offset lexeme after ∧ Lexeme token.kind token.value lexeme
  gaps : ∀ gap ∈ gapsAround start tokens stop, ∃ part after, Cut source gap.1 gap.2 part after ∧ Gap after part
  placed : ∀ token ∈ tokens, PlaceIn source token.span.start ∧ PlaceIn source token.span.stop

theorem byteLength_pos {text : List Char} (nonempty : text ≠ []) : 0 < byteLength text := by
  obtain ⟨c, rest, rfl⟩ := List.exists_cons_of_ne_nil nonempty
  have := c.utf8Size_pos
  rw [byteLength_cons]
  omega

theorem append_inj_of_byteLength {first second after later : List Char} (same : first ++ after = second ++ later)
    (bytes : byteLength first = byteLength second) : first = second ∧ after = later := by
  have none {more : List Char} {front : List Char} (sizes : byteLength front = byteLength (front ++ more)) :
      more = [] := by
    by_cases empty : more = []
    · exact empty
    · have := byteLength_pos empty
      rw [byteLength_append] at sizes
      omega
  rcases List.append_eq_append_iff.mp same with ⟨more, rfl, rest⟩ | ⟨more, rfl, rest⟩
  · rw [none bytes] at rest ⊢
    exact ⟨(List.append_nil _).symm, rest⟩
  · rw [none bytes.symm] at rest ⊢
    exact ⟨List.append_nil _, rest.symm⟩

namespace Tiles

variable {before after : List Char} {stop : Nat} {tokens : List Token}

theorem empty : Tiles (before ++ after) (byteLength before) (byteLength before) [] where
  forward := Nat.le_refl _
  within := nofun
  filled := nofun
  ordered := .nil
  written := nofun
  gaps := by
    intro gap member
    rw [List.mem_singleton.mp member]
    exact ⟨[], after, ⟨before, rfl, rfl, by simp⟩, .nil⟩
  placed := nofun

theorem gap {part : List Char} (isGap : Gap after part)
    (rest : Tiles (before ++ (part ++ after)) (byteLength (before ++ part)) stop tokens) :
    Tiles (before ++ (part ++ after)) (byteLength before) stop tokens where
  forward := by
    have := rest.forward
    rw [byteLength_append] at this
    omega
  within := by
    intro token member
    have inside := rest.within token member
    rw [byteLength_append] at inside
    omega
  filled := rest.filled
  ordered := rest.ordered
  written := rest.written
  gaps := by
    -- the first of the gaps begins where this one ends, and is now part of a longer one
    have longer {last : Nat} {more later : List Char}
        (cut : Cut (before ++ (part ++ after)) (byteLength (before ++ part)) last more later)
        (isGap' : Gap later more) : ∃ whole later,
        Cut (before ++ (part ++ after)) (byteLength before) last whole later ∧ Gap later whole := by
      obtain ⟨front, same, bytes, ends⟩ := cut
      rw [← List.append_assoc] at same
      obtain ⟨rfl, rfl⟩ := append_inj_of_byteLength same bytes.symm
      exact ⟨part ++ more, later, ⟨before, by simp, rfl, by rw [← List.append_assoc, ends]⟩, isGap.append isGap'⟩
    have known := rest.gaps
    cases tokens with
    | nil =>
      intro gap member
      rw [List.mem_singleton.mp member]
      obtain ⟨more, later, cut, isGap'⟩ := known _ (List.mem_singleton_self _)
      exact longer cut isGap'
    | cons token others =>
      intro gap member
      rcases List.mem_cons.mp member with rfl | member
      · obtain ⟨more, later, cut, isGap'⟩ := known _ List.mem_cons_self
        exact longer cut isGap'
      · exact known gap (List.mem_cons_of_mem _ member)
  placed := rest.placed

theorem token {kind : Kind} {value : String} {lexeme : List Char} (nonempty : lexeme ≠ [])
    (isWritten : Lexeme kind value lexeme)
    (rest : Tiles (before ++ (lexeme ++ after)) (byteLength (before ++ lexeme)) stop tokens) :
    Tiles (before ++ (lexeme ++ after)) (byteLength before) stop
      (Token.spelled kind value (placeAfter before) lexeme :: tokens) := by
  have bytes := byteLength_pos nonempty
  have ends : ((placeAfter before).past lexeme).offset = byteLength (before ++ lexeme) := by
    rw [placeAfter_past]
    rfl
  have longer : byteLength (before ++ lexeme) = byteLength before + byteLength lexeme := byteLength_append _ _
  have inside := rest.forward
  constructor
  case forward => omega
  case within =>
    rintro other (_ | ⟨_, member⟩)
    · exact ⟨Nat.le_refl _, by rwa [Token.spelled, ends]⟩
    · have := rest.within other member
      omega
  case filled =>
    rintro other (_ | ⟨_, member⟩)
    · show byteLength before < ((placeAfter before).past lexeme).offset
      omega
    · exact rest.filled other member
  case ordered =>
    apply List.Pairwise.cons _ rest.ordered
    intro other member
    have := rest.within other member
    simp only [Token.spelled, ends]
    omega
  case written =>
    rintro other (_ | ⟨_, member⟩)
    · exact ⟨lexeme, after, ⟨before, rfl, rfl, ends.symm⟩, isWritten⟩
    · exact rest.written other member
  case gaps =>
    -- right in front of the lexeme the gap is empty
    rintro gap (_ | ⟨_, member⟩)
    · exact ⟨[], lexeme ++ after, ⟨before, rfl, rfl, by simp [Token.spelled, placeAfter]⟩, .nil⟩
    · simp only [Token.spelled, ends] at member
      exact rest.gaps gap member
  case placed =>
    rintro other (_ | ⟨_, member⟩)
    · constructor
      · exact ⟨before, _, rfl, rfl⟩
      · exact ⟨before ++ lexeme, after, by simp, placeAfter_past before lexeme⟩
    · exact rest.placed other member

end Tiles

/-- What is known of the result of scanning the rest of a source behind its first `start` bytes. -/
def Accounts (source : List Char) (start : Nat) : Except Failure (List Token) → Prop
  | .ok tokens =>
    ∃ body, tokens = body ++ [Token.atEnd (placeAfter source)] ∧ Tiles source start (byteLength source) body
  | .error failure =>
    ∃ before c after body, source = before ++ c :: after ∧
      failure = ⟨.unrecognised c.toString, placeAfter before⟩ ∧
      (∀ rule ∈ Rule.table, rule.length? (c :: after) = none) ∧ Tiles source start (byteLength before) body

/-- The invariant of scanning: the source before the cursor is behind, and the rest is accounted for. -/
theorem Cursor.Scanned.accounts {place : Position} {text before : List Char} {result : Except Failure (List Token)}
    (scanned : Scanned place text result) (here : place = placeAfter before) :
    Accounts (before ++ text) (byteLength before) result := by
  induction scanned generalizing before with
  | finished =>
    rw [List.append_nil, here]
    have nothing : Tiles (before ++ []) _ _ [] := .empty
    rw [List.append_nil] at nothing
    exact ⟨[], rfl, nothing⟩
  | refused nothing => exact ⟨before, _, _, [], rfl, by rw [here], nothing, .empty⟩
  | @gap _ part after result isGap _ ih =>
    have rest := ih (by rw [here, placeAfter_past])
    rw [List.append_assoc] at rest
    cases result with
    | ok tokens =>
      obtain ⟨body, same, tiles⟩ := rest
      exact ⟨body, same, tiles.gap isGap⟩
    | error failure =>
      obtain ⟨front, c, later, body, same, failed, nothing, tiles⟩ := rest
      exact ⟨front, c, later, body, same, failed, nothing, tiles.gap isGap⟩
  | @token _ kind value lexeme after result nonempty written _ ih =>
    have rest := ih (by rw [here, placeAfter_past])
    rw [List.append_assoc] at rest
    rw [here]
    cases result with
    | ok tokens =>
      obtain ⟨body, rfl, tiles⟩ := rest
      exact ⟨_ :: body, rfl, tiles.token nonempty written⟩
    | error failure =>
      obtain ⟨front, c, later, body, same, failed, nothing, tiles⟩ := rest
      exact ⟨front, c, later, _ :: body, same, failed, nothing, tiles.token nonempty written⟩

end MatrixScript
