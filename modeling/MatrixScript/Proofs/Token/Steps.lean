import MatrixScript.Proofs.Token.Rules
import MatrixScript.Token.Scan

/-! The steps of scanning.

A step takes a lexeme or a part of a gap from the text that is left. Every step takes something, so scanning comes to
an end by itself and the number of steps it is given does not matter once there is one for each character.
-/

set_option autoImplicit false

namespace MatrixScript

/-- The place behind a text that starts at the given place. -/
def Position.past (place : Position) (text : List Char) : Position :=
  ⟨place.offset + byteLength text, place.line + text.count '\n'⟩

theorem Position.past_append (place : Position) (first second : List Char) :
    place.past (first ++ second) = (place.past first).past second := by
  simp [past, Nat.add_assoc]

def Token.spelled (kind : Kind) (value : String) (place : Position) (lexeme : List Char) : Token :=
  ⟨kind, value, ⟨place, place.past lexeme⟩⟩

namespace Cursor

theorem skip_append (front after : List Char) (place : Position) :
    skip front.length ⟨front ++ after, place⟩ = ⟨after, place.past front⟩ := by
  induction front generalizing place with
  | nil => rfl
  | cons c rest ih =>
    have moved : next ⟨c :: (rest ++ after), place⟩ = ⟨rest ++ after, place.past [c]⟩ := by
      by_cases newline : c = '\n' <;> simp [next, Position.past, newline]
    rw [List.length_cons, skip, List.cons_append, moved, ih, ← Position.past_append]
    rfl

theorem span_lexeme {kind : Kind} {value : String} {lexeme : List Char} (written : Lexeme kind value lexeme)
    (rest : List Char) (place : Position) :
    span (byteLength lexeme) ⟨rest, place⟩ = ⟨place, place.past lexeme⟩ := by
  simp [span, Position.past, List.count_eq_zero.mpr written.oneLine]

section

variable {rule : Rule} {lexeme after : List Char} {steps : Nat} {place : Position} {found : List Token}

theorem scanFrom_nil : scanFrom steps ⟨[], place⟩ found = .ok (found.reverse ++ [Token.atEnd place]) := by
  cases steps <;> simp [scanFrom]

theorem scanFrom_none {c : Char} {rest : List Char} (nothing : Rule.first? (c :: rest) = none) :
    scanFrom (steps + 1) ⟨c :: rest, place⟩ found = .error ⟨.unrecognised c.toString, place⟩ := by
  simp [scanFrom, nothing]

theorem scanFrom_step (nonempty : lexeme ≠ []) (first : Rule.first? (lexeme ++ after) = some (rule, lexeme.length)) :
    scanFrom (steps + 1) ⟨lexeme ++ after, place⟩ found =
      scanFrom steps ⟨after, place.past lexeme⟩
        ((token? ⟨lexeme ++ after, place⟩ rule lexeme.length).toList ++ found) := by
  obtain ⟨c, rest, rfl⟩ := List.exists_cons_of_ne_nil nonempty
  rw [← skip_append]
  simp only [List.cons_append] at first ⊢
  simp only [scanFrom, first]

theorem scanFrom_lexeme {kind : Kind} {value : String} (written : Lexeme kind value lexeme) (nonempty : lexeme ≠ [])
    (first : Rule.first? (lexeme ++ after) = some (rule, lexeme.length))
    (made : rule.token? lexeme = some (kind, value)) :
    scanFrom (steps + 1) ⟨lexeme ++ after, place⟩ found =
      scanFrom steps ⟨after, place.past lexeme⟩ (Token.spelled kind value place lexeme :: found) := by
  rw [scanFrom_step nonempty first]
  simp [token?, made, span_lexeme written, Token.spelled]

theorem scanFrom_gap (nonempty : lexeme ≠ []) (first : Rule.first? (lexeme ++ after) = some (rule, lexeme.length))
    (made : rule.token? lexeme = none) :
    scanFrom (steps + 1) ⟨lexeme ++ after, place⟩ found = scanFrom steps ⟨after, place.past lexeme⟩ found := by
  rw [scanFrom_step nonempty first]
  simp [token?, made]

end

/-- What scanning a text from a place on comes to. -/
inductive Scanned : Position → List Char → Except Failure (List Token) → Prop where
  | finished {place : Position} : Scanned place [] (.ok [Token.atEnd place])
  | refused {place : Position} {c : Char} {rest : List Char} :
      (∀ rule ∈ Rule.table, rule.length? (c :: rest) = none) →
        Scanned place (c :: rest) (.error ⟨.unrecognised c.toString, place⟩)
  | gap {place : Position} {part after : List Char} {result : Except Failure (List Token)} :
      Gap after part → Scanned (place.past part) after result → Scanned place (part ++ after) result
  | token {place : Position} {kind : Kind} {value : String} {lexeme after : List Char}
      {result : Except Failure (List Token)} :
      lexeme ≠ [] → Lexeme kind value lexeme → Scanned (place.past lexeme) after result →
        Scanned place (lexeme ++ after) (result.map (Token.spelled kind value place lexeme :: ·))

/-- With a step for each character, scanning comes to one result, whatever was found before. -/
theorem scanFrom_scanned (text : List Char) (place : Position) :
    ∃ result, Scanned place text result ∧ ∀ steps found, text.length ≤ steps →
      scanFrom steps ⟨text, place⟩ found = result.map (found.reverse ++ ·) := by
  induction size : text.length using Nat.strongRecOn generalizing text place with
  | ind n ih =>
    subst size
    cases text with
    | nil => exact ⟨_, .finished, fun steps found _ => scanFrom_nil⟩
    | cons c rest =>
      cases first : Rule.first? (c :: rest) with
      | none =>
        refine ⟨_, .refused (Rule.first?_eq_none first), fun steps found enough => ?_⟩
        obtain ⟨steps, rfl⟩ : ∃ fewer, steps = fewer + 1 := ⟨steps - 1, by simp at enough; omega⟩
        exact scanFrom_none first
      | some match' =>
        obtain ⟨rule, length⟩ := match'
        obtain ⟨listed, took⟩ := Rule.first?_eq_some first
        obtain ⟨lexeme, after, same, rfl, takes⟩ := Rule.length?_takes listed took
        -- no rule takes nothing, so less of the text is left
        have positive := List.length_pos_iff.mpr takes.nonempty
        have shorter : after.length < (c :: rest).length := by
          rw [same, List.length_append]
          omega
        obtain ⟨result, scanned, runs⟩ := ih _ shorter after (place.past lexeme) rfl
        rw [same] at first shorter ⊢
        cases made : rule.token? lexeme with
        | none =>
          refine ⟨result, .gap (takes.gap made) scanned, fun steps found enough => ?_⟩
          obtain ⟨steps, rfl⟩ : ∃ fewer, steps = fewer + 1 := ⟨steps - 1, by omega⟩
          rw [scanFrom_gap takes.nonempty first made]
          exact runs steps found (by omega)
        | some token =>
          obtain ⟨kind, value⟩ := token
          have written := takes.written kind value made
          refine ⟨_, .token takes.nonempty written scanned, fun steps found enough => ?_⟩
          obtain ⟨steps, rfl⟩ : ∃ fewer, steps = fewer + 1 := ⟨steps - 1, by omega⟩
          rw [scanFrom_lexeme written takes.nonempty first made, runs steps _ (by omega)]
          cases result with
          | ok tokens => simp [Except.map]
          | error failure => rfl

def tokensFrom (place : Position) (text : List Char) : Except Failure (List Token) :=
  scanFrom text.length ⟨text, place⟩ []

theorem tokensFrom_spec (place : Position) (text : List Char) :
    Scanned place text (tokensFrom place text) ∧ ∀ steps found, text.length ≤ steps →
      scanFrom steps ⟨text, place⟩ found = (tokensFrom place text).map (found.reverse ++ ·) := by
  obtain ⟨result, scanned, runs⟩ := scanFrom_scanned text place
  have same : tokensFrom place text = result := by
    rw [tokensFrom, runs _ _ (Nat.le_refl _)]
    cases result <;> rfl
  rw [same]
  exact ⟨scanned, runs⟩

section

variable {rule : Rule} {lexeme part after : List Char} {place : Position}

theorem tokensFrom_lexeme {kind : Kind} {value : String} (written : Lexeme kind value lexeme) (nonempty : lexeme ≠ [])
    (first : Rule.first? (lexeme ++ after) = some (rule, lexeme.length))
    (made : rule.token? lexeme = some (kind, value)) :
    tokensFrom place (lexeme ++ after) =
      (tokensFrom (place.past lexeme) after).map (Token.spelled kind value place lexeme :: ·) := by
  obtain ⟨c, rest, rfl⟩ := List.exists_cons_of_ne_nil nonempty
  have enough : after.length ≤ (rest ++ after).length := by simp
  calc tokensFrom place (c :: rest ++ after)
      = scanFrom ((rest ++ after).length + 1) ⟨c :: rest ++ after, place⟩ [] := rfl
    _ = scanFrom (rest ++ after).length ⟨after, _⟩ [Token.spelled kind value place (c :: rest)] :=
        scanFrom_lexeme written nonempty first made
    _ = _ := (tokensFrom_spec _ after).2 _ _ enough

theorem tokensFrom_gap (nonempty : part ≠ []) (first : Rule.first? (part ++ after) = some (rule, part.length))
    (made : rule.token? part = none) : tokensFrom place (part ++ after) = tokensFrom (place.past part) after := by
  obtain ⟨c, rest, rfl⟩ := List.exists_cons_of_ne_nil nonempty
  have enough : after.length ≤ (rest ++ after).length := by simp
  calc tokensFrom place (c :: rest ++ after)
      = scanFrom ((rest ++ after).length + 1) ⟨c :: rest ++ after, place⟩ [] := rfl
    _ = scanFrom (rest ++ after).length ⟨after, _⟩ [] := scanFrom_gap nonempty first made
    _ = (tokensFrom _ after).map ([].reverse ++ ·) := (tokensFrom_spec _ after).2 _ _ enough
    _ = _ := by cases tokensFrom (place.past (c :: rest)) after <;> rfl

end

end Cursor

end MatrixScript
