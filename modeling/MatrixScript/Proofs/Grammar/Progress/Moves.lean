import MatrixScript.Proofs.Grammar.Soundness.Expression

/-! Productions that take tokens.

Two runs of the parser are followed at once, from the same parser, and it is counted how many tokens they have taken.
They may be given different parsers for operands, and different bounds. What they do is the same as long as the operands
are the same wherever fewer tokens are left.
-/

set_option autoImplicit false

namespace MatrixScript

def Parser.Precedes (stream : List Token) (one other : Parser) : Prop :=
  ∃ place later, place < later ∧ later < stream.length ∧ one.tokens = stream.drop place ∧
    other.tokens = stream.drop later

theorem Parser.precedes_of_suffix {stream : List Token} {one other : Parser} (inside : one.tokens <:+ stream)
    (behind : other.tokens <:+ one.tokens) (fewer : other.following.length < one.following.length) :
    one.Precedes stream other := by
  have within := behind.trans inside
  refine ⟨stream.length - one.tokens.length, stream.length - other.tokens.length, ?_, ?_,
    List.suffix_iff_eq_drop.mp inside, List.suffix_iff_eq_drop.mp within⟩
  · have := inside.length_le
    simp only [length_tokens] at *
    omega
  · have := within.length_le
    simp only [length_tokens] at *
    omega

theorem Parser.next_behind {parser : Parser} (some : parser.following ≠ []) :
    parser.next.tokens <:+ parser.tokens ∧ parser.next.following.length + 1 ≤ parser.following.length := by
  have moved : parser.next.tokens = parser.following := tokens_next rfl some
  constructor
  · rw [moved]
    exact List.suffix_cons _ _
  · have length := congrArg List.length moved
    rw [length_tokens] at length
    exact Nat.le_of_eq length

namespace Grammar

open Parse

theorem Ended.of_suffix {stream tokens : List Token} (ended : Ended stream) (behind : tokens <:+ stream)
    (some : tokens ≠ []) : Ended tokens := by
  induction ended with
  | last isEnd =>
    rcases List.suffix_cons_iff.mp behind with rfl | none
    · exact .last isEnd
    · exact absurd (List.suffix_nil.mp none) some
  | more ended ih =>
    rcases List.suffix_cons_iff.mp behind with rfl | behind
    · exact .more ended
    · exact ih behind

variable {α β : Type}

/-- At a token of certain kinds, with fewer than `reach` tokens behind it, two productions do the same, and have taken
at least so many tokens when they succeed. -/
def Paired (stream : List Token) (start : Kind → Prop) (reach taken : Nat) (action action' : Parse α) : Prop :=
  ∀ parser : Parser, parser.tokens <:+ stream → start parser.current.kind → parser.following.length < reach →
    action parser = action' parser ∧ ∀ value after, action parser = .ok value after →
      after.tokens <:+ parser.tokens ∧ after.following.length + taken ≤ parser.following.length

abbrev Anywhere : Kind → Prop := fun _ => True

section

variable {stream : List Token} {start start' : Kind → Prop} {reach reach' taken taken' : Nat} {action action' : Parse α}

namespace Paired

theorem weaken (paired : Paired stream start reach taken action action') (fewer : reach' ≤ reach)
    (less : taken' ≤ taken) (only : ∀ kind, start' kind → start kind) :
    Paired stream start' reach' taken' action action' := by
  intro parser inside known near
  obtain ⟨same, counted⟩ := paired parser inside (only _ known) (Nat.lt_of_lt_of_le near fewer)
  refine ⟨same, fun value after done => ?_⟩
  obtain ⟨behind, count⟩ := counted value after done
  exact ⟨behind, Nat.le_trans (Nat.add_le_add_left less _) count⟩

theorem symm (paired : Paired stream start reach taken action action') :
    Paired stream start reach taken action' action := by
  intro parser inside known near
  obtain ⟨same, counted⟩ := paired parser inside known near
  exact ⟨same.symm, fun value after done => counted value after (same.trans done)⟩

theorem congr {action'' : Parse α} (paired : Paired stream start reach taken action action')
    (alike : ∀ parser : Parser, parser.tokens <:+ stream → start parser.current.kind →
      parser.following.length < reach → action' parser = action'' parser) :
    Paired stream start reach taken action action'' := by
  intro parser inside known near
  obtain ⟨same, counted⟩ := paired parser inside known near
  exact ⟨same.trans (alike parser inside known near), counted⟩

theorem trans {action'' : Parse α} (paired : Paired stream start reach taken action action')
    (paired' : Paired stream start reach taken action' action'') :
    Paired stream start reach taken action action'' :=
  paired.congr fun parser inside known near => (paired' parser inside known near).1

theorem pure (value : α) : Paired stream start reach 0 (Pure.pure value) (Pure.pure value) := by
  intro parser _ _ _
  refine ⟨rfl, fun _ _ done => ?_⟩
  cases done
  exact ⟨List.suffix_refl _, Nat.le_refl _⟩

theorem bind {next next' : α → Parse β} (first : Paired stream start reach taken action action')
    (second : ∀ value, Paired stream Anywhere (reach - taken) taken' (next value) (next' value)) :
    Paired stream start reach (taken + taken') (action >>= next) (action' >>= next') := by
  intro parser inside known near
  obtain ⟨same, counted⟩ := first parser inside known near
  -- both go on from the same parser, or fail alike
  rw [bind_apply, bind_apply, ← same]
  cases done : action parser with
  | error failure after => exact ⟨rfl, nofun⟩
  | ok value middle =>
    obtain ⟨behind, count⟩ := counted value middle done
    obtain ⟨same', counted'⟩ := second value middle (behind.trans inside) trivial (by omega)
    refine ⟨same', fun result after done' => ?_⟩
    obtain ⟨behind', count'⟩ := counted' result after done'
    exact ⟨behind'.trans behind, by omega⟩

theorem bind_first {next next' : α → Parse β} (first : Paired stream start reach taken action action')
    (second : ∀ value, Paired stream Anywhere (reach - taken) 0 (next value) (next' value)) :
    Paired stream start reach taken (action >>= next) (action' >>= next') :=
  first.bind second

theorem bind_second {next next' : α → Parse β} (first : Paired stream start reach 0 action action')
    (second : ∀ value, Paired stream Anywhere reach taken (next value) (next' value)) :
    Paired stream start reach taken (action >>= next) (action' >>= next') := by
  have both := first.bind second
  rw [Nat.zero_add] at both
  exact both

theorem uncounted (paired : Paired stream start reach taken action action') :
    Paired stream start reach 0 action action' :=
  paired.weaken (Nat.le_refl _) (Nat.zero_le _) fun _ => id

theorem fewer (paired : Paired stream start reach taken action action') (le : reach' ≤ reach) :
    Paired stream start reach' taken action action' :=
  paired.weaken le (Nat.le_refl _) fun _ => id

theorem anywhere (paired : Paired stream Anywhere reach taken action action') :
    Paired stream start reach taken action action' :=
  paired.weaken (Nat.le_refl _) (Nat.le_refl _) fun _ _ => trivial

theorem look (value : Parser → α) :
    Paired stream start reach 0 (do return value (← get)) (do return value (← get)) := by
  intro parser _ _ _
  refine ⟨rfl, fun _ _ done => ?_⟩
  cases done
  exact ⟨List.suffix_refl _, Nat.le_refl _⟩

theorem peek {next next' : Kind → Parse β}
    (second : ∀ kind, start kind → Paired stream (· = kind) reach taken (next kind) (next' kind)) :
    Paired stream start reach taken (Parse.peek >>= next) (Parse.peek >>= next') :=
  fun parser inside known near => second _ known parser inside rfl near

theorem fails (failure : Parser → Failure) : Paired stream start reach taken
    (do throw (failure (← get)) : Parse α) (do throw (failure (← get)) : Parse α) :=
  fun _ _ _ _ => ⟨rfl, nofun⟩

theorem throw (failure : Failure) : Paired stream start reach taken (throw failure : Parse α) (throw failure) :=
  fun _ _ _ _ => ⟨rfl, nofun⟩

theorem addExpr (kind : ExprKind) (span : Span) :
    Paired stream start reach 0 (Parse.addExpr kind span) (Parse.addExpr kind span) := by
  intro parser _ _ _
  refine ⟨rfl, fun _ _ done => ?_⟩
  cases done
  exact ⟨List.suffix_refl _, Nat.le_refl _⟩

theorem addStmt (kind : StmtKind) (span : Span) :
    Paired stream start reach 0 (Parse.addStmt kind span) (Parse.addStmt kind span) := by
  intro parser _ _ _
  refine ⟨rfl, fun _ _ done => ?_⟩
  cases done
  exact ⟨List.suffix_refl _, Nat.le_refl _⟩

theorem addExprFrom (kind : ExprKind) (place : Position) : Paired stream start reach 0
    (do Parse.addExpr kind (← Parse.spanFrom place)) (do Parse.addExpr kind (← Parse.spanFrom place)) :=
  (look _).bind_first fun _ => addExpr kind _

theorem addStmtFrom (kind : StmtKind) (place : Position) : Paired stream start reach 0
    (do Parse.addStmt kind (← Parse.spanFrom place)) (do Parse.addStmt kind (← Parse.spanFrom place)) :=
  (look _).bind_first fun _ => addStmt kind _

theorem advance (ended : Ended stream) (other : ¬start .eof) :
    Paired stream start reach 1 Parse.advance Parse.advance := by
  intro parser inside known _
  refine ⟨rfl, fun _ _ done => ?_⟩
  cases done
  apply Parser.next_behind
  -- with nothing behind it, the token would be an end token
  intro none
  rw [(ended.of_suffix inside (List.cons_ne_nil _ _)).current none] at known
  exact other known

theorem leave : Paired stream start reach 0 Parse.advance Parse.advance := by
  intro parser _ _ _
  refine ⟨rfl, fun _ _ done => ?_⟩
  cases done
  by_cases none : parser.following = []
  · have stays : parser.next = parser := by
      unfold Parser.next
      rw [none]
    rw [stays]
    exact ⟨List.suffix_refl _, Nat.le_refl _⟩
  · obtain ⟨behind, count⟩ := Parser.next_behind none
    exact ⟨behind, Nat.le_of_succ_le count⟩

theorem expect (ended : Ended stream) (kind : Kind) (other : kind ≠ .eof) :
    Paired stream start reach 1 (Parse.expect kind) (Parse.expect kind) := by
  intro parser inside _ near
  refine ⟨rfl, fun token after done => ?_⟩
  obtain ⟨same, rfl, rfl⟩ := expect_eq_ok.mp done
  have taken : Paired stream (· = kind) reach 1 Parse.advance Parse.advance := advance ended other.symm
  exact (taken parser inside same near).2 _ _ rfl

end Paired

end

end Grammar

end MatrixScript
