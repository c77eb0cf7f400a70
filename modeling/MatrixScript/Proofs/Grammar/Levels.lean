import MatrixScript.Grammar.Statement
import MatrixScript.Proofs.Grammar.Moves

/-! Levels of the grammar and powers of tokens.

The operators of a level are exactly the tokens with the power of that level, and both sides make the same of
their operands.
-/

set_option autoImplicit false

namespace MatrixScript.Grammar

namespace Level

def rank : Level → Nat
  | relational => 1
  | sum => 2
  | product => 3
  | cellSum => 4
  | cellProduct => 5
  | signed => 6
  | trailed => 7
  | primary => 8

theorem rank_tighter {level tighter : Level} (next : level.tighter? = some tighter) :
    tighter.rank = level.rank + 1 := by
  cases level <;> cases next <;> rfl

theorem rank_le (level : Level) : level.rank ≤ 8 := by
  cases level <;> decide

/-- The loosest level that an operand behind a token of the given power can have. -/
def behind : Power → Level
  | .lowest => relational
  | .relational => sum
  | .additive => product
  | .multiplicative => cellSum
  | .elementwiseAdditive => cellProduct
  | .elementwiseMultiplicative | .unary => signed
  | .trailing | .primary => primary

/-- Only signs follow one another without binding more tightly. -/
theorem lt_of_behind_le {level : Level} {power : Power} (admits : (behind power).rank ≤ level.rank)
    (unsigned : level ≠ signed) (composed : level ≠ primary) : power.rank < level.rank := by
  cases power <;> cases level <;> simp_all [behind, rank, Power.rank]

def ofPower : Power → Level
  | .lowest | .relational => relational
  | .additive => sum
  | .multiplicative => product
  | .elementwiseAdditive => cellSum
  | .elementwiseMultiplicative => cellProduct
  | .unary => signed
  | .trailing => trailed
  | .primary => primary

end Level

/-- Induction over derivations: a part has fewer tokens than the whole, or as many and a tighter level. -/
theorem Expression.strongRec
    {motive : ∀ {level : Level} {tokens : List Token} {term : Term}, Expression level tokens term → Prop}
    (step : ∀ {level : Level} {tokens : List Token} {term : Term} (derivation : Expression level tokens term),
      (∀ {level' : Level} {tokens' : List Token} {term' : Term} (part : Expression level' tokens' term'),
        tokens'.length < tokens.length ∨ tokens'.length = tokens.length ∧ level.rank < level'.rank →
          motive part) → motive derivation)
    {level : Level} {tokens : List Token} {term : Term} (derivation : Expression level tokens term) :
    motive derivation := by
  induction size : tokens.length * 9 + (8 - level.rank) using Nat.strongRecOn generalizing level tokens term with
  | ind n ih =>
    refine step derivation fun {level' _ _} part smaller => ih _ ?_ part rfl
    have := level.rank_le
    have := level'.rank_le
    omega

theorem Level.eq_or_tighter {looser level : Level} (below : looser.rank ≤ level.rank) :
    looser = level ∨ ∃ tighter, looser.tighter? = some tighter ∧ tighter.rank ≤ level.rank := by
  cases looser <;> cases level <;> simp_all [rank, tighter?]

theorem Expression.relax {level looser : Level} {tokens : List Token} {term : Term}
    (derivation : Expression level tokens term) (below : looser.rank ≤ level.rank) :
    Expression looser tokens term := by
  induction gap : 8 - looser.rank using Nat.strongRecOn generalizing looser with
  | ind n ih =>
    rcases Level.eq_or_tighter below with rfl | ⟨tighter, next, closer⟩
    · exact derivation
    · have := Level.rank_tighter next
      have := level.rank_le
      exact .tighter next (ih _ (by omega) closer rfl)

/-- What a token between two operands makes of them, as syntax trees and as nodes. -/
def Joint.join? : Joint → Option ((Term → Term → Term) × (ExprId → ExprId → ExprKind))
  | .compare op => some ((.compare · op ·), (.compare · op ·))
  | .linear op => some ((.linear · op ·), (.linear · op ·))
  | .elementwise op => some ((.elementwise · op ·), (.elementwise · op ·))
  | .transpose | .index => none

/-- The two readings of an operator agree: its node stands for its syntax tree. -/
theorem Joint.layout_join {tree : Tree} {joint : Joint} {join : Term → Term → Term}
    {node : ExprId → ExprId → ExprKind} (joins : joint.join? = some (join, node)) {lo mid hi : Nat}
    {left right : ExprId} {a b : Term} (first : ExprLayout tree lo mid left a)
    (second : ExprLayout tree mid hi right b) (root : tree.kind? ⟨hi⟩ = some (node left right)) :
    ExprLayout tree lo (hi + 1) ⟨hi⟩ (join a b) := by
  cases joint <;> cases joins
  · exact .compare first second root
  · exact .linear first second root
  · exact .elementwise first second root

theorem kind_of_transpose {kind : Kind} (found : jointOf? kind = some .transpose) : kind = .apostrophe := by
  cases kind <;> cases found
  rfl

theorem kind_of_index {kind : Kind} (found : jointOf? kind = some .index) : kind = .openBracket := by
  cases kind <;> cases found
  rfl

theorem continuation_of_joint {joint : Joint} {join : Term → Term → Term} {node : ExprId → ExprId → ExprKind}
    (joins : joint.join? = some (join, node)) (operand : Power → Parse ExprId) (bound : Nat) (left : ExprId)
    (parser : Parser) (found : jointOf? parser.current.kind = some joint) :
    continuation operand bound left parser = binary operand left (node left) parser := by
  simp only [continuation, Parse.bind_apply, Parse.peek_apply, found]
  cases joint <;> cases joins <;> rfl

theorem Level.joint_of_operator {level : Level} {kind : Kind} {join : Term → Term → Term}
    (listed : (kind, join) ∈ level.operators) :
    ∃ joint node, jointOf? kind = some joint ∧ joint.join? = some (join, node) ∧
      kind.power.rank = level.rank := by
  have all : ∀ pair ∈ level.operators, ∃ joint node, jointOf? pair.1 = some joint ∧
      joint.join? = some (pair.2, node) ∧ pair.1.power.rank = level.rank := by
    cases level <;> simp [operators, jointOf?, Joint.join?, Kind.power, Power.rank, rank]
  exact all _ listed

theorem Level.operator_of_joint {kind : Kind} {joint : Joint} {join : Term → Term → Term}
    {node : ExprId → ExprId → ExprKind} (found : jointOf? kind = some joint)
    (joins : joint.join? = some (join, node)) :
    (ofPower kind.power).tighter? = some (behind kind.power) ∧ (kind, join) ∈ (ofPower kind.power).operators ∧
      (ofPower kind.power).rank = kind.power.rank := by
  cases kind <;> cases found <;> cases joins <;>
    exact ⟨rfl, by simp [Kind.power, ofPower, operators], rfl⟩

end MatrixScript.Grammar
