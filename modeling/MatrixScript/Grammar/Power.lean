import MatrixScript.Token.Basic

/-! Binding powers: how tightly a token that continues an expression holds its operands. -/

set_option autoImplicit false

namespace MatrixScript

inductive Power where
  | lowest
  | relational
  | additive
  | multiplicative
  | elementwiseAdditive
  | elementwiseMultiplicative
  | unary
  | trailing
  | primary
  deriving DecidableEq, Repr

namespace Power

def label : Power → String
  | lowest => "Default"
  | relational => "Relational"
  | additive => "Additive"
  | multiplicative => "Multiplicative"
  | elementwiseAdditive => "ElementwiseAdditive"
  | elementwiseMultiplicative => "ElementwiseMultiplicative"
  | unary => "Unary"
  | trailing => "Postfix"
  | primary => "Primary"

def all : List Power :=
  [lowest, relational, additive, multiplicative, elementwiseAdditive, elementwiseMultiplicative,
    unary, trailing, primary]

def rank : Power → Nat
  | lowest => 0
  | relational => 1
  | additive => 2
  | multiplicative => 3
  | elementwiseAdditive => 4
  | elementwiseMultiplicative => 5
  | unary => 6
  | trailing => 7
  | primary => 8

end Power

/-- The power of a token between two operands or behind one; all others cannot continue an expression. -/
def Kind.power : Kind → Power
  | less | lessEquals | greater | greaterEquals | equals | notEquals => .relational
  | plus | dash => .additive
  | star | slash => .multiplicative
  | dotPlus | dotDash => .elementwiseAdditive
  | dotStar | dotSlash => .elementwiseMultiplicative
  | apostrophe | openBracket => .trailing
  | _ => .lowest

end MatrixScript
