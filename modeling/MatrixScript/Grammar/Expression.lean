import MatrixScript.Decimal.Reading
import MatrixScript.Grammar.Parser
import MatrixScript.Integer

/-! Expressions.

An expression is an opening, such as a literal or a negation, and then continuations for as long as the
current token binds more tightly than the surrounding operator. The productions take the parser for
operands as an argument. Every operand comes after a token that has been left, so the nesting of operands
and the length of every list are bounded by the number of tokens.
-/

set_option autoImplicit false

namespace MatrixScript.Grammar

open Parse

/-- What a token that continues an expression does with it. -/
inductive Joint where
  | compare (op : Compare)
  | linear (op : Arith)
  | elementwise (op : Arith)
  | transpose
  | index
  deriving DecidableEq, Repr

def jointOf? : Kind → Option Joint
  | .less => some (.compare .less)
  | .lessEquals => some (.compare .lessEquals)
  | .greater => some (.compare .greater)
  | .greaterEquals => some (.compare .greaterEquals)
  | .equals => some (.compare .equals)
  | .notEquals => some (.compare .notEquals)
  | .plus => some (.linear .add)
  | .dash => some (.linear .sub)
  | .star => some (.linear .mul)
  | .slash => some (.linear .div)
  | .dotPlus => some (.elementwise .add)
  | .dotDash => some (.elementwise .sub)
  | .dotStar => some (.elementwise .mul)
  | .dotSlash => some (.elementwise .div)
  | .apostrophe => some .transpose
  | .openBracket => some .index
  | _ => none

def atomOf (token : Token) : Except Fault ExprKind :=
  match token.kind with
  | .int =>
    match Integer.read? token.value with
    | some value => .ok (.int value)
    | none => .error (.malformedNumber token.value)
  | .float =>
    match Decimal.read? token.value with
    | some value => .ok (.float value)
    | none => .error (.malformedNumber token.value)
  | .text => .ok (.text token.value)
  | .name => .ok (.name token.value)
  | _ => .error (.unexpected token.value)

def atom : Parse ExprId := do
  let token ← advance
  match atomOf token with
  | .ok kind => addExpr kind token.span
  | .error fault => throw ⟨fault, token.span.start⟩

def addRange (start stop : ExprId) : Parse ExprId := do
  let first ← exprSpan start
  let last ← exprSpan stop
  addExpr (.range start stop) ⟨first.start, last.stop⟩

section

variable (operand : Power → Parse ExprId)

def negation : Parse ExprId := do
  let token ← advance
  let value ← operand .unary
  addExpr (.negate value) (← spanFrom token.span.start)

def group : Parse ExprId := do
  let _ ← expect .openParen
  let inner ← operand .lowest
  let _ ← expect .closeParen
  return inner

/-- Further items, each behind a comma, after those already `found`, which are in reverse. -/
def itemsAfter (item : Parse ExprId) : Nat → List ExprId → Parse (List ExprId)
  | 0, found => return found.reverse
  | bound + 1, found => do
    if (← peek) = .comma then
      let _ ← advance
      let next ← item
      itemsAfter item bound (next :: found)
    else
      return found.reverse

def items (bound : Nat) (terminator : Kind) : Parse (List ExprId) := do
  if (← peek) = terminator then
    let _ ← advance
    return []
  else
    let first ← operand .lowest
    let all ← itemsAfter (operand .lowest) bound [first]
    let _ ← expect terminator
    return all

def arrayLiteral (bound : Nat) : Parse ExprId := do
  let token ← expect .openBracket
  let elements ← items operand bound .closeBracket
  addExpr (.array elements) (← spanFrom token.span.start)

def builtin (bound : Nat) (function : Builtin) : Parse ExprId := do
  let token ← advance
  let _ ← expect .openParen
  let arguments ← items operand bound .closeParen
  addExpr (.builtin function arguments) (← spanFrom token.span.start)

def opening (bound : Nat) : Parse ExprId := do
  match ← peek with
  | .int | .float | .text | .name => atom
  | .dash => negation operand
  | .openParen => group operand
  | .openBracket => arrayLiteral operand bound
  | .eyeWord => builtin operand bound .eye
  | .zerosWord => builtin operand bound .zeros
  | .onesWord => builtin operand bound .ones
  | _ => unexpected

/-- An index: one expression, or the two bounds of a range. -/
def component : Parse ExprId := do
  let start ← operand .lowest
  if (← peek) = .colon then
    let _ ← advance
    let stop ← operand .lowest
    addRange start stop
  else
    return start

def indexing (bound : Nat) (base : ExprId) : Parse ExprId := do
  match ← kind? base with
  | some (.name _) | some (.text _) =>
    let _ ← expect .openBracket
    let first ← component operand
    let indices ← itemsAfter (component operand) bound [first]
    let _ ← expect .closeBracket
    let span ← spanFrom (← exprSpan base).start
    addExpr (.indexed base indices) span
  | _ => unexpectedDetailed "only variables and strings can be indexed"

def transposition (inner : ExprId) : Parse ExprId := do
  let _ ← expect .apostrophe
  let span ← spanFrom (← exprSpan inner).start
  addExpr (.transpose inner) span

def binary (left : ExprId) (join : ExprId → ExprKind) : Parse ExprId := do
  let token ← advance
  let right ← operand token.kind.power
  let span ← spanFrom (← exprSpan left).start
  addExpr (join right) span

def continuation (bound : Nat) (left : ExprId) : Parse ExprId := do
  match jointOf? (← peek) with
  | some (.compare op) => binary operand left (.compare left op)
  | some (.linear op) => binary operand left (.linear left op)
  | some (.elementwise op) => binary operand left (.elementwise left op)
  | some .transpose => transposition left
  | some .index => indexing operand bound left
  | none => unexpected

/-- Continues `left` while the current token binds more tightly than `power`. -/
def climb (bound : Nat) (power : Power) : Nat → ExprId → Parse ExprId
  | 0, left => return left
  | steps + 1, left => do
    if power.rank < (← peek).power.rank then
      let longer ← continuation operand bound left
      climb bound power steps longer
    else
      return left

end

/-- An expression whose operators all bind more tightly than `power`, nested at most `depth` deep. -/
def expressionWithin : Nat → Power → Parse ExprId
  | 0, _ => unexpected
  | depth + 1, power => do
    let left ← opening (expressionWithin depth) depth
    climb (expressionWithin depth) depth power depth left

def expression (power : Power) : Parse ExprId := do
  expressionWithin ((← get).following.length + 1) power

end MatrixScript.Grammar
