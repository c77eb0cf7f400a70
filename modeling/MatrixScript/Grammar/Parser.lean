import MatrixScript.Fault
import MatrixScript.Grammar.Power
import MatrixScript.Tree

/-! The state of parsing and its elementary moves.

A parser always has a current token. The last token ends the program and is never left, so a parser that
has reached it stays there. A failed move keeps the state in which it failed.
-/

set_option autoImplicit false

namespace MatrixScript

structure Parser where
  current : Token
  following : List Token
  /-- Where the most recently left token ends. -/
  left? : Option Position
  tree : Tree
  deriving Repr

namespace Parser

/-- A parser before the first token. A missing end token is supplied where the last token ends. -/
def start : List Token → Parser
  | [] => ⟨Token.atEnd ⟨0, 0⟩, [], none, {}⟩
  | first :: rest =>
    let last := rest.getLastD first
    let closing := if last.kind = .eof then [] else [Token.atEnd last.span.stop]
    ⟨first, rest ++ closing, none, {}⟩

def previousEnd (parser : Parser) : Position :=
  parser.left?.getD parser.current.span.start

def hasTokens (parser : Parser) : Bool :=
  parser.current.kind ≠ .eof

def power (parser : Parser) : Power := parser.current.kind.power

/-- Leaves the current token, unless it is the last one. -/
def next (parser : Parser) : Parser :=
  match parser.following with
  | [] => parser
  | token :: rest =>
    { parser with current := token, following := rest, left? := some parser.current.span.stop }

def unexpectedFailure (parser : Parser) : Failure :=
  ⟨.unexpected parser.current.value, parser.current.span.start⟩

def detailedFailure (parser : Parser) (detail : String) : Failure :=
  ⟨.unexpectedDetailed parser.current.value detail, parser.current.span.start⟩

end Parser

abbrev Parse := EStateM Failure Parser

namespace Parse

def advance : Parse Token :=
  modifyGet fun parser => (parser.current, parser.next)

def peek : Parse Kind := do
  return (← get).current.kind

def here : Parse Position := do
  return (← get).current.span.start

def unexpected {α : Type} : Parse α := do
  throw (← get).unexpectedFailure

def unexpectedDetailed {α : Type} (detail : String) : Parse α := do
  throw ((← get).detailedFailure detail)

def expectOr (kind : Kind) (failure : Failure) : Parse Token := do
  if (← peek) = kind then advance else throw failure

def expect (kind : Kind) : Parse Token := do
  expectOr kind (← get).unexpectedFailure

def spanFrom (start : Position) : Parse Span := do
  return ⟨start, (← get).previousEnd⟩

def addExpr (kind : ExprKind) (span : Span) : Parse ExprId :=
  modifyGet fun parser =>
    let (id, tree) := parser.tree.addExpr kind span
    (id, { parser with tree })

def addStmt (kind : StmtKind) (span : Span) : Parse StmtId :=
  modifyGet fun parser =>
    let (id, tree) := parser.tree.addStmt kind span
    (id, { parser with tree })

def exprSpan (id : ExprId) : Parse Span := do
  return (← get).tree.exprSpan id

def kind? (id : ExprId) : Parse (Option ExprKind) := do
  return (← get).tree.kind? id

end Parse

end MatrixScript
