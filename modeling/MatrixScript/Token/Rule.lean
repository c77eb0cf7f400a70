import MatrixScript.Text.Blank
import MatrixScript.Text.Digit
import MatrixScript.Token.Basic

/-! The lexical rules.

A rule looks at the whole remaining text and says how many of its first characters it takes. The rules
are tried in the order of the table and the first one that takes anything wins. The order makes this
the longest match: a rule stands before every rule that could take a shorter part of the same text.
-/

set_option autoImplicit false

namespace MatrixScript

inductive Rule where
  | word
  | float
  | int
  | blank
  | quoted
  | comment
  | mark (kind : Kind) (lexeme : String)
  deriving DecidableEq, Repr

namespace Rule

def isWordStart (c : Char) : Bool := c.isAlpha || c == '_'

def isWordPart (c : Char) : Bool := c.isAlphanum || c == '_'

def run (inClass : Char → Bool) (text : List Char) : Nat :=
  (text.takeWhile inClass).length

def someRun? (inClass : Char → Bool) (text : List Char) : Option Nat :=
  match run inClass text with
  | 0 => none
  | count => some count

def wordLength? : List Char → Option Nat
  | [] => none
  | c :: rest => if isWordStart c then some (run isWordPart rest + 1) else none

def exponentLength : List Char → Nat
  | [] => 0
  | c :: rest =>
    let sign :=
      match rest with
      | '+' :: _ | '-' :: _ => 1
      | _ => 0
    let digits := run Text.isDigit (rest.drop sign)
    if (c = 'e' ∨ c = 'E') ∧ 0 < digits then 1 + sign + digits else 0

/-- A float has a point with a digit on one side of it at least. -/
def floatLength? (text : List Char) : Option Nat :=
  let whole := run Text.isDigit text
  match text.drop whole with
  | '.' :: rest =>
    let fraction := run Text.isDigit rest
    if whole = 0 ∧ fraction = 0 then none
    else some (whole + 1 + fraction + exponentLength (rest.drop fraction))
  | _ => none

/-- Length of the rest of a text literal, closing quote included, after `taken` characters of it. A
backslash takes the next character with it, and neither of them may be a newline. -/
def closingLength? (taken : Nat) : List Char → Option Nat
  | [] => none
  | [c] => if c = '"' then some (taken + 1) else none
  | c :: d :: rest =>
    if c = '"' then some (taken + 1)
    else if c = '\n' then none
    else if c = '\\' then
      if d = '\n' then none else closingLength? (taken + 2) rest
    else closingLength? (taken + 1) (d :: rest)

def textLength? : List Char → Option Nat
  | '"' :: rest => closingLength? 1 rest
  | _ => none

def commentLength? : List Char → Option Nat
  | '#' :: rest => some (run (· != '\n') rest + 1)
  | _ => none

def markLength? (lexeme text : List Char) : Option Nat :=
  if lexeme.isPrefixOf text then some lexeme.length else none

def length? : Rule → List Char → Option Nat
  | word, text => wordLength? text
  | float, text => floatLength? text
  | int, text => someRun? Text.isDigit text
  | blank, text => someRun? Text.isBlank text
  | quoted, text => textLength? text
  | comment, text => commentLength? text
  | mark _ lexeme, text => markLength? lexeme.toList text

def marks : List (Kind × String) :=
  [(.dotPlus, ".+"), (.dotDash, ".-"), (.dotStar, ".*"), (.dotSlash, "./"),
    (.plusEquals, "+="), (.minusEquals, "-="), (.starEquals, "*="), (.slashEquals, "/="),
    (.equals, "=="), (.notEquals, "!="), (.lessEquals, "<="), (.greaterEquals, ">="),
    (.assign, "="), (.less, "<"), (.greater, ">"),
    (.plus, "+"), (.dash, "-"), (.star, "*"), (.slash, "/"), (.apostrophe, "'"),
    (.openParen, "("), (.closeParen, ")"), (.openBracket, "["), (.closeBracket, "]"),
    (.openCurly, "\x7b"), (.closeCurly, "\x7d"), (.colon, ":"), (.comma, ","), (.semicolon, ";")]

def table : List Rule :=
  [word, float, int, blank, quoted, comment] ++ marks.map fun (kind, lexeme) => mark kind lexeme

/-- The first rule of the table that takes something, with the number of characters it takes. -/
def first? (text : List Char) : Option (Rule × Nat) :=
  table.findSome? fun rule => (rule.length? text).map fun length => (rule, length)

/-- What the character after a backslash stands for; an unknown one keeps its backslash. -/
def escaped (c : Char) : List Char :=
  if c = 'n' then ['\n']
  else if c = 't' then ['\t']
  else if c = '\\' then ['\\']
  else if c = '"' then ['"']
  else ['\\', c]

def unescape : List Char → List Char
  | [] => []
  | [c] => [c]
  | c :: d :: rest => if c = '\\' then escaped d ++ unescape rest else c :: unescape (d :: rest)

/-- The token kind and value that a rule makes of its lexeme; blanks and comments make none. -/
def token? : Rule → List Char → Option (Kind × String)
  | word, lexeme => let word := String.ofList lexeme; some (wordKind word, word)
  | float, lexeme => some (.float, String.ofList lexeme)
  | int, lexeme => some (.int, String.ofList lexeme)
  | blank, _ => none
  | quoted, lexeme => some (.text, String.ofList (unescape (lexeme.drop 1).dropLast))
  | comment, _ => none
  | mark kind lexeme, _ => some (kind, lexeme)

end Rule

end MatrixScript
