import MatrixScript.Source

/-! Tokens: the words, numbers, texts and marks that a program is made of. -/

set_option autoImplicit false

namespace MatrixScript

inductive Kind where
  | eof
  | int | float | text | name
  | openBracket | closeBracket | openCurly | closeCurly | openParen | closeParen
  | assign | equals | notEquals
  | less | lessEquals | greater | greaterEquals
  | semicolon | colon | comma | apostrophe
  | plusEquals | minusEquals | starEquals | slashEquals
  | plus | dash | star | slash
  | dotPlus | dotDash | dotStar | dotSlash
  | ifWord | elseWord | forWord | whileWord | breakWord | continueWord | returnWord | printWord
  | eyeWord | zerosWord | onesWord
  deriving DecidableEq, Repr

namespace Kind

def label : Kind → String
  | eof => "EOF"
  | int => "Int"
  | float => "Float"
  | text => "String"
  | name => "Identifier"
  | openBracket => "OpenBracket"
  | closeBracket => "CloseBracket"
  | openCurly => "OpenCurly"
  | closeCurly => "CloseCurly"
  | openParen => "OpenParen"
  | closeParen => "CloseParen"
  | assign => "Assignment"
  | equals => "Equals"
  | notEquals => "NotEquals"
  | less => "Less"
  | lessEquals => "LessEquals"
  | greater => "Greater"
  | greaterEquals => "GreaterEquals"
  | semicolon => "Semicolon"
  | colon => "Colon"
  | comma => "Comma"
  | apostrophe => "Apostrophe"
  | plusEquals => "PlusEquals"
  | minusEquals => "MinusEquals"
  | starEquals => "StarEquals"
  | slashEquals => "SlashEquals"
  | plus => "Plus"
  | dash => "Dash"
  | star => "Star"
  | slash => "Slash"
  | dotPlus => "DotPlus"
  | dotDash => "DotDash"
  | dotStar => "DotStar"
  | dotSlash => "DotSlash"
  | ifWord => "If"
  | elseWord => "Else"
  | forWord => "For"
  | whileWord => "While"
  | breakWord => "Break"
  | continueWord => "Continue"
  | returnWord => "Return"
  | printWord => "Print"
  | eyeWord => "Eye"
  | zerosWord => "Zeros"
  | onesWord => "Ones"

def all : List Kind :=
  [eof, int, float, text, name, openBracket, closeBracket, openCurly, closeCurly, openParen,
    closeParen, assign, equals, notEquals, less, lessEquals, greater, greaterEquals, semicolon,
    colon, comma, apostrophe, plusEquals, minusEquals, starEquals, slashEquals, plus, dash, star,
    slash, dotPlus, dotDash, dotStar, dotSlash, ifWord, elseWord, forWord, whileWord, breakWord,
    continueWord, returnWord, printWord, eyeWord, zerosWord, onesWord]

def ofLabel? (text : String) : Option Kind :=
  all.find? (·.label == text)

/-- The kinds whose tokens differ in their text. -/
def carriesValue : Kind → Bool
  | text | name | int | float => true
  | _ => false

end Kind

def reservedWords : List (String × Kind) :=
  [("if", .ifWord), ("else", .elseWord), ("for", .forWord), ("while", .whileWord),
    ("break", .breakWord), ("continue", .continueWord), ("return", .returnWord),
    ("print", .printWord), ("eye", .eyeWord), ("zeros", .zerosWord), ("ones", .onesWord)]

def wordKind (word : String) : Kind :=
  (reservedWords.lookup word).getD .name

structure Token where
  kind : Kind
  value : String
  span : Span
  deriving DecidableEq, Repr

def Token.display (token : Token) : String :=
  if token.kind.carriesValue then
    s!"{token.kind.label} ({token.value})"
  else
    s!"{token.kind.label} ()"

/-- The token that ends every program, at an empty place. -/
def Token.atEnd (place : Position) : Token :=
  ⟨.eof, "EOF", ⟨place, place⟩⟩

end MatrixScript
