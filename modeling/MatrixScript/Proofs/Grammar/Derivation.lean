import MatrixScript.Operator
import MatrixScript.Token.Basic

/-! The grammar of the language.

A derivation relates a list of tokens to the syntax tree that it stands for. Expressions are stratified: every level
admits the operators of that level between operands of tighter levels, and operators of one level group from the
left. Parentheses leave no trace in the syntax tree, and a number keeps its text.
-/

set_option autoImplicit false

namespace MatrixScript.Grammar

inductive Base where
  | name (name : String)
  | text (value : String)
  deriving DecidableEq, Repr

inductive Component (α : Type) where
  | point (index : α)
  | span (start stop : α)

inductive Term where
  | int (digits : String)
  | float (digits : String)
  | text (value : String)
  | name (name : String)
  | array (items : List Term)
  | indexed (base : Base) (indices : List (Component Term))
  | linear (left : Term) (op : Arith) (right : Term)
  | elementwise (left : Term) (op : Arith) (right : Term)
  | compare (left : Term) (op : Compare) (right : Term)
  | negate (operand : Term)
  | transpose (operand : Term)
  | builtin (function : Builtin) (arguments : List Term)

inductive Phrase where
  | block (body : List Phrase)
  | assign (target : Term) (op : Assign) (value : Term)
  | forRange (counter : String) (start stop : Term) (body : Phrase)
  | whileLoop (condition : Term) (body : Phrase)
  | branch (condition : Term) (thenBody : Phrase)
  | branchElse (condition : Term) (thenBody elseBody : Phrase)
  | breakLoop
  | continueLoop
  | giveBack (values : List Term)
  | print (values : List Term)

/-- Whether a statement ends with a branch that could still take an `else`. -/
def Phrase.endsOpen : Phrase → Bool
  | branch _ _ => true
  | branchElse _ _ elseBody => elseBody.endsOpen
  | forRange _ _ _ body => body.endsOpen
  | whileLoop _ body => body.endsOpen
  | _ => false

/-- The levels of expressions, the loosest first. -/
inductive Level where
  | relational
  | sum
  | product
  | cellSum
  | cellProduct
  | signed
  | trailed
  | primary
  deriving DecidableEq, Repr

namespace Level

def tighter? : Level → Option Level
  | relational => some sum
  | sum => some product
  | product => some cellSum
  | cellSum => some cellProduct
  | cellProduct => some signed
  | signed => some trailed
  | trailed => some primary
  | primary => none

/-- The operators of a level, with what they make of their operands. -/
def operators : Level → List (Kind × (Term → Term → Term))
  | relational =>
    [(.less, (.compare · .less ·)), (.greater, (.compare · .greater ·)),
      (.lessEquals, (.compare · .lessEquals ·)), (.greaterEquals, (.compare · .greaterEquals ·)),
      (.equals, (.compare · .equals ·)), (.notEquals, (.compare · .notEquals ·))]
  | sum => [(.plus, (.linear · .add ·)), (.dash, (.linear · .sub ·))]
  | product => [(.star, (.linear · .mul ·)), (.slash, (.linear · .div ·))]
  | cellSum => [(.dotPlus, (.elementwise · .add ·)), (.dotDash, (.elementwise · .sub ·))]
  | cellProduct => [(.dotStar, (.elementwise · .mul ·)), (.dotSlash, (.elementwise · .div ·))]
  | signed | trailed | primary => []

end Level

def builtinWords : List (Kind × Builtin) :=
  [(.eyeWord, .eye), (.zerosWord, .zeros), (.onesWord, .ones)]

def assignMarks : List (Kind × Assign) :=
  [(.assign, .plain), (.plusEquals, .compound .add), (.minusEquals, .compound .sub),
    (.starEquals, .compound .mul), (.slashEquals, .compound .div)]

section

variable {α : Type} (item : List Token → α → Prop)

inductive Listed : List Token → List α → Prop where
  | last {tokens : List Token} {x : α} : item tokens x → Listed tokens [x]
  | more {tokens rest : List Token} {comma : Token} {x : α} {xs : List α} :
      item tokens x → comma.kind = .comma → Listed rest xs → Listed (tokens ++ comma :: rest) (x :: xs)

inductive Items : List Token → List α → Prop where
  | none : Items [] []
  | some {tokens : List Token} {xs : List α} : Listed item tokens xs → Items tokens xs

inductive Sequence : List Token → List α → Prop where
  | nil : Sequence [] []
  | cons {tokens rest : List Token} {x : α} {xs : List α} :
      item tokens x → Sequence rest xs → Sequence (tokens ++ rest) (x :: xs)

inductive Indices : List Token → Component α → Prop where
  | point {tokens : List Token} {x : α} : item tokens x → Indices tokens (.point x)
  | span {tokens rest : List Token} {colon : Token} {x y : α} :
      item tokens x → colon.kind = .colon → item rest y → Indices (tokens ++ colon :: rest) (.span x y)

inductive Enclosed (first last : Kind) : List Token → α → Prop where
  | mk {opening closing : Token} {tokens : List Token} {x : α} :
      opening.kind = first → item tokens x → closing.kind = last →
        Enclosed first last (opening :: (tokens ++ [closing])) x

end

inductive Indexable : List Token → Base → Prop where
  | name {token : Token} : token.kind = .name → Indexable [token] (.name token.value)
  | text {token : Token} : token.kind = .text → Indexable [token] (.text token.value)
  | group {tokens : List Token} {base : Base} :
      Enclosed Indexable .openParen .closeParen tokens base → Indexable tokens base

inductive Expression : Level → List Token → Term → Prop where
  | int {token : Token} : token.kind = .int → Expression .primary [token] (.int token.value)
  | float {token : Token} : token.kind = .float → Expression .primary [token] (.float token.value)
  | text {token : Token} : token.kind = .text → Expression .primary [token] (.text token.value)
  | name {token : Token} : token.kind = .name → Expression .primary [token] (.name token.value)
  | group {tokens : List Token} {term : Term} :
      Enclosed (Expression .relational) .openParen .closeParen tokens term → Expression .primary tokens term
  | array {tokens : List Token} {items : List Term} :
      Enclosed (Items (Expression .relational)) .openBracket .closeBracket tokens items →
        Expression .primary tokens (.array items)
  | builtin {word : Token} {function : Builtin} {tokens : List Token} {arguments : List Term} :
      (word.kind, function) ∈ builtinWords →
        Enclosed (Items (Expression .relational)) .openParen .closeParen tokens arguments →
        Expression .primary (word :: tokens) (.builtin function arguments)
  | transpose {tokens : List Token} {mark : Token} {term : Term} :
      Expression .trailed tokens term → mark.kind = .apostrophe →
        Expression .trailed (tokens ++ [mark]) (.transpose term)
  | indexed {tokens rest : List Token} {base : Base} {indices : List (Component Term)} :
      Indexable tokens base →
        Enclosed (Listed (Indices (Expression .relational))) .openBracket .closeBracket rest indices →
        Expression .trailed (tokens ++ rest) (.indexed base indices)
  | negate {mark : Token} {tokens : List Token} {term : Term} :
      mark.kind = .dash → Expression .signed tokens term → Expression .signed (mark :: tokens) (.negate term)
  | binary {level tighter : Level} {mark : Token} {join : Term → Term → Term} {tokens rest : List Token}
      {a b : Term} :
      level.tighter? = some tighter → (mark.kind, join) ∈ level.operators →
        Expression level tokens a → Expression tighter rest b →
        Expression level (tokens ++ mark :: rest) (join a b)
  | tighter {level tighter : Level} {tokens : List Token} {term : Term} :
      level.tighter? = some tighter → Expression tighter tokens term → Expression level tokens term

/-- A statement that begins so would be read as part of an expression right before it. -/
def prolongs (token : Token) : Prop :=
  token.kind = .dash ∨ token.kind = .openBracket

section

-- The tokens that the body of a counted loop may begin with. Nothing stands between the range of such a loop and
-- its body, so that what the loop consists of depends on them.
variable (starts : Token → Prop)

inductive Statement : List Token → Phrase → Prop where
  | block {tokens : List Token} {body : List Phrase} :
      Enclosed (Sequence Statement) .openCurly .closeCurly tokens body → Statement tokens (.block body)
  | assign {mark last : Token} {op : Assign} {left right : List Token} {target value : Term} :
      Expression .relational left target → (mark.kind, op) ∈ assignMarks →
        Expression .relational right value → last.kind = .semicolon →
        Statement (left ++ mark :: (right ++ [last])) (.assign target op value)
  | forRange {word counter mark colon : Token} {first second rest : List Token} {start stop : Term}
      {body : Phrase} :
      word.kind = .forWord → counter.kind = .name → mark.kind = .assign →
        Expression .relational first start → colon.kind = .colon → Expression .relational second stop →
        Statement rest body → (∀ token ∈ rest.head?, starts token) →
        Statement (word :: counter :: mark :: (first ++ colon :: (second ++ rest)))
          (.forRange counter.value start stop body)
  | whileLoop {word : Token} {test rest : List Token} {condition : Term} {body : Phrase} :
      word.kind = .whileWord → Enclosed (Expression .relational) .openParen .closeParen test condition →
        Statement rest body → Statement (word :: (test ++ rest)) (.whileLoop condition body)
  | branch {word : Token} {test rest : List Token} {condition : Term} {thenBody : Phrase} :
      word.kind = .ifWord → Enclosed (Expression .relational) .openParen .closeParen test condition →
        Statement rest thenBody → Statement (word :: (test ++ rest)) (.branch condition thenBody)
  /-- An `else` belongs to the nearest branch, so no branch inside the first body may be left open. -/
  | branchElse {word other : Token} {test rest last : List Token} {condition : Term}
      {thenBody elseBody : Phrase} :
      word.kind = .ifWord → Enclosed (Expression .relational) .openParen .closeParen test condition →
        Statement rest thenBody → thenBody.endsOpen = false →
        other.kind = .elseWord → Statement last elseBody →
        Statement (word :: (test ++ (rest ++ other :: last))) (.branchElse condition thenBody elseBody)
  | breakLoop {word last : Token} :
      word.kind = .breakWord → last.kind = .semicolon → Statement [word, last] .breakLoop
  | continueLoop {word last : Token} :
      word.kind = .continueWord → last.kind = .semicolon → Statement [word, last] .continueLoop
  | giveBack {word last : Token} {tokens : List Token} {values : List Term} :
      word.kind = .returnWord → Items (Expression .relational) tokens values → last.kind = .semicolon →
        Statement (word :: (tokens ++ [last])) (.giveBack values)
  | print {word last : Token} {tokens : List Token} {values : List Term} :
      word.kind = .printWord → Listed (Expression .relational) tokens values → last.kind = .semicolon →
        Statement (word :: (tokens ++ [last])) (.print values)

/-- A program is a sequence of statements and the end token, which may be left out. -/
inductive Sentence : List Token → List Phrase → Prop where
  | ended {tokens : List Token} {last : Token} {body : List Phrase} :
      Sequence (Statement starts) tokens body → last.kind = .eof → Sentence (tokens ++ [last]) body
  | unended {tokens : List Token} {body : List Phrase} :
      Sequence (Statement starts) tokens body → Sentence tokens body

end

end MatrixScript.Grammar
