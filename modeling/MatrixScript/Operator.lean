/-! The operators of the language and their symbols. -/

set_option autoImplicit false

namespace MatrixScript

inductive Arith where
  | add | sub | mul | div
  deriving DecidableEq, Repr

def Arith.symbol : Arith → String
  | .add => "+"
  | .sub => "-"
  | .mul => "*"
  | .div => "/"

def Arith.all : List Arith := [.add, .sub, .mul, .div]

inductive Compare where
  | less | greater | lessEquals | greaterEquals | equals | notEquals
  deriving DecidableEq, Repr

def Compare.symbol : Compare → String
  | .less => "<"
  | .greater => ">"
  | .lessEquals => "<="
  | .greaterEquals => ">="
  | .equals => "=="
  | .notEquals => "!="

def Compare.all : List Compare :=
  [.less, .greater, .lessEquals, .greaterEquals, .equals, .notEquals]

inductive Assign where
  | plain
  | compound (op : Arith)
  deriving DecidableEq, Repr

def Assign.symbol : Assign → String
  | .plain => "="
  | .compound op => op.symbol ++ "="

def Assign.all : List Assign := .plain :: Arith.all.map .compound

inductive Builtin where
  | eye | zeros | ones
  deriving DecidableEq, Repr

def Builtin.name : Builtin → String
  | .eye => "eye"
  | .zeros => "zeros"
  | .ones => "ones"

def Builtin.all : List Builtin := [.eye, .zeros, .ones]

end MatrixScript
