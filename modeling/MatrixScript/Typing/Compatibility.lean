import MatrixScript.StaticType.Basic
import MatrixScript.Operator

/-! Which operand types an operator takes.

An operator is asked with a list of keys, one for each operand and, for assignments, one for the kind of
target in front. The answer is found by walking the keys from the left: where no case applies, or the keys end
too early, the default of that place is the answer, and keys beyond an answer do not matter. Whatever meets an
unknown type is accepted.
-/

set_option autoImplicit false

namespace MatrixScript

inductive Operator where
  | linear (op : Arith)
  | elementwise (op : Arith)
  | compare (op : Compare)
  | assign (op : Assign)
  deriving DecidableEq, Repr

def Operator.symbol : Operator → String
  | .linear op => op.symbol
  | .elementwise op => "." ++ op.symbol
  | .compare op => op.symbol
  | .assign op => op.symbol

def Operator.all : List Operator :=
  Arith.all.map .linear ++ Arith.all.map .elementwise ++ Compare.all.map .compare ++ Assign.all.map .assign

inductive Key where
  | type (tag : Tag)
  /-- An assignment target that is a name. -/
  | name
  /-- An assignment target that is indexed. -/
  | indexed
  deriving DecidableEq, Repr

inductive Verdict where
  | type (tag : Tag)
  /-- The assignment is legal. -/
  | bind
  | unsupported
  | leftInvalid
  | rightInvalid
  deriving DecidableEq, Repr

namespace Compatibility

/-- A row that only an unknown operand satisfies. -/
def unknownRow (verdict : Verdict) : List Key → Verdict
  | .type .unknown :: _ => verdict
  | _ => .unsupported

def intRow (op : Arith) : List Key → Verdict
  | .type .int :: _ => .type .int
  | .type .float :: _ => .type .float
  | .type .unknown :: _ => .type .unknown
  | .type .text :: _ => if op = .mul then .type .text else .unsupported
  | _ => .unsupported

def floatRow : List Key → Verdict
  | .type .int :: _ => .type .float
  | .type .float :: _ => .type .float
  | .type .unknown :: _ => .type .unknown
  | _ => .unsupported

def textRow (op : Arith) : List Key → Verdict
  | .type .unknown :: _ => .type .unknown
  | .type .text :: _ => if op = .add then .type .text else .unsupported
  | .type .int :: _ => if op = .mul then .type .text else .unsupported
  | _ => .unsupported

/-- Numbers and texts, without arrays. -/
def numeric (op : Arith) : List Key → Verdict
  | .type .int :: rest => intRow op rest
  | .type .float :: rest => floatRow rest
  | .type .text :: rest => textRow op rest
  | .type .unknown :: _ => .type .unknown
  | _ => .unsupported

def arrayRow : List Key → Verdict
  | .type .array :: _ => .type .array
  | .type .tainted :: _ => .type .array
  | .type .unknown :: _ => .type .unknown
  | _ => .unsupported

def linear (op : Arith) : List Key → Verdict
  | .type .array :: rest | .type .tainted :: rest =>
    if op = .mul then arrayRow rest else unknownRow (.type .unknown) rest
  | .type .bool :: rest | .type .range :: rest => unknownRow (.type .unknown) rest
  | keys => numeric op keys

def elementwise : List Key → Verdict
  | .type .array :: rest | .type .tainted :: rest => arrayRow rest
  | .type .unknown :: _ => .type .unknown
  | .type _ :: rest => unknownRow (.type .unknown) rest
  | _ => .unsupported

def numberRow (verdict : Verdict) : List Key → Verdict
  | .type .int :: _ | .type .float :: _ | .type .unknown :: _ => verdict
  | _ => .unsupported

def compare : List Key → Verdict
  | .type .int :: rest | .type .float :: rest => numberRow (.type .bool) rest
  | .type .text :: .type .text :: _ => .type .bool
  | .type .unknown :: _ => .type .bool
  | .type _ :: rest => unknownRow (.type .bool) rest
  | _ => .unsupported

def indexedTarget : List Key → Verdict
  | .type .int :: rest | .type .float :: rest => numberRow .bind rest
  | .type .unknown :: _ => .bind
  | .type .array :: rest | .type .tainted :: rest =>
    match rest with
    | .type .array :: _ | .type .tainted :: _ | .type .unknown :: _ => .bind
    | _ => .unsupported
  | .type .text :: rest =>
    match rest with
    | .type .text :: _ | .type .unknown :: _ => .bind
    | _ => .unsupported
  | _ => .leftInvalid

/-- Combining a value with an indexed target: only single numbers can be combined. -/
def indexedCompound : List Key → Verdict
  | .type .int :: rest | .type .float :: rest => numberRow .bind rest
  | .type .unknown :: _ => .bind
  | .type _ :: _ => .unsupported
  | _ => .leftInvalid

/-- A name takes every value but a condition or a range. -/
def nameTarget : List Key → Verdict
  | .type .bool :: _ | .type .range :: _ => .rightInvalid
  | .type _ :: _ => .bind
  | _ => .rightInvalid

def assign : Assign → List Key → Verdict
  | .plain, .name :: rest => nameTarget rest
  | .plain, .indexed :: rest => indexedTarget rest
  | .compound op, .name :: rest => numeric op rest
  | .compound _, .indexed :: rest => indexedCompound rest
  | _, _ => .leftInvalid

end Compatibility

def Operator.verdict : Operator → List Key → Verdict
  | .linear op => Compatibility.linear op
  | .elementwise _ => Compatibility.elementwise
  | .compare _ => Compatibility.compare
  | .assign op => Compatibility.assign op

end MatrixScript
