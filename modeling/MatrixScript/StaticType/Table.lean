import MatrixScript.StaticType.Basic
import MatrixScript.Tree

/-! The static types of the expressions of a tree. The first type of an expression is kept. -/

set_option autoImplicit false

namespace MatrixScript

structure StaticTypes where
  entries : Array (Option StaticType)
  deriving DecidableEq, Repr

namespace StaticTypes

def ofSize (count : Nat) : StaticTypes := ⟨Array.replicate count none⟩

def get? (table : StaticTypes) (id : ExprId) : Option StaticType :=
  (table.entries[id.index]?).join

/-- A table with an entry for the expression, however large its id is. -/
def reach (table : StaticTypes) (id : ExprId) : StaticTypes :=
  ⟨table.entries ++ Array.replicate (id.index + 1 - table.entries.size) none⟩

/-- Records a type, unless there is one, and gives the one that the table then holds. -/
def record (table : StaticTypes) (id : ExprId) (type : StaticType) : StaticType × StaticTypes :=
  match table.get? id with
  | some held => (held, table)
  | none => (type, ⟨(table.reach id).entries.setIfInBounds id.index (some type)⟩)

def count (table : StaticTypes) : Nat :=
  table.entries.countP Option.isSome

end StaticTypes

end MatrixScript
