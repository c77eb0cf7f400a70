/-! Declared names, for the checker.

All declared names stand in one table, and each scope remembers which of them it introduced. Leaving a scope
forgets those. A name that was known before keeps what the inner scope declared for it. The program's own scope
is never left.
-/

set_option autoImplicit false

namespace MatrixScript

structure Introductions where
  label : String
  names : List String
  deriving DecidableEq, Repr

structure Declarations (α : Type) where
  table : List (String × α)
  innermost : Introductions
  outer : List Introductions
  deriving DecidableEq, Repr

namespace Declarations

variable {α : Type}

def start : Declarations α := ⟨[], ⟨"program", []⟩, []⟩

def depth (declared : Declarations α) : Nat := declared.outer.length + 1

def lookup? (declared : Declarations α) (name : String) : Option α :=
  declared.table.lookup name

/-- Declares a name. It is introduced by the innermost scope when it was not known before. -/
def declare (declared : Declarations α) (name : String) (payload : α) : Declarations α :=
  let table := (name, payload) :: declared.table.filter (·.1 ≠ name)
  if (declared.lookup? name).isSome then
    { declared with table }
  else
    { declared with
      table
      innermost := { declared.innermost with names := name :: declared.innermost.names } }

def push (declared : Declarations α) (label : String) : Declarations α :=
  { declared with innermost := ⟨label, []⟩, outer := declared.innermost :: declared.outer }

def pop (declared : Declarations α) : Option String × Declarations α :=
  match declared.outer with
  | [] => (none, declared)
  | next :: rest =>
    let introduced := declared.innermost.names
    (some declared.innermost.label,
      { table := declared.table.filter fun entry => !introduced.contains entry.1
        innermost := next
        outer := rest })

end Declarations

end MatrixScript
