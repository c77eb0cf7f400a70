/-! Live bindings, one frame for each scope that has been entered.

Binding a name that is visible in any frame changes it where it lives, so that a loop body can change an outer
variable and the change outlives the loop. Only a new name goes into the innermost frame, and it is
forgotten with that frame. The outermost frame is never left.
-/

set_option autoImplicit false

namespace MatrixScript

structure Frame (α : Type) where
  label : String
  bindings : List (String × α)
  deriving DecidableEq, Repr

@[ext] structure Memory (α : Type) where
  innermost : Frame α
  outer : List (Frame α)
  deriving DecidableEq, Repr

variable {α : Type}

def rebind? (name : String) (value : α) : List (String × α) → Option (List (String × α))
  | [] => none
  | (known, old) :: rest =>
    if known = name then some ((known, value) :: rest)
    else (rebind? name value rest).map ((known, old) :: ·)

namespace Frame

def read? (frame : Frame α) (name : String) : Option α :=
  frame.bindings.lookup name

def replace? (frame : Frame α) (name : String) (value : α) : Option (Frame α) :=
  (rebind? name value frame.bindings).map fun bindings => { frame with bindings }

def insert (frame : Frame α) (name : String) (value : α) : Frame α :=
  { frame with bindings := (name, value) :: frame.bindings }

def replaceFirst? (name : String) (value : α) : List (Frame α) → Option (List (Frame α))
  | [] => none
  | frame :: rest =>
    match frame.replace? name value with
    | some changed => some (changed :: rest)
    | none => (replaceFirst? name value rest).map (frame :: ·)

end Frame

namespace Memory

def start : Memory α := ⟨⟨"global", []⟩, []⟩

def frames (memory : Memory α) : List (Frame α) := memory.innermost :: memory.outer

def depth (memory : Memory α) : Nat := memory.outer.length + 1

def enter (memory : Memory α) (label : String) : Memory α :=
  ⟨⟨label, []⟩, memory.innermost :: memory.outer⟩

def exit (memory : Memory α) : Option String × Memory α :=
  match memory.outer with
  | [] => (none, memory)
  | next :: rest => (some memory.innermost.label, ⟨next, rest⟩)

def read? (memory : Memory α) (name : String) : Option α :=
  memory.frames.findSome? (·.read? name)

/-- Changes a visible name where it lives. -/
def replace? (memory : Memory α) (name : String) (value : α) : Option (Memory α) :=
  match memory.innermost.replace? name value with
  | some changed => some { memory with innermost := changed }
  | none => (Frame.replaceFirst? name value memory.outer).map fun outer => { memory with outer }

def bind (memory : Memory α) (name : String) (value : α) : Memory α :=
  match memory.replace? name value with
  | some changed => changed
  | none => { memory with innermost := memory.innermost.insert name value }

end Memory

end MatrixScript
