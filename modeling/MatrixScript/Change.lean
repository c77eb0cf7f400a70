/-! Changes of a state in place.

A change may fail at any of its steps, and then leaves behind what it has written so far.
-/

set_option autoImplicit false

namespace MatrixScript

abbrev Change (ε σ : Type) := EStateM ε σ

def Change.result {ε σ : Type} (change : Change ε σ Unit) (state : σ) : Except ε σ :=
  match change state with
  | .ok _ later => .ok later
  | .error fault _ => .error fault

end MatrixScript
