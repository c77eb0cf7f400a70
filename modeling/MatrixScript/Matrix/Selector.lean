import MatrixScript.Matrix.Fault

/-! Selection along one axis. -/

set_option autoImplicit false

namespace MatrixScript

inductive Selector where
  | point (index : Int64)
  /-- The positions from `start` up to, but not including, `stop`. -/
  | span (start stop : Int64)
  deriving DecidableEq, Repr

namespace Selector

def isPoint : Selector → Bool
  | point _ => true
  | span _ _ => false

/-- The positions `[from, to)` selected along an axis of `length`. A reversed span is refused before its
bounds are looked at, and the start of a span before its end. -/
def resolve (length : Nat) : Selector → Except MatrixFault (Nat × Nat)
  | point index =>
    if 0 ≤ index.toInt ∧ index.toInt < length then
      .ok (index.toInt.toNat, index.toInt.toNat + 1)
    else
      .error (.outOfBounds index length)
  | span start stop =>
    if stop.toInt < start.toInt then .error (.reversedRange start stop)
    else if start.toInt < 0 then .error (.outOfBounds start length)
    else if (length : Int) < stop.toInt then .error (.outOfBounds stop length)
    else .ok (start.toInt.toNat, stop.toInt.toNat)

end Selector

end MatrixScript
