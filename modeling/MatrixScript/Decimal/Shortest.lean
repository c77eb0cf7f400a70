/-! The shortest decimal that reads back as a given float.

A finite float is `mantissa * 2 ^ exponent`. The reals that round to it form an interval around it,
whose ends belong to it exactly when the mantissa is even. On the grid of multiples of `10 ^ k` only
the two neighbours of the value matter, and the coarsest grid with a neighbour inside the interval
gives the fewest digits. All comparisons are between natural numbers, after both sides are scaled by
the same powers of two and ten.
-/

set_option autoImplicit false

namespace MatrixScript.Decimal

inductive Denotation where
  | notANumber
  | infinite (negative : Bool)
  | finite (negative : Bool) (mantissa : Nat) (exponent : Int)
  deriving DecidableEq, Repr

def leastExponent : Int := -1074

/-- The leading bit of a normal mantissa, `2 ^ 52`, which is not stored. -/
def implicitBit : Nat := 1 <<< 52

def denote (x : Float) : Denotation :=
  let bits := x.toBits.toNat
  let negative := bits >>> 63 == 1
  let biased := (bits >>> 52) % 2048
  let fraction := bits % implicitBit
  if biased = 2047 then
    if fraction = 0 then .infinite negative else .notANumber
  else if biased = 0 then
    .finite negative fraction leastExponent
  else
    .finite negative (fraction + implicitBit) (leastExponent + (biased - 1 : Nat))

structure Scaled where
  digits : Nat
  exponent : Int
  deriving DecidableEq, Repr

section

variable (mantissa : Nat) (exponent : Int)

-- Values are counted in quarters of the last binary place, because the lower half-gap of a power
-- of two is a quarter of that place.
def valueQuarters : Nat := 4 * mantissa

def upperQuarters : Nat := 4 * mantissa + 2

def lowerQuarters : Nat :=
  if mantissa = implicitBit ∧ leastExponent < exponent then 4 * mantissa - 1 else 4 * mantissa - 2

/-- Factor of a grid index when it is compared with a number of quarters. -/
def gridFactor (k : Int) : Nat :=
  Nat.pow 10 k.toNat <<< (2 - exponent).toNat

/-- Factor of a number of quarters when it is compared with a grid index. -/
def quarterFactor (k : Int) : Nat :=
  Nat.pow 10 (-k).toNat <<< (exponent - 2).toNat

/-- Whether `index * 10 ^ k` rounds to the float. -/
def roundsTo (k : Int) (index : Nat) : Bool :=
  let point := index * gridFactor exponent k
  let low := lowerQuarters mantissa exponent * quarterFactor exponent k
  let high := upperQuarters mantissa * quarterFactor exponent k
  if mantissa % 2 = 0 then decide (low ≤ point ∧ point ≤ high) else decide (low < point ∧ point < high)

/-- The neighbour of the value on the grid of `10 ^ k` that rounds to it. Of two such neighbours the
nearer is taken, and the upper one when they are equally near. -/
def neighbour? (k : Int) : Option Nat :=
  let grid := gridFactor exponent k
  let value := valueQuarters mantissa * quarterFactor exponent k
  let below := value / grid
  let byDistance := if 2 * (value % grid) < grid then [below, below + 1] else [below + 1, below]
  byDistance.find? (roundsTo mantissa exponent k)

def searchFrom : Nat → Int → Scaled
  | 0, k => ⟨valueQuarters mantissa * quarterFactor exponent k / gridFactor exponent k, k⟩
  | steps + 1, k =>
    match neighbour? mantissa exponent k with
    | some index => ⟨index, k⟩
    | none => searchFrom steps (k - 1)

/-- A power of ten above twice the value: one bit is at most 30103/100000 decimal digits. -/
def startGrid : Int :=
  ((Nat.log2 mantissa : Int) + 2 + exponent) * 30103 / 100000 + 2

/-- The shortest decimal of a positive float. Seventeen digits always suffice, and the search starts
at most a few grids above the first digit. -/
def shortest : Scaled :=
  searchFrom mantissa exponent 24 (startGrid mantissa exponent)

end

end MatrixScript.Decimal
