import MatrixScript.Evaluation.Expression
import MatrixScript.Matrix.Product
import MatrixScript.Proofs.Evaluation.Outcome
import MatrixScript.Proofs.Value.Writing

/-! What operations on values fail with.

Numbers overflow or are divided by zero. Besides, an operation refuses operands of the wrong kinds and positions that
are not there. Names are never the reason, and shapes are one only where two matrices meet.
-/

set_option autoImplicit false

namespace MatrixScript

def Fault.Computed : Fault → Prop
  | .divisionByZero | .integerOverflow | .sizeOverflow _ => True
  | _ => False

def Fault.Defined (fault : Fault) : Prop := ∀ name, fault ≠ .undefined name

def Fault.Shapeless (fault : Fault) : Prop := ∀ cause, fault ≠ .shapeMismatch cause

/-- A fault that is neither about an undefined name nor about shapes. -/
structure Fault.Ordinary (fault : Fault) : Prop where
  defined : fault.Defined
  shapeless : fault.Shapeless

theorem Fault.Computed.ordinary {fault : Fault} (computed : fault.Computed) : fault.Ordinary := by
  constructor
  · rintro name rfl
    exact computed
  · rintro cause rfl
    exact computed

/-- If an operation fails, then with a fault of a set. -/
abbrev FailsIn {α : Type} (Allowed : Fault → Prop) (outcome : Except Fault α) : Prop :=
  Checked Allowed (fun _ => True) outcome

namespace FailsIn

variable {α β : Type} {Allowed : Fault → Prop}

theorem ok (value : α) : FailsIn Allowed (.ok value) := trivial

theorem bind {outcome : Except Fault α} {next : α → Except Fault β} (first : FailsIn Allowed outcome)
    (rest : ∀ value, FailsIn Allowed (next value)) : FailsIn Allowed (outcome >>= next) :=
  Checked.bind first fun value _ => rest value

theorem mapM {items : List α} {f : α → Except Fault β} (each : ∀ item, FailsIn Allowed (f item)) :
    FailsIn Allowed (items.mapM f) := by
  induction items with
  | nil => exact ok _
  | cons item rest ih =>
    rw [List.mapM_cons]
    exact (each item).bind fun _ => ih.bind fun _ => ok _

theorem good {outcome : Except Fault α} {Good : α → Prop} (fails : FailsIn Allowed outcome)
    (good : ∀ value, outcome = .ok value → Good value) : Checked Allowed Good outcome := by
  cases outcome with
  | ok value => exact good value rfl
  | error fault => exact fails

end FailsIn

namespace Value

theorem orOverflow_computed (result : Option Int64) : FailsIn Fault.Computed (orOverflow result) := by
  cases result with
  | some value => trivial
  | none => trivial

theorem intArith_computed (op : Arith) (a b : Int64) : FailsIn Fault.Computed (intArith op a b) := by
  cases op with
  | add | sub | mul => exact orOverflow_computed _
  | div =>
    simp only [intArith]
    split
    · trivial
    · exact orOverflow_computed _

theorem floatArith_computed (op : Arith) (a b : Float) : FailsIn Fault.Computed (floatArith op a b) := by
  unfold floatArith
  split
  · trivial
  · trivial

theorem elementArith_computed (op : Arith) (a b : Element) : FailsIn Fault.Computed (elementArith op a b) := by
  unfold elementArith
  split
  · exact (intArith_computed _ _ _).map
  · trivial

theorem negateElement_computed (element : Element) : FailsIn Fault.Computed (negateElement element) := by
  cases element with
  | int value => exact (orOverflow_computed _).map
  | float value => trivial

theorem negateCells_computed (matrix : Matrix) :
    FailsIn Fault.Computed (matrix.mapCells matrix.isIntegral negateElement) :=
  FailsIn.bind (FailsIn.mapM negateElement_computed) fun _ => .ok _

theorem repeated_computed (text : String) (count : Int64) : FailsIn Fault.Computed (repeated text count) := by
  simp only [repeated]
  split
  · trivial
  · trivial

theorem broadcast_computed (op : Arith) (matrix : Matrix) (number : Element) (flipped : Bool) :
    FailsIn Fault.Computed (broadcast op matrix number flipped) := by
  unfold broadcast
  refine FailsIn.bind (FailsIn.bind (FailsIn.mapM fun element => ?_) fun _ => .ok _) fun _ => .ok _
  split
  · exact elementArith_computed _ _ _
  · exact elementArith_computed _ _ _

theorem combine_computed {op : Arith} {left right : Matrix} (same : left.rows = right.rows ∧ left.cols = right.cols) :
    FailsIn Fault.Computed (Matrix.combine op.symbol (elementArith op) left right) := by
  unfold Matrix.combine
  rw [if_pos same]
  exact FailsIn.bind (FailsIn.mapM fun pair => elementArith_computed _ _ _) fun _ => .ok _

theorem orFault_bind {α β : Type} (outcome : Except MatrixFault α) (next : α → Except MatrixFault β) :
    orFault (outcome >>= next) = (orFault outcome >>= fun value => orFault (next value)) := by
  cases outcome with
  | ok value => rfl
  | error fault => rfl

theorem checkSize_computed (rows cols : Nat) : FailsIn Fault.Computed (orFault (Matrix.checkSize rows cols)) := by
  unfold Matrix.checkSize
  split
  · trivial
  · trivial

theorem product_computed {left right : Matrix} (same : left.cols = right.rows) :
    FailsIn Fault.Computed (orFault (Matrix.product left right)) := by
  unfold Matrix.product
  rw [if_pos same, orFault_bind]
  refine (checkSize_computed _ _).bind fun _ => ?_
  cases left.cells with
  | ints a =>
    cases right.cells with
    | ints b =>
      dsimp only
      split
      · trivial
      · trivial
    | floats b => trivial
  | floats a => trivial

theorem build_computed (function : Builtin) (rows cols : Nat) :
    FailsIn Fault.Computed (orFault (Evaluation.build function rows cols)) := by
  cases function with
  | eye | zeros | ones =>
    unfold Evaluation.build
    dsimp only [Matrix.eye, Matrix.zeros, Matrix.ones]
    rw [orFault_bind]
    exact (checkSize_computed _ _).bind fun _ => .ok _

section

variable {Allowed : Fault → Prop} (ordinary : ∀ fault : Fault, fault.Ordinary → Allowed fault)
include ordinary

theorem failsIn_of_computed {α : Type} {outcome : Except Fault α} (computed : FailsIn Fault.Computed outcome) :
    FailsIn Allowed outcome := by
  cases outcome with
  | ok value => trivial
  | error fault => exact ordinary fault (Fault.Computed.ordinary computed)

theorem unsupported_failsIn {α : Type} (operator : String) (left right : Value) :
    FailsIn Allowed (unsupported operator left right : Except Fault α) :=
  ordinary _ ⟨nofun, nofun⟩

theorem arithmetic_failsIn {op : Arith} {left right : Value}
    (combines : ∀ a b, left = .matrix a → right = .matrix b →
      FailsIn Allowed (Matrix.combine op.symbol (elementArith op) a b)) :
    FailsIn Allowed (arithmetic op left right) := by
  have computed {outcome : Except Fault Value} (checked : FailsIn Fault.Computed outcome) : FailsIn Allowed outcome :=
    failsIn_of_computed ordinary checked
  unfold arithmetic
  split
  -- two numbers
  · exact computed (intArith_computed _ _ _).map
  · exact computed (floatArith_computed _ _ _).map
  · exact computed (floatArith_computed _ _ _).map
  · exact computed (floatArith_computed _ _ _).map
  -- texts, joined or repeated
  · split
    · exact .ok _
    · exact unsupported_failsIn ordinary _ _ _
  · split
    · exact computed (repeated_computed _ _).map
    · exact unsupported_failsIn ordinary _ _ _
  · split
    · exact computed (repeated_computed _ _).map
    · exact unsupported_failsIn ordinary _ _ _
  -- matrices, and a matrix beside a number
  · exact (combines _ _ rfl rfl).map
  · split
    · exact computed (broadcast_computed _ _ _ _)
    · exact unsupported_failsIn ordinary _ _ _
  · split
    · exact computed (broadcast_computed _ _ _ _)
    · exact unsupported_failsIn ordinary _ _ _
  · exact unsupported_failsIn ordinary _ _ _

theorem linear_failsIn {op : Arith} {left right : Value}
    (multiplies : ∀ a b, op = .mul → left = .matrix a → right = .matrix b →
      FailsIn Allowed (orFault (Matrix.product a b)))
    (combines : ∀ a b, op ≠ .mul → left = .matrix a → right = .matrix b →
      FailsIn Allowed (Matrix.combine op.symbol (elementArith op) a b)) : FailsIn Allowed (linear op left right) := by
  unfold linear
  split
  · next a b =>
    have product := multiplies a b rfl rfl rfl
    cases done : Matrix.product a b with
    | ok result => exact .ok _
    | error fault =>
      rw [done] at product
      exact product
  · next other =>
    refine arithmetic_failsIn ordinary fun a b first second => combines a b (fun mul => ?_) first second
    exact other a b mul first second

theorem compare_failsIn (op : Compare) (left right : Value) : FailsIn Allowed (compare op left right) := by
  unfold compare
  split
  -- numbers and texts have an order, conditions can only be equal or not
  iterate 5 exact .ok _
  · split
    · exact .ok _
    · exact .ok _
    · exact unsupported_failsIn ordinary _ _ _
  · exact unsupported_failsIn ordinary _ _ _

theorem negate_failsIn (value : Value) : FailsIn Allowed value.negate := by
  cases value with
  | int value => exact failsIn_of_computed ordinary (orOverflow_computed _).map
  | float value => exact .ok _
  | matrix value => exact failsIn_of_computed ordinary (negateCells_computed value).map
  | text _ | bool _ => exact ordinary _ ⟨nofun, nofun⟩

theorem transpose_failsIn (value : Value) : FailsIn Allowed value.transpose := by
  cases value with
  | int _ | float _ | matrix _ => exact .ok _
  | text _ | bool _ => exact ordinary _ ⟨nofun, nofun⟩

theorem resolve_failsIn (selector : Selector) (length : Nat) : FailsIn Allowed (orFault (selector.resolve length)) := by
  have outside (index : Int64) : FailsIn Allowed (orFault (.error (.outOfBounds index length) : Except _ (Nat × Nat))) :=
    ordinary _ ⟨nofun, nofun⟩
  cases selector with
  | point index =>
    simp only [Selector.resolve]
    split
    · exact .ok _
    · exact outside _
  | span start stop =>
    simp only [Selector.resolve]
    split
    · exact ordinary _ ⟨nofun, nofun⟩
    · split
      · exact outside _
      · split
        · exact outside _
        · exact .ok _

/-- What is found wrong with a block is what is found wrong along one of the axes. -/
theorem block_failsIn (grid : Matrix) (rows cols : Selector) : FailsIn Allowed (orFault (grid.block rows cols)) := by
  have down := resolve_failsIn ordinary rows grid.rows
  have across := resolve_failsIn ordinary cols grid.cols
  unfold Matrix.block
  -- the rows are looked at first, and a problem with them hides any with the columns
  cases done : rows.resolve grid.rows with
  | error fault =>
    rw [done] at down
    exact down
  | ok _ =>
    cases done : cols.resolve grid.cols with
    | error fault =>
      rw [done] at across
      exact across
    | ok _ => exact .ok _

theorem select_failsIn (grid : Matrix) (rows cols : Selector) : FailsIn Allowed (orFault (grid.select rows cols)) := by
  have chosen := block_failsIn ordinary grid rows cols
  unfold Matrix.select
  cases done : grid.block rows cols with
  | error fault =>
    rw [done] at chosen
    exact chosen
  | ok block =>
    show FailsIn Allowed (orFault (ite _ _ _))
    split
    · exact .ok _
    · exact .ok _

theorem assign_failsIn {grid : Matrix} {rows cols : Selector} {part : Part}
    (fits : ∀ block, grid.block rows cols = .ok block → FailsIn Allowed (orFault (Matrix.fits part block))) :
    FailsIn Allowed (orFault (grid.assign rows cols part)) := by
  have chosen := block_failsIn ordinary grid rows cols
  rw [Matrix.assign_eq]
  cases done : grid.block rows cols with
  | error fault =>
    rw [done] at chosen
    exact chosen
  | ok block =>
    have fit := fits block done
    show FailsIn Allowed (orFault (Matrix.fits part block >>= fun _ => pure (grid.fill block part)))
    cases done : Matrix.fits part block with
    | error fault =>
      rw [done] at fit
      exact fit
    | ok _ => exact .ok _

theorem textSelection_failsIn (selectors : List Selector) (length : Nat) :
    FailsIn Allowed (textSelection selectors length) := by
  unfold textSelection
  split
  · exact resolve_failsIn ordinary _ _
  · split
    · exact resolve_failsIn ordinary _ _
    · exact ordinary _ ⟨nofun, nofun⟩
  · exact ordinary _ ⟨nofun, nofun⟩

theorem matrixSelectors_failsIn (grid : Matrix) (selectors : List Selector) :
    FailsIn Allowed (matrixSelectors grid selectors) := by
  unfold matrixSelectors
  split
  · exact .ok _
  · exact .ok _
  · exact ordinary _ ⟨nofun, nofun⟩

theorem index_failsIn (base : Value) (selectors : List Selector) : FailsIn Allowed (base.index selectors) := by
  cases base with
  | text content => exact (textSelection_failsIn ordinary _ _).bind fun _ => .ok _
  | matrix grid =>
    exact (matrixSelectors_failsIn ordinary _ _).bind fun _ => (select_failsIn ordinary _ _ _).bind fun _ => .ok _
  | int _ | float _ | bool _ => exact ordinary _ ⟨nofun, nofun⟩

theorem assignInto_failsIn {current replacement : Value} {selectors : List Selector}
    (fits : ∀ grid chosen part, current = .matrix grid → matrixSelectors grid selectors = .ok chosen →
      replacement.part? = some part → FailsIn Allowed (orFault (grid.assign chosen.1 chosen.2 part))) :
    FailsIn Allowed (current.assignInto selectors replacement) := by
  cases current with
  | text content =>
    cases replacement with
    | text inserted =>
      rw [assignInto_text_eq]
      exact (textSelection_failsIn ordinary _ _).bind fun _ => .ok _
    | int _ | float _ | bool _ | matrix _ => exact ordinary _ ⟨nofun, nofun⟩
  | matrix grid =>
    rw [assignInto_matrix_eq]
    have chosen := matrixSelectors_failsIn ordinary grid selectors
    cases done : matrixSelectors grid selectors with
    | error fault =>
      rw [done] at chosen
      exact chosen
    | ok pair =>
      cases written : replacement.part? with
      | some part =>
        show FailsIn Allowed ((orFault (grid.assign pair.1 pair.2 part)).map Value.matrix)
        exact (fits grid pair part rfl done written).map
      | none => exact ordinary _ ⟨nofun, nofun⟩
  | int _ | float _ | bool _ => exact ordinary _ ⟨nofun, nofun⟩

end

end Value

end MatrixScript
