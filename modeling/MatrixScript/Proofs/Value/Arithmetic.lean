import MatrixScript.Proofs.Matrix.Cellwise
import MatrixScript.Proofs.Matrix.Exactness
import Mathlib.Data.Nat.Find

/-! Arithmetic of integers is exact, or refused.

What an operator gives for two integers is their exact result when there is one and it has a word. Numbers and matrices
of integers, in every combination, are computed in this way cell by cell, and the first cell without a result decides
what is wrong with the whole.
-/

set_option autoImplicit false

namespace MatrixScript

/-- The exact result of an operator. A quotient is truncated toward zero, and there is none by zero. -/
def Arith.expected? (op : Arith) (a b : Int) : Option Int :=
  match op with
  | .add => some (a + b)
  | .sub => some (a - b)
  | .mul => some (a * b)
  | .div => if b = 0 then none else some (a.tdiv b)

namespace Integer

def Representable (expected? : Option Int) : Prop := ∃ value, expected? = some value ∧ Fits value

def refusal (expected? : Option Int) : Fault := if expected?.isNone then .divisionByZero else .integerOverflow

def word (expected? : Option Int) : Except Fault Int64 :=
  match expected? with
  | some value => Value.orOverflow (fit? value)
  | none => .error .divisionByZero

theorem word_eq_ok {expected? : Option Int} (fits : Representable expected?) :
    ∃ value, word expected? = .ok value ∧ expected? = some value.toInt := by
  obtain ⟨n, rfl, fits⟩ := fits
  obtain ⟨value, agrees⟩ := exists_word fits
  refine ⟨value, ?_, congrArg some agrees.symm⟩
  rw [word, fit?_eq_some_iff.mpr ⟨fits, agrees⟩]
  rfl

theorem word_eq_error {expected? : Option Int} (large : ¬ Representable expected?) :
    word expected? = .error (refusal expected?) := by
  cases expected? with
  | none => rfl
  | some n =>
    have unfit : fit? n = none := if_neg fun fits => large ⟨n, rfl, fits⟩
    rw [word, unfit]
    rfl

end Integer

open Integer (Fits Representable refusal word)

namespace Value

theorem intArith_eq_word (op : Arith) (a b : Int64) : intArith op a b = word (op.expected? a.toInt b.toInt) := by
  cases op with
  | add | sub | mul => rfl
  | div =>
    by_cases zero : b = 0
    · subst zero
      rfl
    · have nonzero : b.toInt ≠ 0 := fun same => zero (Int64.toInt_inj.mp same)
      simp only [intArith, Arith.expected?, if_neg zero, if_neg nonzero]
      rfl

theorem negate_eq_word (a : Int64) : orOverflow (Integer.neg? a) = word (some (-a.toInt)) := rfl

def extent? : Value → Option Extent
  | .matrix grid => some grid.extent
  | _ => none

def Integral : Value → Prop
  | .int _ => True
  | .matrix grid => grid.WellFormed ∧ grid.isIntegral
  | _ => False

/-- The integer at a row and a column. A number is the same everywhere. -/
def integerAt (value : Value) (row col : Nat) : Int :=
  match value with
  | .int number => number.toInt
  | .matrix grid => grid.entry row col
  | _ => 0

end Value

/-- The cells of an extent; a number counts as one cell. -/
def Extent.Has (extent? : Option Extent) (row col : Nat) : Prop :=
  match extent? with
  | some extent => row < extent.rows ∧ col < extent.cols
  | none => row = 0 ∧ col = 0

section

variable (extent? : Option Extent) (expected? : Nat → Nat → Option Int)

/-- Integers in the given extent, each of which is the exact result of its cell. -/
structure Value.Holds (value : Value) : Prop where
  integral : value.Integral
  extent : value.extent? = extent?
  exact : ∀ row col, Extent.Has extent? row col → expected? row col = some (value.integerAt row col)

/-- The first cell, row by row, that has no representable result. -/
structure FirstRefused (row col : Nat) : Prop where
  inside : Extent.Has extent? row col
  refused : ¬ Representable (expected? row col)
  first : ∀ row' col', Extent.Has extent? row' col' → row' < row ∨ row' = row ∧ col' < col →
    Representable (expected? row' col')

/-- A computation that gives exact results as soon as all of them are representable, and otherwise fails with what is
wrong in the first cell where one is not. -/
structure Exact (outcome : Except Fault Value) : Prop where
  succeeds_iff : (∃ result, outcome = .ok result) ↔
    ∀ row col, Extent.Has extent? row col → Representable (expected? row col)
  result : ∀ result, outcome = .ok result → result.Holds extent? expected?
  refused : ∀ fault, outcome = .error fault →
    ∃ row col, FirstRefused extent? expected? row col ∧ fault = refusal (expected? row col)

end

namespace Exact

variable {expected? : Nat → Nat → Option Int}

theorem of_cases {outcome : Except Fault Value} {extent? : Option Extent}
    (done : (∀ row col, Extent.Has extent? row col → Representable (expected? row col)) →
      ∃ result, outcome = .ok result ∧ result.Holds extent? expected?)
    (refused : (¬ ∀ row col, Extent.Has extent? row col → Representable (expected? row col)) →
      ∃ row col, FirstRefused extent? expected? row col ∧ outcome = .error (refusal (expected? row col))) :
    Exact extent? expected? outcome := by
  by_cases all : ∀ row col, Extent.Has extent? row col → Representable (expected? row col)
  · obtain ⟨result, rfl, holds⟩ := done all
    refine ⟨⟨fun _ => all, fun _ => ⟨result, rfl⟩⟩, ?_, nofun⟩
    rintro _ ⟨⟩
    exact holds
  · obtain ⟨row, col, first, rfl⟩ := refused all
    refine ⟨⟨nofun, fun all' => absurd all' all⟩, nofun, ?_⟩
    rintro _ ⟨⟩
    exact ⟨row, col, first, rfl⟩

theorem number {outcome : Except Fault Int64} (each : outcome = word (expected? 0 0)) :
    Exact none expected? (outcome.map .int) := by
  subst each
  apply of_cases
  · intro all
    obtain ⟨value, done, agrees⟩ := Integer.word_eq_ok (all 0 0 ⟨rfl, rfl⟩)
    rw [done]
    refine ⟨_, rfl, trivial, rfl, ?_⟩
    rintro row col ⟨rfl, rfl⟩
    exact agrees
  · intro large
    have here : ¬ Representable (expected? 0 0) := by
      intro fits
      apply large
      rintro row col ⟨rfl, rfl⟩
      exact fits
    rw [Integer.word_eq_error here]
    refine ⟨0, 0, ⟨⟨rfl, rfl⟩, here, ?_⟩, rfl⟩
    rintro row col ⟨rfl, rfl⟩ before
    omega

section

variable {extent : Extent} {cell : Nat → Except Fault Element}
  (each : ∀ i < extent.rows * extent.cols, cell i = (word (expected? (i / extent.cols) (i % extent.cols))).map .int)

include each

theorem cells_done
    (all : ∀ row col, Extent.Has (some extent) row col → Representable (expected? row col)) :
    ∃ result, (Matrix.tabulate extent true cell).map Value.matrix = .ok result ∧
      result.Holds (some extent) expected? := by
  -- one word for each cell, by which the whole matrix is known
  choose! value done agrees using fun row col inside => Integer.word_eq_ok (all row col inside)
  have each' : ∀ i < extent.rows * extent.cols, cell i = .ok (.int (value (i / extent.cols) (i % extent.cols))) := by
    intro i small
    rw [each i small, done _ _ (div_mod_lt small)]
    rfl
  rw [Matrix.tabulate_eq_ok each']
  refine ⟨_, rfl, ⟨?_, rfl⟩, rfl, ?_⟩
  · simp [Matrix.WellFormed]
  · rintro row col ⟨down, across⟩
    rw [agrees row col ⟨down, across⟩]
    have position := cell_div_mod row across
    simp [Value.integerAt, Matrix.entry, Matrix.get?, down, across, Cells.get_collect, cell_lt down across, position,
      Element.storedAs, Element.truncated]

theorem cells_refused
    (large : ¬ ∀ row col, Extent.Has (some extent) row col → Representable (expected? row col)) :
    ∃ row col, FirstRefused (some extent) expected? row col ∧
      (Matrix.tabulate extent true cell).map Value.matrix = .error (refusal (expected? row col)) := by
  classical
  push Not at large
  obtain ⟨row, col, ⟨down, across⟩, large⟩ := large
  -- the cells are computed by position, so the first refused one is the one of the least position
  have some_position : ∃ i, i < extent.rows * extent.cols ∧
      ¬ Representable (expected? (i / extent.cols) (i % extent.cols)) := by
    obtain ⟨here, there⟩ := cell_div_mod row across
    exact ⟨row * extent.cols + col, cell_lt down across, by rwa [here, there]⟩
  obtain ⟨small, large⟩ := Nat.find_spec some_position
  have earlier : ∀ j < Nat.find some_position, Representable (expected? (j / extent.cols) (j % extent.cols)) := by
    intro j before
    by_contra large
    exact Nat.find_min some_position before ⟨Nat.lt_trans before small, large⟩
  refine ⟨_, _, ⟨div_mod_lt small, large, ?_⟩, ?_⟩
  · -- a cell before it has a lower position
    rintro row' col' ⟨down', across'⟩ before
    have position := cell_div_mod row' across'
    rw [← Nat.div_add_mod' (Nat.find some_position) extent.cols] at earlier
    have fits := earlier _ (cell_before across' before)
    rwa [position.1, position.2] at fits
  · rw [Matrix.tabulate_eq_error small]
    · rfl
    · intro j before
      obtain ⟨value, done, _⟩ := Integer.word_eq_ok (earlier j before)
      rw [each j (Nat.lt_trans before small), done]
      exact ⟨_, rfl⟩
    · rw [each _ small, Integer.word_eq_error large]
      rfl

theorem cells : Exact (some extent) expected? ((Matrix.tabulate extent true cell).map .matrix) :=
  of_cases (cells_done each) (cells_refused each)

end

end Exact

namespace Value

theorem exists_word_at {grid : Matrix} {extent : Extent} (integral : grid.isIntegral) (same : grid.extent = extent)
    {i : Nat} (small : i < extent.rows * extent.cols) :
    ∃ number : Int64, grid.cells.get i = .int number ∧
      grid.entry (i / extent.cols) (i % extent.cols) = number.toInt := by
  subst same
  obtain ⟨data, ints⟩ := Matrix.exists_ints integral
  obtain ⟨down, across⟩ := div_mod_lt small
  refine ⟨data.getD i 0, by rw [ints]; rfl, ?_⟩
  rw [Matrix.entry_ints ints down across]
  show (data.getD (i / grid.cols * grid.cols + i % grid.cols) 0).toInt = _
  rw [Nat.div_add_mod']

theorem elementArith_ints (op : Arith) (a b : Int64) :
    elementArith op (.int a) (.int b) = (word (op.expected? a.toInt b.toInt)).map .int := by
  rw [← intArith_eq_word]
  rfl

section

variable (op : Arith) {grid : Matrix} (integral : (matrix grid).Integral)

include integral

theorem matrices_exact {other : Matrix} (integral' : (matrix other).Integral) (same : grid.extent = other.extent) :
    Exact (some grid.extent) (fun row col => op.expected? (grid.entry row col) (other.entry row col))
      (arithmetic op (matrix grid) (matrix other)) := by
  rw [arithmetic_matrices, Matrix.combine_eq_tabulate integral.1 integral'.1 same, integral.2, integral'.2]
  apply Exact.cells
  intro i small
  obtain ⟨a, cell, agrees⟩ := exists_word_at integral.2 rfl small
  obtain ⟨b, cell', agrees'⟩ := exists_word_at integral'.2 same.symm small
  rw [cell, cell', elementArith_ints, agrees, agrees']

theorem mapped_exact (f : Element → Except Fault Element) (expected? : Int → Option Int)
    (each : ∀ a : Int64, f (.int a) = (word (expected? a.toInt)).map .int) :
    Exact (some grid.extent) (fun row col => expected? (grid.entry row col))
      ((Matrix.tabulate grid.extent true fun i => f (grid.cells.get i)).map matrix) := by
  apply Exact.cells
  intro i small
  obtain ⟨a, cell, agrees⟩ := exists_word_at integral.2 rfl small
  rw [cell, each, agrees]

theorem matrix_number_exact (number : Int64) :
    Exact (some grid.extent) (fun row col => op.expected? (grid.entry row col) number.toInt)
      (arithmetic op (matrix grid) (int number)) := by
  show Exact _ _ (broadcast op grid (.int number) false)
  rw [broadcast_eq_tabulate integral.1, integral.2]
  exact mapped_exact integral (elementArith op · (.int number)) (op.expected? · number.toInt)
    (elementArith_ints op · number)

theorem number_matrix_exact (number : Int64) :
    Exact (some grid.extent) (fun row col => op.expected? number.toInt (grid.entry row col))
      (arithmetic op (int number) (matrix grid)) := by
  show Exact _ _ (broadcast op grid (.int number) true)
  rw [broadcast_eq_tabulate integral.1, integral.2]
  exact mapped_exact integral (elementArith op (.int number)) (op.expected? number.toInt) (elementArith_ints op number)

theorem negated_matrix_exact :
    Exact (some grid.extent) (fun row col => some (-grid.entry row col)) (negate (matrix grid)) := by
  show Exact _ _ ((grid.mapCells grid.isIntegral negateElement).map matrix)
  rw [Matrix.mapCells_eq_tabulate integral.1, integral.2]
  exact mapped_exact integral negateElement (fun a => some (-a)) fun _ => rfl

end

theorem operands_exact (op : Arith) {left right : Value} (integral : left.Integral) (integral' : right.Integral)
    (alike : ∀ a b, left.extent? = some a → right.extent? = some b → a = b) :
    Exact (left.extent?.or right.extent?)
      (fun row col => op.expected? (left.integerAt row col) (right.integerAt row col)) (arithmetic op left right) := by
  cases left with
  | int a =>
    cases right with
    | int b => exact Exact.number (intArith_eq_word op a b)
    | matrix grid => exact number_matrix_exact op integral' a
    | float _ | text _ | bool _ => cases integral'
  | matrix grid =>
    cases right with
    | int b => exact matrix_number_exact op integral b
    | matrix other => exact matrices_exact op integral integral' (alike _ _ rfl rfl)
    | float _ | text _ | bool _ => cases integral'
  | float _ | text _ | bool _ => cases integral

theorem negated_exact {operand : Value} (integral : operand.Integral) :
    Exact operand.extent? (fun row col => some (-operand.integerAt row col)) operand.negate := by
  cases operand with
  | int a => exact Exact.number (negate_eq_word a)
  | matrix grid => exact negated_matrix_exact integral
  | float _ | text _ | bool _ => cases integral

/-- Integer arithmetic never wraps: between numbers, between matrices of one shape, between a number and a matrix on
either side, and in a negation, all results are the exact ones, or the first cell without a representable result says
what is wrong. Matrices of different shapes, whatever they hold, cannot be combined. -/
theorem integer_arithmetic_exact :
    (∀ (op : Arith) (left right : Value), left.Integral → right.Integral →
      (∀ a b, left.extent? = some a → right.extent? = some b → a = b) →
      Exact (left.extent?.or right.extent?)
        (fun row col => op.expected? (left.integerAt row col) (right.integerAt row col)) (arithmetic op left right)) ∧
    (∀ operand : Value, operand.Integral →
      Exact operand.extent? (fun row col => some (-operand.integerAt row col)) operand.negate) ∧
    (∀ (op : Arith) (left right : Matrix), left.extent ≠ right.extent →
      arithmetic op (matrix left) (matrix right) =
        .error (.shapeMismatch (.operands op.symbol left.extent right.extent))) := by
  refine ⟨fun op _ _ => operands_exact op, fun _ => negated_exact, fun op left right different => ?_⟩
  rw [arithmetic_matrices, Matrix.combine_mismatch different]
  rfl

/-- Of a quotient that overflows and one by zero in the row below it, the first is reported; the least word has no
opposite; a row and a column cannot be subtracted. -/
theorem quotient_overflow_before_zero :
    let least : Int64 := -9223372036854775808
    let left : Matrix := ⟨2, 2, .ints #[7, least, 1, 4]⟩
    let right : Matrix := ⟨2, 2, .ints #[-2, -1, 0, 5]⟩
    (Exact (some ⟨2, 2⟩) (fun row col => Arith.div.expected? (left.entry row col) (right.entry row col))
        (arithmetic .div (matrix left) (matrix right)) ∧
      arithmetic .div (matrix left) (matrix right) = .error .integerOverflow) ∧
    (Exact none (fun _ _ => some (-least.toInt)) (negate (int least)) ∧
      negate (int least) = .error .integerOverflow) ∧
    arithmetic .sub (matrix ⟨1, 2, .ints #[3, 4]⟩) (matrix ⟨2, 1, .floats #[3, 4]⟩) =
      .error (.shapeMismatch (.operands "-" ⟨1, 2⟩ ⟨2, 1⟩)) := by
  intro least left right
  obtain ⟨operands, negated, mismatch⟩ := integer_arithmetic_exact
  refine ⟨⟨?_, rfl⟩, ⟨negated (int least) trivial, rfl⟩, ?_⟩
  · apply operands .div (matrix left) (matrix right) ⟨rfl, rfl⟩ ⟨rfl, rfl⟩
    rintro _ _ ⟨⟩ ⟨⟩
    rfl
  · exact mismatch .sub ⟨1, 2, .ints #[3, 4]⟩ ⟨2, 1, .floats #[3, 4]⟩ (by decide)

end Value

end MatrixScript
