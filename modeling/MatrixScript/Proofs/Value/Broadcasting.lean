import MatrixScript.Proofs.Matrix.Cellwise

/-! A number beside a matrix acts as a matrix of that number.

The number meets every cell on its own, and two matrices meet cell by cell. Where one of the matrices has the number in
every cell the two come to the same in every respect: the cells, how they are stored, and what goes wrong first.
-/

set_option autoImplicit false

namespace MatrixScript

namespace Matrix

variable (matrix : Matrix) (number : Element)

/-- A matrix of the same shape with one number in all cells, stored as the number is. -/
def filled : Matrix :=
  ⟨matrix.rows, matrix.cols, .collect number.isInt (List.replicate (matrix.rows * matrix.cols) number)⟩

@[simp] theorem extent_filled : (matrix.filled number).extent = matrix.extent := rfl

@[simp] theorem isIntegral_filled : (matrix.filled number).isIntegral = number.isInt := Cells.isIntegral_collect _ _

theorem filled_wellFormed : (matrix.filled number).WellFormed := by
  simp [WellFormed, filled]

theorem get_filled {i : Nat} (small : i < matrix.rows * matrix.cols) :
    (matrix.filled number).cells.get i = number := by
  have inside : i < (List.replicate (matrix.rows * matrix.cols) number).length := by
    rwa [List.length_replicate]
  rw [filled, Cells.get_collect inside, List.get_eq_getElem, List.getElem_replicate, Element.storedAs_isInt]

end Matrix

namespace Value

variable (op : Arith) {grid : Matrix} (wellFormed : grid.WellFormed) (number : Element)

theorem arithmetic_matrix_number :
    arithmetic op (matrix grid) (ofElement number) = broadcast op grid number false := by
  cases number <;> rfl

theorem arithmetic_number_matrix :
    arithmetic op (ofElement number) (matrix grid) = broadcast op grid number true := by
  cases number <;> rfl

include wellFormed

theorem broadcast_right :
    broadcast op grid number false = arithmetic op (matrix grid) (matrix (grid.filled number)) := by
  rw [broadcast_eq_tabulate wellFormed, arithmetic_matrices,
    Matrix.combine_eq_tabulate wellFormed (grid.filled_wellFormed number) rfl, Matrix.isIntegral_filled]
  congr 1
  apply Matrix.tabulate_congr
  intro i small
  rw [if_neg Bool.false_ne_true, grid.get_filled number small]

theorem broadcast_left :
    broadcast op grid number true = arithmetic op (matrix (grid.filled number)) (matrix grid) := by
  rw [broadcast_eq_tabulate wellFormed, arithmetic_matrices,
    Matrix.combine_eq_tabulate (grid.filled_wellFormed number) wellFormed rfl, Matrix.isIntegral_filled,
    Bool.and_comm, Matrix.extent_filled]
  congr 1
  apply Matrix.tabulate_congr
  intro i small
  rw [if_pos rfl, grid.get_filled number small]

/-- On either side of a matrix, a number gives what a matrix full of it gives: the same cells stored in the same way, or
the same fault. -/
theorem number_acts_as_filled :
    arithmetic op (matrix grid) (ofElement number) = arithmetic op (matrix grid) (matrix (grid.filled number)) ∧
    arithmetic op (ofElement number) (matrix grid) = arithmetic op (matrix (grid.filled number)) (matrix grid) := by
  rw [arithmetic_matrix_number, arithmetic_number_matrix]
  exact ⟨broadcast_right op wellFormed number, broadcast_left op wellFormed number⟩

omit wellFormed in
/-- An integer divided by a row of integers and the row divided by it: the quotient by zero in the row is refused in the
one case, and the other gives integers again. -/
theorem dividedRow_acts_as_filled :
    let row : Matrix := ⟨1, 3, .ints #[7, 0, -9]⟩
    row.WellFormed ∧
      (arithmetic .div (matrix row) (int 2) = arithmetic .div (matrix row) (matrix (row.filled (.int 2))) ∧
        arithmetic .div (matrix row) (int 2) = .ok (matrix ⟨1, 3, .ints #[3, 0, -4]⟩)) ∧
      (arithmetic .div (int 2) (matrix row) = arithmetic .div (matrix (row.filled (.int 2))) (matrix row) ∧
        arithmetic .div (int 2) (matrix row) = .error .divisionByZero) := by
  intro row
  have same := number_acts_as_filled .div (show row.WellFormed from rfl) (.int 2)
  exact ⟨rfl, ⟨same.1, rfl⟩, same.2, rfl⟩

end Value

end MatrixScript
