import MatrixScript.Proofs.Matrix.Lens

/-! Transposition swaps the two indices of every cell.

A transposed matrix is known by what it has in each cell, so transposing twice gives the matrix back, and a block of the
transposed matrix is the transposed block of the matrix. This also holds of matrices and blocks without rows or columns.
-/

set_option autoImplicit false

namespace MatrixScript

/-- A selected block with its rows and columns exchanged. A scalar is its own transpose. -/
def Part.transpose : Part → Part
  | .scalar element => .scalar element
  | .matrix values => .matrix values.transpose

namespace Matrix

theorem get?_transpose (matrix : Matrix) (row col : Nat) : matrix.transpose.get? col row = matrix.get? row col := by
  by_cases inside : row < matrix.rows ∧ col < matrix.cols
  · obtain ⟨down, across⟩ := inside
    obtain ⟨column, place⟩ := cell_div_mod col down
    have moved : matrix.transpose.cells.get (col * matrix.rows + row) = matrix.cells.get (row * matrix.cols + col) := by
      rw [transpose, Cells.get_gather _ (cell_lt across down), column, place]
    rw [get?_of_lt down across, ← moved]
    exact get?_of_lt across down
  · exact (if_neg fun swapped => inside swapped.symm).trans (if_neg inside).symm

theorem transpose_transpose {matrix : Matrix} (wellFormed : matrix.WellFormed) :
    matrix.transpose.transpose = matrix := by
  refine eq_of_get? (transpose_wellFormed _) wellFormed rfl rfl ?_ fun row col => ?_
  · rw [transpose_isIntegral, transpose_isIntegral]
  · rw [get?_transpose, get?_transpose]

def Block.transpose (block : Block) : Block := ⟨block.col, block.row, block.width, block.height⟩

variable {matrix : Matrix} {rows cols : Selector} {block : Block} {part : Part}

theorem Block.Resolves.transpose (resolves : block.Resolves matrix rows cols) :
    block.transpose.Resolves matrix.transpose cols rows :=
  ⟨resolves.across, resolves.down⟩

theorem Reads.transpose {points integral : Bool} {cell : Nat → Nat → Option Element}
    (reads : Reads points integral block cell part) :
    Reads points integral block.transpose (fun col row => cell row col) part.transpose := by
  cases reads with
  | scalar point found => exact .scalar point found
  | @matrix values other wellFormed kind height width cells =>
    refine .matrix other (transpose_wellFormed _) ((transpose_isIntegral _).trans kind) width height ?_
    intro col before row below
    rw [get?_transpose]
    exact cells row below col before

theorem Reads.unique {points integral : Bool} {cell : Nat → Nat → Option Element} {other : Part}
    (reads : Reads points integral block cell part) (reads' : Reads points integral block cell other) :
    part = other := by
  cases reads with
  | scalar point found =>
    cases reads' with
    | scalar _ found' => rw [Option.some.inj (found.symm.trans found')]
    | matrix other => exact absurd point other
  | @matrix values other wellFormed kind height width cells =>
    cases reads' with
    | scalar point => exact absurd point other
    | @matrix values' _ wellFormed' kind' height' width' cells' =>
      congr 1
      refine eq_of_get? wellFormed wellFormed' (height.trans height'.symm) (width.trans width'.symm)
        (kind.trans kind'.symm) fun row col => ?_
      by_cases inside : row < block.height ∧ col < block.width
      · exact (cells row inside.1 col inside.2).trans (cells' row inside.1 col inside.2).symm
      · rw [Matrix.get?, Matrix.get?, height, height', width, width', if_neg inside, if_neg inside]

/-- A block of the transposed matrix is the transposed block of the matrix. -/
theorem select_transpose (done : matrix.select rows cols = .ok part) :
    matrix.transpose.select cols rows = .ok part.transpose := by
  obtain ⟨block, found, _⟩ := Except.bind_eq_ok done
  have resolves := block_eq_ok_iff.mp found
  obtain ⟨read, done', reads⟩ := select_reads resolves
  cases Except.ok.inj (done'.symm.trans done)
  obtain ⟨flipped, done'', reads'⟩ := select_reads resolves.transpose
  have cells : (fun col row => matrix.transpose.get? (block.col + col) (block.row + row)) =
      fun col row => matrix.get? (block.row + row) (block.col + col) := by
    funext col row
    exact get?_transpose matrix _ _
  rw [transpose_isIntegral, Bool.and_comm] at reads'
  rw [done'', reads'.unique (cells ▸ reads.transpose)]

/-- The transpose of a matrix has as many rows as the matrix has columns and the other way round, the same storage kind,
and in each cell what the matrix has in the cell with the indices swapped. Transposing it again gives the matrix back. A
selection from it succeeds when the selection with the selectors swapped succeeds from the matrix, and selects the same
scalar or the transposed block. -/
theorem transpose_swaps (matrix : Matrix) (wellFormed : matrix.WellFormed) :
    matrix.transpose.WellFormed ∧ matrix.transpose.rows = matrix.cols ∧ matrix.transpose.cols = matrix.rows ∧
    matrix.transpose.isIntegral = matrix.isIntegral ∧
    (∀ row col, matrix.transpose.get? col row = matrix.get? row col) ∧
    matrix.transpose.transpose = matrix ∧
    ∀ rows cols part, matrix.transpose.select cols rows = .ok part ↔
      ∃ selected, matrix.select rows cols = .ok selected ∧ part = selected.transpose := by
  refine ⟨transpose_wellFormed _, rfl, rfl, transpose_isIntegral _, get?_transpose matrix,
    transpose_transpose wellFormed, fun rows cols part => ⟨fun done => ?_, ?_⟩⟩
  · -- the matrix is the transpose of its transpose, so one direction serves for both
    have back := select_transpose done
    rw [transpose_transpose wellFormed] at back
    have forth := select_transpose back
    exact ⟨part.transpose, back, Except.ok.inj (done.symm.trans forth)⟩
  · rintro ⟨selected, done, rfl⟩
    exact select_transpose done

/-- A row of two floats, transposed; an empty block of it. -/
theorem floatRow_transpose_swaps :
    let matrix : Matrix := ⟨1, 2, .floats #[1.5, 2.5]⟩
    matrix.WellFormed ∧ matrix.transpose.get? 1 0 = matrix.get? 0 1 ∧ matrix.transpose.transpose = matrix ∧
      (∀ part, matrix.transpose.select (.span 1 1) (.point 0) = .ok part ↔
        ∃ selected, matrix.select (.point 0) (.span 1 1) = .ok selected ∧ part = selected.transpose) := by
  intro matrix
  obtain ⟨_, _, _, _, cells, twice, blocks⟩ := transpose_swaps matrix rfl
  exact ⟨rfl, cells 0 1, twice, blocks (.point 0) (.span 1 1)⟩

end Matrix

end MatrixScript
