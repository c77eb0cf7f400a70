import MatrixScript.Proofs.Matrix.Storage

/-! Selection and assignment form a lens.

A write changes the selected cells and nothing else, and it is known by that: a matrix with the same size, storage and
cells is the same matrix. The laws of reading after writing, of writing back what was read and of writing twice follow
from what a write does to each cell.
-/

set_option autoImplicit false

namespace MatrixScript

namespace Part

/-- What the part has for a row and a column of a selection. A scalar is the same everywhere. -/
def get? (part : Part) (row col : Nat) : Option Element :=
  match part with
  | .scalar element => some element
  | .matrix values => values.get? row col

/-- A scalar, or a matrix of exactly the given size. -/
def Spans (part : Part) (height width : Nat) : Prop :=
  match part with
  | .scalar _ => True
  | .matrix values => values.rows = height ∧ values.cols = width

end Part

namespace Matrix

theorem eq_of_get? {left right : Matrix} (first : left.WellFormed) (second : right.WellFormed)
    (rows : left.rows = right.rows) (cols : left.cols = right.cols) (kind : left.isIntegral = right.isIntegral)
    (same : ∀ row col, left.get? row col = right.get? row col) : left = right := by
  obtain ⟨height, width, cells⟩ := left
  obtain ⟨_, _, cells'⟩ := right
  cases rows
  cases cols
  congr 1
  apply Cells.eq_of_get kind ((show cells.size = _ from first).trans (show cells'.size = _ from second).symm)
  intro position inside
  rw [show cells.size = _ from first] at inside
  obtain ⟨down, across⟩ := div_mod_lt inside
  have cell := same (position / width) (position % width)
  simpa only [get?, down, across, and_self, if_true, Option.some.injEq, Nat.div_add_mod'] using cell

theorem get?_of_lt {matrix : Matrix} {row col : Nat} (down : row < matrix.rows) (across : col < matrix.cols) :
    matrix.get? row col = some (matrix.cells.get (row * matrix.cols + col)) := if_pos ⟨down, across⟩

variable {matrix : Matrix} {rows cols : Selector} {block : Block} {part : Part}

/-- The rows and columns of a block are those to which two selectors resolve. -/
structure Block.Resolves (block : Block) (matrix : Matrix) (rows cols : Selector) : Prop where
  down : rows.resolve matrix.rows = .ok (block.row, block.row + block.height)
  across : cols.resolve matrix.cols = .ok (block.col, block.col + block.width)

def Block.Has (block : Block) (row col : Nat) : Prop :=
  (block.row ≤ row ∧ row < block.row + block.height) ∧ block.col ≤ col ∧ col < block.col + block.width

theorem block_eq_ok_iff : matrix.block rows cols = .ok block ↔ block.Resolves matrix rows cols := by
  constructor
  · intro found
    obtain ⟨⟨first, last⟩, down, found⟩ := Except.bind_eq_ok found
    obtain ⟨⟨first', last'⟩, across, found⟩ := Except.bind_eq_ok found
    cases found
    obtain ⟨forward, _⟩ := Selector.resolve_bounds down
    obtain ⟨forward', _⟩ := Selector.resolve_bounds across
    refine ⟨?_, ?_⟩
    · rw [down, Nat.add_sub_cancel' forward]
    · rw [across, Nat.add_sub_cancel' forward']
  · rintro ⟨down, across⟩
    rw [Matrix.block, down, across]
    show Except.ok (Block.mk _ _ _ _) = _
    rw [Nat.add_sub_cancel_left, Nat.add_sub_cancel_left]

/-- A matrix that differs from another only in a block, whose cells are those of a part in the storage of the matrix. -/
structure Written (matrix : Matrix) (block : Block) (part : Part) (result : Matrix) : Prop where
  rows : result.rows = matrix.rows
  cols : result.cols = matrix.cols
  kind : result.isIntegral = matrix.isIntegral
  wellFormed : result.WellFormed
  inside : ∀ row < block.height, ∀ col < block.width,
    result.get? (block.row + row) (block.col + col) = (part.get? row col).map (·.storedAs matrix.isIntegral)
  outside : ∀ row col, ¬ block.Has row col → result.get? row col = matrix.get? row col

namespace Block.Resolves

theorem unique {other : Block} (resolves : block.Resolves matrix rows cols) (resolves' : other.Resolves matrix rows cols) :
    other = block := by
  have same := block_eq_ok_iff.mpr resolves
  rw [block_eq_ok_iff.mpr resolves'] at same
  exact Except.ok.inj same

theorem within (resolves : block.Resolves matrix rows cols) :
    block.row + block.height ≤ matrix.rows ∧ block.col + block.width ≤ matrix.cols ∧
      (rows.isPoint → block.height = 1) ∧ (cols.isPoint → block.width = 1) :=
  block_inside (block_eq_ok_iff.mpr resolves)

end Block.Resolves

section

variable {width : Nat} (across : block.col + block.width ≤ width)

include across

end

namespace Written

variable {result : Matrix}

theorem unique {other : Matrix} (written : Written matrix block part result) (written' : Written matrix block part other) :
    result = other := by
  refine eq_of_get? written.wellFormed written'.wellFormed (written.rows.trans written'.rows.symm)
    (written.cols.trans written'.cols.symm) (written.kind.trans written'.kind.symm) ?_
  intro row col
  by_cases inside : block.Has row col
  · obtain ⟨⟨above, below⟩, left, right⟩ := inside
    have cell := written.inside (row - block.row) (by omega) (col - block.col) (by omega)
    have cell' := written'.inside (row - block.row) (by omega) (col - block.col) (by omega)
    rw [Nat.add_sub_cancel' above, Nat.add_sub_cancel' left] at cell cell'
    exact cell.trans cell'.symm
  · exact (written.outside row col inside).trans (written'.outside row col inside).symm

theorem again {second : Part} {last : Matrix} (first : Written matrix block part result)
    (written : Written result block second last) : Written matrix block second last where
  rows := written.rows.trans first.rows
  cols := written.cols.trans first.cols
  kind := written.kind.trans first.kind
  wellFormed := written.wellFormed
  inside row below col before := first.kind ▸ written.inside row below col before
  outside row col apart := (written.outside row col apart).trans (first.outside row col apart)

end Written

/-- What is read from a block: its only cell for two points, and otherwise a matrix of the size of the block, stored as
the whole. -/
inductive Reads (points integral : Bool) (block : Block) (cell : Nat → Nat → Option Element) : Part → Prop where
  | scalar {element : Element} : points → cell 0 0 = some element → Reads points integral block cell (.scalar element)
  | matrix {values : Matrix} : ¬ points → values.WellFormed → values.isIntegral = integral →
      values.rows = block.height → values.cols = block.width →
      (∀ row < block.height, ∀ col < block.width, values.get? row col = cell row col) →
        Reads points integral block cell (.matrix values)

theorem select_reads (resolves : block.Resolves matrix rows cols) :
    ∃ read, matrix.select rows cols = .ok read ∧
      Reads (rows.isPoint && cols.isPoint) matrix.isIntegral block
        (fun row col => matrix.get? (block.row + row) (block.col + col)) read := by
  obtain ⟨down, across, high, wide⟩ := resolves.within
  unfold select
  rw [block_eq_ok_iff.mpr resolves]
  show ∃ read, (if rows.isPoint && cols.isPoint then _ else _) = Except.ok read ∧ _
  split
  · next points =>
    obtain ⟨point, point'⟩ := Bool.and_eq_true_iff.mp points
    have height := high point
    have width := wide point'
    exact ⟨_, rfl, .scalar points (get?_of_lt (show block.row + 0 < matrix.rows by omega)
      (show block.col + 0 < matrix.cols by omega))⟩
  · next other =>
    refine ⟨_, rfl, .matrix other (Cells.size_gather _ _ _) (Cells.isIntegral_gather _ _ _) rfl rfl ?_⟩
    intro row below col before
    obtain ⟨here, there⟩ := cell_div_mod row before
    rw [get?_of_lt below before, get?_of_lt (show block.row + row < matrix.rows by omega)
      (show block.col + col < matrix.cols by omega)]
    show some ((matrix.cells.gather _ _).get (row * block.width + col)) = _
    rw [Cells.get_gather _ (cell_lt below before), Block.position, here, there]

namespace Reads

variable {points integral : Bool} {cell : Nat → Nat → Option Element} {read : Part}

theorem congr {cell' : Nat → Nat → Option Element} (reads : Reads points integral block cell read)
    (single : points → block.height = 1 ∧ block.width = 1)
    (same : ∀ row < block.height, ∀ col < block.width, cell row col = cell' row col) :
    Reads points integral block cell' read := by
  cases reads with
  | scalar point found =>
    obtain ⟨height, width⟩ := single point
    exact .scalar point ((same 0 (by omega) 0 (by omega)).symm.trans found)
  | matrix other wellFormed kind rows cols cells =>
    refine .matrix other wellFormed kind rows cols ?_
    intro row below col before
    exact (cells row below col before).trans (same row below col before)

theorem spans (reads : Reads points integral block cell read) : read.Spans block.height block.width := by
  cases reads with
  | scalar => trivial
  | matrix _ _ _ rows cols _ => exact ⟨rows, cols⟩

theorem get? (reads : Reads points integral block cell read) (single : points → block.height = 1 ∧ block.width = 1)
    {row col : Nat} (below : row < block.height) (before : col < block.width) : read.get? row col = cell row col := by
  cases reads with
  | scalar point found =>
    obtain ⟨height, width⟩ := single point
    obtain rfl : row = 0 := by omega
    obtain rfl : col = 0 := by omega
    exact found.symm
  | matrix _ _ _ _ _ cells => exact cells row below col before

end Reads

theorem Block.Resolves.single (resolves : block.Resolves matrix rows cols) (points : rows.isPoint && cols.isPoint) :
    block.height = 1 ∧ block.width = 1 := by
  obtain ⟨_, _, high, wide⟩ := resolves.within
  obtain ⟨point, point'⟩ := Bool.and_eq_true_iff.mp points
  exact ⟨high point, wide point'⟩

theorem Written.resolves {result : Matrix} (written : Written matrix block part result)
    (resolves : block.Resolves matrix rows cols) : block.Resolves result rows cols :=
  ⟨written.rows ▸ resolves.down, written.cols ▸ resolves.across⟩

theorem Written.reads {result : Matrix} (written : Written matrix block part result)
    (resolves : block.Resolves matrix rows cols) :
    ∃ read, result.select rows cols = .ok read ∧
      Reads (rows.isPoint && cols.isPoint) matrix.isIntegral block
        (fun row col => (part.get? row col).map (·.storedAs matrix.isIntegral)) read := by
  obtain ⟨read, done, reads⟩ := select_reads (written.resolves resolves)
  rw [written.kind] at reads
  exact ⟨read, done, reads.congr resolves.single written.inside⟩

end Matrix

end MatrixScript
