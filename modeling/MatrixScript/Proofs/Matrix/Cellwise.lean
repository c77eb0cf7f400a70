import MatrixScript.Proofs.Matrix.Accumulation
import MatrixScript.Value.Operation

/-! Matrices computed cell by cell.

Mapping a matrix, combining two of one shape and putting a number beside one all go through the cells in order, store
what comes out and stop at the first cell that fails. They differ in what is computed at a position and in nothing else.
-/

set_option autoImplicit false

namespace MatrixScript

section

variable {ε α β : Type}

theorem mapM_eq_error {before after : List α} {item : α} {f : α → Except ε β} {fault : ε}
    (earlier : ∀ item ∈ before, ∃ value, f item = .ok value) (failed : f item = .error fault) :
    (before ++ item :: after).mapM f = .error fault := by
  induction before with
  | nil =>
    rw [List.nil_append, List.mapM_cons, failed]
    rfl
  | cons first rest ih =>
    obtain ⟨value, done⟩ := earlier first List.mem_cons_self
    rw [List.cons_append, List.mapM_cons, done, ih fun item member => earlier item (List.mem_cons_of_mem _ member)]
    rfl

theorem range_split {count i : Nat} (small : i < count) :
    ∃ after, List.range count = List.range i ++ i :: after := by
  obtain ⟨more, rfl⟩ := Nat.exists_eq_add_of_lt small
  refine ⟨(List.range more).map fun k => i + (k + 1), ?_⟩
  rw [Nat.add_assoc, List.range_add, List.range_succ_eq_map]
  simp [Function.comp_def]

end

namespace Matrix

variable {ε : Type}

/-- A matrix whose cells are computed in order, from their positions. -/
def tabulate (extent : Extent) (integral : Bool) (cell : Nat → Except ε Element) : Except ε Matrix := do
  let elements ← (List.range (extent.rows * extent.cols)).mapM cell
  return ⟨extent.rows, extent.cols, .collect integral elements⟩

theorem tabulate_congr {extent : Extent} {integral : Bool} {cell cell' : Nat → Except ε Element}
    (same : ∀ i < extent.rows * extent.cols, cell i = cell' i) :
    tabulate extent integral cell = tabulate extent integral cell' := by
  unfold tabulate
  rw [mapM_congr fun i member => same i (List.mem_range.mp member)]

theorem tabulate_eq_ok {extent : Extent} {integral : Bool} {cell : Nat → Except ε Element} {element : Nat → Element}
    (each : ∀ i < extent.rows * extent.cols, cell i = .ok (element i)) :
    tabulate extent integral cell =
      .ok ⟨extent.rows, extent.cols,
        .collect integral ((List.range (extent.rows * extent.cols)).map element)⟩ := by
  unfold tabulate
  rw [mapM_eq_pure fun i member => each i (List.mem_range.mp member)]
  rfl

theorem tabulate_eq_error {extent : Extent} {integral : Bool} {cell : Nat → Except ε Element} {fault : ε} {i : Nat}
    (small : i < extent.rows * extent.cols) (earlier : ∀ j < i, ∃ element, cell j = .ok element)
    (failed : cell i = .error fault) : tabulate extent integral cell = .error fault := by
  obtain ⟨after, split⟩ := range_split small
  unfold tabulate
  rw [split, mapM_eq_error (fun j member => earlier j (List.mem_range.mp member)) failed]
  rfl

theorem mapCells_eq_tabulate {matrix : Matrix} (wellFormed : matrix.WellFormed) (integral : Bool)
    (f : Element → Except ε Element) :
    matrix.mapCells integral f = tabulate matrix.extent integral fun i => f (matrix.cells.get i) := by
  rw [mapCells, Cells.elements_eq_map_range, List.mapM_map, show matrix.cells.size = _ from wellFormed]
  rfl

theorem combine_eq_tabulate {operator : String} {f : Element → Element → Except Fault Element} {left right : Matrix}
    (first : left.WellFormed) (second : right.WellFormed) (same : left.extent = right.extent) :
    combine operator f left right =
      tabulate left.extent (left.isIntegral && right.isIntegral) fun i =>
        f (left.cells.get i) (right.cells.get i) := by
  have rows : left.rows = right.rows := congrArg Extent.rows same
  have cols : left.cols = right.cols := congrArg Extent.cols same
  have sizes : right.cells.size = left.cells.size := by
    rw [show left.cells.size = _ from first, show right.cells.size = _ from second, rows, cols]
  rw [combine, if_pos ⟨rows, cols⟩, Cells.zip_elements sizes, List.mapM_map, show left.cells.size = _ from first]
  rfl

theorem combine_mismatch {operator : String} {f : Element → Element → Except Fault Element} {left right : Matrix}
    (different : left.extent ≠ right.extent) :
    combine operator f left right = .error (.shapeMismatch (.operands operator left.extent right.extent)) := by
  apply if_neg
  rintro ⟨rows, cols⟩
  exact different (by rw [extent, extent, rows, cols])

end Matrix

namespace Value

theorem arithmetic_matrices (op : Arith) (left right : Matrix) :
    arithmetic op (matrix left) (matrix right) =
      (Matrix.combine op.symbol (elementArith op) left right).map matrix := rfl

theorem broadcast_eq_tabulate {grid : Matrix} (wellFormed : grid.WellFormed) (op : Arith) (number : Element)
    (flipped : Bool) :
    broadcast op grid number flipped =
      (Matrix.tabulate grid.extent (grid.isIntegral && number.isInt) fun i =>
        if flipped then elementArith op number (grid.cells.get i)
        else elementArith op (grid.cells.get i) number).map matrix := by
  have mapped := Matrix.mapCells_eq_tabulate wellFormed (grid.isIntegral && number.isInt) fun element =>
    if flipped then elementArith op number element else elementArith op element number
  rw [← mapped]
  exact (map_eq_pure_bind _ _).symm

end Value

end MatrixScript
