import MatrixScript.Proofs.Evaluation.Moments
import MatrixScript.Proofs.Evaluation.Preservation
import MatrixScript.Proofs.Evaluation.Reading
import MatrixScript.Proofs.Matrix.Guarded
import MatrixScript.Proofs.Printing.Types

/-! Printed integer matrices are read back as they were.

The literal that a matrix is printed as has its rows for items. Each of them evaluates to a matrix of one row, and
stacking these gives the matrix again, also when it has one row only or no columns.
-/

set_option autoImplicit false

namespace MatrixScript

namespace Integer

theorem toInt_ofInt {n : Int} (above : least ≤ n) (below : n ≤ greatest) : (Int64.ofInt n).toInt = n :=
  Int64.toInt_ofInt_of_le above (Int.lt_add_one_of_le below)

theorem fit?_toInt (value : Int64) : fit? value.toInt = some value := by
  have inside : least ≤ value.toInt ∧ value.toInt ≤ greatest := ⟨value.le_toInt, Int.le_of_lt_add_one value.toInt_lt⟩
  rw [fit?, if_pos inside, Int64.ofInt_toInt]

end Integer

namespace Printing

open Grammar Evaluation

variable {tree : Tree} {memory : Memory Value} {lo hi depth : Nat} {id : ExprId}

theorem evaluateWithin_of_kind {kind : ExprKind} (known : tree.kind? id = some kind) (deep : 0 < depth)
    (memory : Memory Value) :
    ∃ less span, depth = less + 1 ∧ evaluateWithin tree memory depth id =
      node tree (fetch memory) (evaluateWithin tree memory less) ⟨kind, span⟩ := by
  obtain ⟨span, found⟩ := Typing.expr?_of_kind known
  obtain ⟨less, rfl⟩ : ∃ less, depth = less + 1 := ⟨depth - 1, by omega⟩
  refine ⟨less, span, rfl, ?_⟩
  rw [evaluateWithin, valueWithin, found]
  rfl

section

variable (memory)

theorem number_evaluates {n : Nat} (small : (n : Int) ≤ Integer.greatest)
    (layout : ExprLayout tree lo hi id (.int (toString n))) (room : hi ≤ depth) :
    evaluateWithin tree memory depth id = .ok (.int (Int64.ofInt n)) := by
  cases layout with
  | int read known =>
    obtain ⟨less, span, rfl, opened⟩ := evaluateWithin_of_kind known (show 0 < depth by omega) memory
    rw [Integer.read?_toString small] at read
    cases read
    exact opened

/-- The dash of a negative number is an operator, and without it the number is still small enough. -/
theorem cell_evaluates {value : Int64} (small : (value.toInt.natAbs : Int) ≤ Integer.greatest)
    (layout : ExprLayout tree lo hi id (cellTerm value)) (room : hi ≤ depth) :
    evaluateWithin tree memory depth id = .ok (.int value) := by
  unfold cellTerm at layout
  split at layout
  · next negative =>
    cases layout with
    | negate inner known =>
      obtain ⟨less, span, rfl, opened⟩ := evaluateWithin_of_kind known (show 0 < depth by omega) memory
      have size : (Int64.ofInt value.toInt.natAbs).toInt = -value.toInt := by
        rw [Integer.toInt_ofInt (by unfold Integer.least; omega) small]
        omega
      -- the magnitude is at most the greatest integer, so that it can be read and negated
      have negated : Integer.neg? (Int64.ofInt value.toInt.natAbs) = some value := by
        rw [Integer.neg?, size, Int.neg_neg, Integer.fit?_toInt]
      rw [opened]
      show (evaluateWithin tree memory less _ >>= fun value => locate _ value.negate) = _
      rw [number_evaluates memory small inner (by omega)]
      show locate _ ((Value.orOverflow (Integer.neg? _)).map Value.int) = _
      rw [negated]
      rfl
  · next positive =>
    have size : (value.toInt.natAbs : Int) = value.toInt := by omega
    rw [number_evaluates memory small layout room, size, Int64.ofInt_toInt]

end

theorem items_evaluate {α : Type} {term : α → Term} {value : α → Value} {items : List α} {terms : List Term}
    {ids : List ExprId} (stretch : Stretch (ExprLayout tree) lo hi ids terms) (same : terms = items.map term)
    {operand : ExprId → Eval Value}
    (each : ∀ item ∈ items, ∀ first last id, last ≤ hi → ExprLayout tree first last id (term item) →
      operand id = .ok (value item)) :
    ids.mapM operand = .ok (items.map value) := by
  induction stretch generalizing items with
  | nil =>
    cases List.map_eq_nil_iff.mp same.symm
    rfl
  | cons layout rest ih =>
    obtain ⟨item, others, rfl, rfl, tail⟩ := List.map_eq_cons_iff.mp same.symm
    have here := each item List.mem_cons_self _ _ _ (ExprLayout.stretch_le rest) layout
    have later := ih tail.symm fun other member => each other (List.mem_cons_of_mem _ member)
    rw [List.mapM_cons, here, later]
    rfl

def stacked (cols : Nat) (grid : List (List Int64)) : Matrix := ⟨grid.length, cols, .ints grid.flatten.toArray⟩

def oneRow (row : List Int64) : Matrix := stacked row.length [row]

theorem ofRows_ints {grid : List (List Int64)} {cols : Nat} (nonempty : grid ≠ [])
    (even : ∀ row ∈ grid, row.length = cols) :
    Matrix.ofRows true (grid.map (List.map Element.int)) = .ok (stacked cols grid) := by
  have width : ((grid.map (List.map Element.int)).head?.map List.length).getD 0 = cols := by
    cases grid with
    | nil => contradiction
    | cons row rest => simpa using even row List.mem_cons_self
  have level : (grid.map (List.map Element.int)).find? (fun row => row.length ≠ cols) = none := by
    rw [List.find?_eq_none]
    intro row member
    obtain ⟨numbers, listed, rfl⟩ := List.mem_map.mp member
    simp [even numbers listed]
  unfold Matrix.ofRows
  rw [width]
  simp only [level]
  simp [stacked, Cells.collect, ← List.map_flatten]

theorem row_oneRow (row : List Int64) : (oneRow row).row 0 = row.map .int := by
  apply List.ext_getElem
  · simp [oneRow, stacked, Matrix.row]
  · intro col _ inside
    rw [List.length_map] at inside
    simp [oneRow, stacked, Matrix.row, Cells.get, inside]

theorem arrayLiteral_numbers {row : List Int64} {ids : List ExprId} {operand : ExprId → Eval Value}
    (values : ids.mapM operand = .ok (row.map Value.int)) (position : Position) :
    Evaluation.arrayLiteral tree operand position ids = .ok (.matrix (oneRow row)) := by
  have elements : (row.map Value.int).mapM Value.element? = some (row.map Element.int) := by
    rw [List.mapM_map]
    exact mapM_eq_some fun _ _ => rfl
  have integral : (row.map Element.int).all Element.isInt = true := by simp [Element.isInt]
  have made : Matrix.ofRows true [row.map .int] = .ok (oneRow row) :=
    ofRows_ints (List.cons_ne_nil row []) (fun other member => by rw [List.mem_singleton.mp member])
  rw [Evaluation.arrayLiteral, values]
  simp only [bind, Except.bind, elements, integral, made]
  rfl

theorem rows_taken {grid : List (List Int64)} {ids : List ExprId} (length : ids.length = grid.length) :
    (ids.zip (grid.map fun row => Value.matrix (oneRow row))).mapM
      (fun (id, value) => (rowOf tree id value : Eval Matrix)) = .ok (grid.map oneRow) := by
  induction grid generalizing ids with
  | nil =>
    rw [List.map_nil, List.zip_nil_right]
    rfl
  | cons row rest ih =>
    cases ids with
    | nil => cases length
    | cons id ids =>
      rw [List.map_cons, List.zip_cons_cons, List.mapM_cons, ih (Nat.succ.inj length)]
      rfl

theorem arrayLiteral_rows {grid : List (List Int64)} {cols : Nat} {ids : List ExprId} {operand : ExprId → Eval Value}
    (nonempty : grid ≠ []) (even : ∀ row ∈ grid, row.length = cols) (length : ids.length = grid.length)
    (values : ids.mapM operand = .ok (grid.map fun row => .matrix (oneRow row))) (position : Position) :
    Evaluation.arrayLiteral tree operand position ids = .ok (.matrix (stacked cols grid)) := by
  have matrices : grid.map oneRow ≠ [] := by simpa using nonempty
  have elements : (grid.map fun row => Value.matrix (oneRow row)).mapM Value.element? = none := by
    have none := mapM_element?_matrices matrices
    rwa [List.map_map] at none
  have integral : (grid.map oneRow).all Matrix.isIntegral = true := by
    simp [oneRow, stacked, Matrix.isIntegral, Cells.isIntegral]
  have cells : (grid.map oneRow).map (fun row => row.row 0) = grid.map (List.map Element.int) := by
    rw [List.map_map]
    exact List.map_congr_left fun row _ => row_oneRow row
  -- none of the items is a number, so that they are not the cells of one row
  rw [Evaluation.arrayLiteral, values]
  simp only [bind, Except.bind, elements]
  rw [rows_taken length]
  simp only [integral, cells, ofRows_ints nonempty even]
  rfl

theorem row_evaluates {row : List Int64} (small : ∀ value ∈ row, (value.toInt.natAbs : Int) ≤ Integer.greatest)
    (memory : Memory Value) (layout : ExprLayout tree lo hi id (.array (row.map cellTerm))) (room : hi ≤ depth) :
    evaluateWithin tree memory depth id = .ok (.matrix (oneRow row)) := by
  cases layout with
  | array stretch known =>
    obtain ⟨less, span, rfl, opened⟩ := evaluateWithin_of_kind known (show 0 < depth by omega) memory
    rw [opened]
    apply arrayLiteral_numbers
    apply items_evaluate stretch rfl
    intro value member first last id inside item
    exact cell_evaluates memory (small value member) item (by omega)

theorem run_of_binding {statement : StmtId} {target value : ExprId} {name : String} {result : Value}
    (body : tree.body = [statement]) (kind : tree.stmtKind? statement = some (.assign target .plain value))
    (named : tree.kind? target = some (.name name)) (given : evaluate tree .start value = .ok result) (steps : Nat)
    (sink : Sink) : tree.run (steps + 1) sink = ⟨.ok [], ({ sink } : Machine).bind name result⟩ := by
  obtain ⟨span, found⟩ := Typing.stmt?_of_kind kind
  have valued : Execution.valueOf tree value { sink } = .ok result { sink } := by
    rw [Execution.valueOf_gives value, given]
    rfl
  have assigned : Execution.assign tree target .plain value { sink } =
      .ok () (({ sink } : Machine).bind name result) := by
    rw [Execution.assign, Execution.bind_apply, valued]
    simp only
    rw [Execution.assignTo, named]
    rfl
  have executed : execute tree (steps + 1) statement { sink } =
      .ok .normal (({ sink } : Machine).bind name result) := by
    rw [execute, found]
    show (Execution.assign tree target .plain value >>= fun _ => pure Flow.normal) _ = _
    rw [Execution.bind_apply, assigned]
    rfl
  unfold Tree.run
  rw [EStateM.run, runBody, body, Execution.sequence, Execution.bind_apply, Execution.bind_apply, executed]
  rfl

section

variable {grid : List (List Int64)} {cols : Nat} (nonempty : grid ≠ []) (even : ∀ row ∈ grid, row.length = cols)
  (small : ∀ row ∈ grid, ∀ value ∈ row, (value.toInt.natAbs : Int) ≤ Integer.greatest)
include nonempty even small

theorem grid_evaluates (memory : Memory Value) (layout : ExprLayout tree lo hi id (gridTerm grid)) (room : hi ≤ depth) :
    evaluateWithin tree memory depth id = .ok (.matrix (stacked cols grid)) := by
  cases layout with
  | array stretch known =>
    obtain ⟨less, span, rfl, opened⟩ := evaluateWithin_of_kind known (show 0 < depth by omega) memory
    rw [opened]
    apply arrayLiteral_rows nonempty even
    · rw [Typing.Stretch.length_eq stretch, List.length_map]
    · apply items_evaluate stretch rfl
      intro row member first last id inside item
      exact row_evaluates (small row member) memory item (by omega)

theorem run_assignment (represents : tree.Represents [assignmentPhrase grid]) (steps : Nat) (sink : Sink) :
    tree.run (steps + 1) sink = ⟨.ok [], ({ sink } : Machine).bind "A" (.matrix (stacked cols grid))⟩ := by
  obtain ⟨lo, hi, statement, target, value, body, kind, named, layout⟩ := represents_assignment represents
  have given := grid_evaluates nonempty even small .start layout (Nat.le_succ_of_le (Typing.layout_le_size layout))
  exact run_of_binding body kind named given steps sink

end

end Printing

namespace Matrix

open Printing

def numbers (matrix : Matrix) : List (List Int64) :=
  (List.range matrix.rows).map fun row => (matrix.row row).map Element.truncated

variable {matrix : Matrix}

theorem numbers_even {row : List Int64} (member : row ∈ matrix.numbers) : row.length = matrix.cols := by
  obtain ⟨index, _, rfl⟩ := List.mem_map.mp member
  simp [Matrix.row]

theorem numbers_ne_nil (nonempty : 0 < matrix.rows) : matrix.numbers ≠ [] := by
  rw [← List.length_pos_iff, numbers, List.length_map, List.length_range]
  exact nonempty

theorem toList_bracketed (items : List String) :
    ("[" ++ ", ".intercalate items ++ "]").toList = listText (items.map String.toList) := by
  simp [listText, String.toList_intercalate]

section

variable (integral : matrix.isIntegral)
include integral

theorem int_truncated (position : Nat) : .int (matrix.cells.get position).truncated = matrix.cells.get position := by
  obtain ⟨rows, cols, cells⟩ := matrix
  cases cells with
  | ints data => rfl
  | floats data => cases integral

theorem display_truncated (position : Nat) :
    (matrix.cells.get position).display = Integer.write (matrix.cells.get position).truncated := by
  rw [← int_truncated integral position]
  rfl

theorem mem_numbers {row : List Int64} {value : Int64} (listed : row ∈ matrix.numbers) (member : value ∈ row) :
    ∃ down across, matrix.get? down across = some (.int value) := by
  obtain ⟨down, below, rfl⟩ := List.mem_map.mp listed
  obtain ⟨element, inside, rfl⟩ := List.mem_map.mp member
  obtain ⟨across, within, rfl⟩ := List.mem_map.mp inside
  refine ⟨down, across, ?_⟩
  rw [get?, if_pos ⟨List.mem_range.mp below, List.mem_range.mp within⟩, int_truncated integral]

theorem toList_displayRow (row : Nat) :
    (matrix.displayRow row).toList =
      listText (((matrix.row row).map Element.truncated).map fun value => (Integer.write value).toList) := by
  rw [displayRow, toList_bracketed, List.map_map, List.map_map]
  congr 1
  apply List.map_congr_left
  intro element member
  obtain ⟨col, _, rfl⟩ := List.mem_map.mp member
  exact congrArg String.toList (display_truncated integral _)

theorem toList_display : matrix.display.toList = gridText matrix.numbers := by
  rw [display, toList_bracketed, gridText, numbers, List.map_map, List.map_map]
  congr 1
  exact List.map_congr_left fun row _ => toList_displayRow integral row

theorem stacked_numbers (wellFormed : matrix.WellFormed) : stacked matrix.cols matrix.numbers = matrix := by
  have height : matrix.numbers.length = matrix.rows := by rw [numbers, List.length_map, List.length_range]
  have flat : matrix.numbers.flatten = matrix.cells.elements.map Element.truncated := by
    have cells := flatMap_range_map matrix.rows matrix.cols fun row col =>
      (matrix.cells.get (row * matrix.cols + col)).truncated
    simp only [Nat.div_add_mod'] at cells
    rw [Cells.elements_eq_map_range, wellFormed, List.map_map, numbers, ← List.flatMap_def]
    simpa only [Matrix.row, List.map_map, Function.comp_def] using cells
  have stored : Cells.ints (matrix.cells.elements.map Element.truncated).toArray = matrix.cells := by
    have collected := @Cells.collect_elements matrix.cells
    rw [show matrix.cells.isIntegral = true from integral] at collected
    exact collected
  rw [stacked, height, flat, stored]

end

/-- A program that assigns a printed matrix to a name is accepted, and running it binds the name to just this matrix.
The least integer is left out since it is written as the negation of a number that is too large to be read. -/
theorem display_reads_back {matrix : Matrix} (integral : matrix.isIntegral) (wellFormed : matrix.WellFormed)
    (nonempty : 0 < matrix.rows)
    (entries : ∀ row col value, matrix.get? row col = some (.int value) → Integer.least < value.toInt) :
    ∃ program, Program.ofSource ("A = " ++ matrix.display ++ ";") = .ok program ∧
      ∀ steps sink, 0 < steps → ∃ machine, program.tree.run steps sink = ⟨.ok [], machine⟩ ∧
        machine.memory.read? "A" = some (.matrix matrix) := by
  have text : "A = " ++ matrix.display ++ ";" = String.ofList (assignmentText matrix.numbers) := by
    apply String.toList_injective
    simp [assignmentText, toList_display integral]
  have small : ∀ row ∈ matrix.numbers, ∀ value ∈ row, (value.toInt.natAbs : Int) ≤ Integer.greatest := by
    intro row listed value member
    obtain ⟨down, across, held⟩ := mem_numbers integral listed member
    have above := entries down across value held
    have below := value.toInt_lt
    unfold Integer.least at above
    unfold Integer.greatest
    omega
  have even : ∀ row ∈ matrix.numbers, row.length = matrix.cols := fun _ => numbers_even
  obtain ⟨tree, parsed, represents⟩ := parse_assignment small
  have clean := Typing.check_assignment (numbers_ne_nil nonempty) even represents
  refine ⟨⟨tree, (check tree).types⟩, ?_, ?_⟩
  · rw [text, Program.ofSource, parsed]
    simp [clean]
  · intro steps sink positive
    obtain ⟨less, rfl⟩ : ∃ less, steps = less + 1 := ⟨steps - 1, by omega⟩
    refine ⟨_, run_assignment (numbers_ne_nil nonempty) even small represents less sink, ?_⟩
    rw [stacked_numbers integral wellFormed]
    rfl

theorem mixedSigns_read_back :
    ∃ program, Program.ofSource "A = [[-1, 20], [0, -300]];" = .ok program ∧
      ∀ steps sink, 0 < steps → ∃ machine, program.tree.run steps sink = ⟨.ok [], machine⟩ ∧
        machine.memory.read? "A" = some (.matrix ⟨2, 2, .ints #[-1, 20, 0, -300]⟩) := by
  have printed : "A = " ++ display ⟨2, 2, .ints #[-1, 20, 0, -300]⟩ ++ ";" = "A = [[-1, 20], [0, -300]];" := by
    decide +kernel
  have above : ∀ position < 4, Integer.least < ((#[-1, 20, 0, -300] : Array Int64).getD position 0).toInt := by decide
  rw [← printed]
  refine display_reads_back rfl rfl (by decide) fun row col value held => ?_
  unfold get? at held
  split at held
  · next inside =>
    cases held
    exact above _ (cell_lt inside.1 inside.2)
  · cases held

end Matrix

end MatrixScript
