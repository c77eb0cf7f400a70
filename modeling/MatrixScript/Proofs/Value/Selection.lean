import MatrixScript.Proofs.Value.Conformance

/-! What is selected from a value conforms to what the checker says of the selection, and so does the whole after a
part of it has been replaced. -/

set_option autoImplicit false

namespace MatrixScript

open Typing

/-- What is known of an index, and the selector that it has in a run. -/
inductive Selection.Matches : Selection → Selector → Prop where
  | point {known : Option Int64} {index : Int64} :
      (∀ literal, known = some literal → index = literal) → Selection.Matches (.point known) (.point index)
  | span {known : Option (Int64 × Int64)} {first last : Int64} :
      (∀ start stop, known = some (start, stop) → first = start ∧ last = stop) →
        Selection.Matches (.span known) (.span first last)

/-- What is known of the size of a selection along an axis; a point has no size of its own. -/
structure Selector.Measures (selector : Selector) (length : Nat) (dim : Option Dim) : Prop where
  point : selector.isPoint = dim.isNone
  size : ∀ size, selector.Takes length size → (dim.getD (.known 1)).Admits size

theorem measures_point (index : Int64) (length : Nat) : (Selector.point index).Measures length none := by
  refine ⟨rfl, fun size takes known same => ?_⟩
  cases same
  exact takes.point.1

theorem axisResult_measures {axis : Axis} {bound : Dim} {selection : Selection} {selector : Selector}
    {dim : Option Dim} (matched : Selection.Matches selection selector)
    (quiet : axisResult axis bound selection = ([], dim)) (length : Nat) : selector.Measures length dim := by
  cases matched with
  | @point known index literal =>
    have none : dim = none := by
      cases known with
      | none => exact (congrArg Prod.snd quiet).symm
      | some value => exact (congrArg Prod.snd quiet).symm
    subst none
    exact measures_point index length
  | @span known first last literal =>
    cases known with
    | none =>
      cases quiet
      exact ⟨rfl, fun _ _ => nofun⟩
    | some bounds =>
      obtain ⟨start, stop⟩ := bounds
      obtain ⟨rfl, rfl⟩ := literal start stop rfl
      simp only [axisResult] at quiet
      split at quiet
      · -- an empty range has been reported
        have problems := congrArg Prod.fst quiet
        simp at problems
      · have sized := (congrArg Prod.snd quiet).symm
        subst sized
        refine ⟨rfl, fun size takes known same => ?_⟩
        cases same
        obtain ⟨taken, low, high⟩ := takes.span
        have ordered : first ≤ last := Int64.le_iff_toInt_le.mpr (by omega)
        have nonneg : 0 ≤ first := Int64.le_iff_toInt_le.mpr (by simpa using low)
        rw [Int64.toInt_sub_of_le last first nonneg ordered]
        omega

theorem ofElement_fitting {elem : ElemType} {element : Element} (admits : elem.Admits element.isInt)
    (known : elem ≠ .unknown) : Fitting (.ofTag elem.tag) (Value.ofElement element) := by
  cases elem with
  | int =>
    cases element with
    | int value => exact .int value
    | float value => cases admits.1 rfl
  | float =>
    cases element with
    | int value => cases admits.2 rfl
    | float value => exact .float value
  | unknown => exact absurd rfl known

section

variable {shape : Shape} {grid : Matrix} {rows cols : Selector}

theorem select_cell (describes : shape.Describes grid) (known : shape.elem ≠ .unknown)
    (points : (rows.isPoint && cols.isPoint) = true) :
    Checked Fault.Unforeseen (fun part => Fitting (.ofTag shape.elem.tag) (Value.ofPart part))
      (Value.orFault (grid.select rows cols)) := by
  refine Checked.orFault fun part done => ?_
  have selected := Matrix.select_eq_ok done
  rw [if_pos points] at selected
  obtain ⟨element, rfl, kind⟩ := selected
  refine ofElement_fitting ?_ known
  rw [kind]
  exact describes.elem

theorem select_block {rowDim colDim : Dim} (describes : shape.Describes grid) (small : grid.Countable)
    (block : (rows.isPoint && cols.isPoint) = false)
    (down : ∀ size, rows.Takes grid.rows size → rowDim.Admits size)
    (across : ∀ size, cols.Takes grid.cols size → colDim.Admits size) :
    Checked Fault.Unforeseen (fun part => Fitting (.array ⟨rowDim, colDim, shape.elem⟩) (Value.ofPart part))
      (Value.orFault (grid.select rows cols)) := by
  refine Checked.orFault fun part done => ?_
  have selected := Matrix.select_eq_ok done
  rw [block, if_neg Bool.false_ne_true] at selected
  obtain ⟨result, rfl, takesRows, takesCols, kind⟩ := selected
  have fewRows := takesRows.le
  have fewCols := takesCols.le
  have smallRows := small.1
  have smallCols := small.2
  refine Fitting.array ⟨down _ takesRows, across _ takesCols, ?_⟩ ⟨by omega, by omega⟩
  rw [kind]
  exact describes.elem

variable {Allowed : Fault → Prop} {Good : Value → Prop}

theorem index_pair
    (selected : Checked Allowed (fun part => Good (Value.ofPart part)) (Value.orFault (grid.select rows cols))) :
    Checked Allowed Good (Value.index (.matrix grid) [rows, cols]) := by
  show Checked Allowed Good (Value.orFault (grid.select rows cols) >>= fun part => pure (Value.ofPart part))
  exact selected.bind fun _ good => good

theorem index_single {index : Selector} (flat : grid.flatSelectors index = (rows, cols))
    (selected : Checked Allowed (fun part => Good (Value.ofPart part)) (Value.orFault (grid.select rows cols))) :
    Checked Allowed Good (Value.index (.matrix grid) [index]) := by
  have selects : Value.matrixSelectors grid [index] = .ok (rows, cols) := congrArg Except.ok flat
  simp only [Value.index, selects]
  exact selected.bind fun _ good => good

/-- The static type of a selection, by what is known of its sizes. -/
def selectedType (elem : ElemType) (rowDim colDim : Option Dim) : StaticType :=
  if rowDim.isNone && colDim.isNone then .ofTag elem.tag
  else .array ⟨rowDim.getD (.known 1), colDim.getD (.known 1), elem⟩

theorem select_fitting {rowDim colDim : Option Dim} (describes : shape.Describes grid) (small : grid.Countable)
    (down : rows.Measures grid.rows rowDim) (across : cols.Measures grid.cols colDim)
    (known : (selectedType shape.elem rowDim colDim).tag ≠ .unknown) :
    Checked Fault.Unforeseen (fun part => Fitting (selectedType shape.elem rowDim colDim) (Value.ofPart part))
      (Value.orFault (grid.select rows cols)) := by
  have points : (rows.isPoint && cols.isPoint) = (rowDim.isNone && colDim.isNone) := by rw [down.point, across.point]
  unfold selectedType at known ⊢
  split
  · next cell =>
    rw [if_pos cell] at known
    refine select_cell describes (fun unknown => known ?_) (points.trans cell)
    rw [unknown]
    rfl
  · next block =>
    exact select_block describes small (points.trans (Bool.eq_false_iff.mpr block)) down.size across.size

theorem toInt_ofNat_of_counted {length : Nat} (small : (length : Int) ≤ Integer.greatest) :
    (Int64.ofNat length).toInt = length := by
  refine Int64.toInt_ofNat_of_lt ?_
  unfold Integer.greatest at small
  omega

theorem measures_all {length : Nat} {dim : Dim} (admits : dim.Admits length)
    (small : (length : Int) ≤ Integer.greatest) :
    (Selector.span 0 (Int64.ofNat length)).Measures length (some dim) := by
  refine ⟨rfl, fun size takes => ?_⟩
  have taken := takes.span.1
  rw [toInt_ofNat_of_counted small, Int64.toInt_zero] at taken
  obtain rfl : size = length := by omega
  exact admits

theorem flat_row_fitting {index : Selector} {colDim : Option Dim} (describes : shape.Describes grid)
    (small : grid.Countable) (single : shape.rows = .known 1) (across : index.Measures grid.cols colDim)
    (known : (selectedType shape.elem none colDim).tag ≠ .unknown) :
    Checked Fault.Unforeseen (Fitting (selectedType shape.elem none colDim)) (Value.index (.matrix grid) [index]) := by
  have one := describes.rows 1 single
  refine index_single (if_pos one) (select_fitting describes small ?_ across known)
  exact measures_point 0 grid.rows

theorem flat_rows_fitting {index : Selector} {size : Nat} {rowDim : Option Dim} (describes : shape.Describes grid)
    (small : grid.Countable) (several : shape.rows = .known size) (not_one : size ≠ 1)
    (down : index.Measures grid.rows rowDim) :
    Checked Fault.Unforeseen (Fitting (selectedType shape.elem rowDim (some shape.cols)))
      (Value.index (.matrix grid) [index]) := by
  have rows := describes.rows size several
  refine index_single (if_neg (rows ▸ not_one)) (select_fitting describes small down ?_ ?_)
  · exact measures_all describes.cols small.2
  · cases rowDim <;> exact nofun

/-- A range where the number of rows is not known selects columns or rows. -/
theorem flat_span_fitting {first last : Int64} (describes : shape.Describes grid) (small : grid.Countable) :
    Checked Fault.Unforeseen (Fitting (.array ⟨.unknown, .unknown, shape.elem⟩))
      (Value.index (.matrix grid) [.span first last]) := by
  by_cases one : grid.rows = 1
  · exact index_single (if_pos one) (select_block describes small rfl (fun _ _ => nofun) fun _ _ => nofun)
  · exact index_single (if_neg one) (select_block describes small rfl (fun _ _ => nofun) fun _ _ => nofun)

end

/-- The selectors of a text: one, or a row that can only be the first and one. -/
inductive TextSelectors : List Selector → Prop where
  | single (index : Selector) : TextSelectors [index]
  | row (index : Selector) : TextSelectors [.point 0, index]

theorem textSelection_checked {selectors : List Selector} (fits : TextSelectors selectors) (length : Nat) :
    Checked Fault.Unforeseen (fun _ => True) (Value.textSelection selectors length) := by
  cases fits with
  | single index => exact Checked.orFault fun _ _ => trivial
  | row index =>
    simp only [Value.textSelection, if_true]
    exact Checked.orFault fun _ _ => trivial

theorem index_text {selectors : List Selector} (fits : TextSelectors selectors) (content : String) :
    Checked Fault.Unforeseen (Fitting .text) (Value.index (.text content) selectors) :=
  (textSelection_checked fits content.length).bind fun _ _ => Fitting.text _

theorem assignInto_text {selectors : List Selector} (fits : TextSelectors selectors) (content inserted : String) :
    Checked Fault.Unforeseen (Fitting .text) (Value.assignInto (.text content) selectors (.text inserted)) := by
  rw [Value.assignInto_text_eq]
  exact (textSelection_checked fits content.length).bind fun _ _ => Fitting.text _

theorem Fitting.assigned {type : StaticType} {grid result : Matrix} (fitting : Fitting type (.matrix grid))
    (rows : result.rows = grid.rows) (cols : result.cols = grid.cols)
    (integral : result.isIntegral = grid.isIntegral) : Fitting type (.matrix result) := by
  have small := fitting.countable grid rfl
  have countable : (Value.matrix result).Countable := by
    intro other same
    cases same
    unfold Matrix.Countable
    rw [rows, cols]
    exact small
  have known := fitting.conforms.described grid rfl
  exact ⟨.matrix fitting.conforms.tagged.arrayLike
    ⟨rows ▸ known.rows, cols ▸ known.cols, integral ▸ known.elem⟩, countable⟩

theorem assignInto_matrix {type : StaticType} {grid : Matrix} {selectors : List Selector} {replacement : Value}
    {part : Part} (fitting : Fitting type (.matrix grid)) (few : selectors.length = 1 ∨ selectors.length = 2)
    (written : replacement.part? = some part) :
    Checked Fault.Unforeseen (Fitting type) (Value.assignInto (.matrix grid) selectors replacement) := by
  have chosen : Checked Fault.Unforeseen (fun _ => True) (Value.matrixSelectors grid selectors) := by
    match selectors, few with
    | [_], _ => trivial
    | [_, _], _ => trivial
  rw [Value.assignInto_matrix_eq]
  refine chosen.bind fun pair _ => ?_
  simp only [written]
  refine (Checked.orFault fun result done => ?_).map
  obtain ⟨rows, cols, integral⟩ := Matrix.assign_eq_ok done
  exact fitting.assigned rows cols integral

theorem negate_fitting {type : StaticType} {value : Value} (fitting : Fitting type value)
    (number : type.tag ≠ .text ∧ type.tag ≠ .bool) : Checked Fault.Unforeseen (Fitting type) value.negate := by
  have matrix {grid : Matrix} (fitting : Fitting type (.matrix grid)) :
      Checked Fault.Unforeseen (Fitting type) (Value.matrix grid).negate := by
    have cells : Checked Fault.Unforeseen (fun result : Matrix => Fitting type (.matrix result))
        (grid.mapCells grid.isIntegral Value.negateElement) :=
      (Value.negateCells_computed grid).unforeseen.good fun result done => by
        obtain ⟨rows, cols, integral⟩ := Matrix.mapCells_eq_ok done
        exact fitting.assigned rows cols integral
    exact cells.map
  have tagged := fitting.conforms.tagged
  generalize same : type.tag = tag at tagged number
  cases tagged with
  | int value =>
    refine ((Value.orOverflow_computed _).unforeseen.mono fun result _ => ?_).map
    exact Fitting.scalar (same ▸ .int result) nofun
  | float value => exact Fitting.scalar (same ▸ .float _) nofun
  | text _ => exact absurd rfl number.1
  | bool _ => exact absurd rfl number.2
  | array _ | tainted _ => exact matrix fitting

theorem Shape.Describes.transpose {shape : Shape} {grid : Matrix} (describes : shape.Describes grid) :
    shape.transposed.Describes grid.transpose := by
  refine ⟨describes.cols, describes.rows, ?_⟩
  rw [Matrix.transpose_isIntegral]
  exact describes.elem

end MatrixScript
