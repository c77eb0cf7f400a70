import MatrixScript.Proofs.Typing.Definite
import MatrixScript.Proofs.Value.Selection

/-! What is known of shapes holds of matrices.

Where all is known of two shapes, the checker compares the numbers of rows and columns that the matrices have. So
operands in which it found no conflict are of one size, what is written into a part has the size of the part, and a
range that it let pass lies within the matrix.
-/

set_option autoImplicit false

namespace MatrixScript

open Typing

section

variable {Size : Nat → Prop} {c d : Dim} {m n : Nat}

theorem Dim.eq_of_agree (first : c.Definite Size) (second : d.Definite Size) (one : c.Admits m) (two : d.Admits n)
    (agree : c.conflicts d = false) : m = n := by
  obtain ⟨size, rfl, _⟩ := first
  obtain ⟨size', rfl, _⟩ := second
  rw [one size rfl, two size' rfl]
  simpa [Dim.conflicts] using agree

end

section

variable {Size : Nat → Prop} {type : StaticType} {shape : Shape} {grid : Matrix}

theorem StaticType.Definite.array_of_matrix (definite : type.Definite Size) (conforms : Conforms type (.matrix grid)) :
    type.tag = .array ∧ type.shape.Definite Size ∧ type.shape.Describes grid := by
  obtain ⟨array, known⟩ := definite.array conforms.tagged.arrayLike
  exact ⟨array, known, conforms.described grid rfl⟩

theorem Shape.Definite.rows_eq (definite : shape.Definite Size) (describes : shape.Describes grid) :
    shape.rows = .known grid.rows := by
  obtain ⟨down, known, _⟩ := definite.rows
  rw [known, describes.rows down known]

theorem Shape.Definite.cols_eq (definite : shape.Definite Size) (describes : shape.Describes grid) :
    shape.cols = .known grid.cols := by
  obtain ⟨across, known, _⟩ := definite.cols
  rw [known, describes.cols across known]

end

namespace Value

theorem shapeless_of_ordinary (fault : Fault) (ordinary : fault.Ordinary) : fault.Shapeless := ordinary.shapeless

section

variable {Size : Nat → Prop} {s t : Shape} {left right : Matrix} {op : Arith}
  (first : s.Describes left) (second : t.Describes right) (definite : s.Definite Size) (definite' : t.Definite Size)
include first second definite definite'

theorem product_shapeless (agree : (productShape s t).1 = false) :
    FailsIn Fault.Shapeless (orFault (Matrix.product left right)) := by
  have same : left.cols = right.rows := Dim.eq_of_agree definite.cols definite'.rows first.cols second.rows agree
  exact failsIn_of_computed shapeless_of_ordinary (product_computed same)

theorem combine_shapeless (agree : (cellwiseShape s t).1 = false) :
    FailsIn Fault.Shapeless (Matrix.combine op.symbol (elementArith op) left right) := by
  obtain ⟨down, across⟩ := Bool.or_eq_false_iff.mp agree
  have rows := Dim.eq_of_agree definite.rows definite'.rows first.rows second.rows down
  have cols := Dim.eq_of_agree definite.cols definite'.cols first.cols second.cols across
  exact failsIn_of_computed shapeless_of_ordinary (combine_computed ⟨rows, cols⟩)

end

section

variable {Size : Nat → Prop} {op : Arith} {a b : StaticType} {left right : Value} {tag : Tag}

theorem arithmetic_shapeless (first : Conforms a left)
    (verdict : Compatibility.numeric op [.type a.tag, .type b.tag] = .type tag) :
    FailsIn Fault.Shapeless (arithmetic op left right) := by
  refine arithmetic_failsIn shapeless_of_ordinary fun grid _ same _ => ?_
  subst same
  have tagged := first.tagged
  generalize a.tag = left at tagged verdict
  cases tagged <;> cases verdict

theorem linear_shapeless (first : Conforms a left) (second : Conforms b right) (definite : a.Definite Size)
    (definite' : b.Definite Size)
    (verdict : (Operator.linear op).verdict [.type a.tag, .type b.tag] = .type tag)
    (agree : tag = .array → (productShape a.shape b.shape).1 = false) :
    FailsIn Fault.Shapeless (linear op left right) := by
  refine linear_failsIn shapeless_of_ordinary (fun grid grid' mul same same' => ?_) fun grid grid' other same same' => ?_
  · subst mul same same'
    obtain ⟨array, known, describes⟩ := definite.array_of_matrix first
    obtain ⟨array', known', describes'⟩ := definite'.array_of_matrix second
    rw [array, array'] at verdict
    cases verdict
    exact product_shapeless describes describes' known known' (agree rfl)
  · -- the table has no other linear operator for two arrays
    subst same same'
    obtain ⟨array, _⟩ := definite.array_of_matrix first
    obtain ⟨array', _⟩ := definite'.array_of_matrix second
    rw [array, array'] at verdict
    cases op with
    | mul => exact absurd rfl other
    | add | sub | div => cases verdict

theorem elementwise_shapeless (first : Conforms a left) (second : Conforms b right) (definite : a.Definite Size)
    (definite' : b.Definite Size)
    (verdict : (Operator.elementwise op).verdict [.type a.tag, .type b.tag] = .type tag)
    (agree : tag = .array → (cellwiseShape a.shape b.shape).1 = false) :
    FailsIn Fault.Shapeless (arithmetic op left right) := by
  refine arithmetic_failsIn shapeless_of_ordinary fun grid grid' same same' => ?_
  subst same same'
  obtain ⟨array, known, describes⟩ := definite.array_of_matrix first
  obtain ⟨array', known', describes'⟩ := definite'.array_of_matrix second
  rw [array, array'] at verdict
  cases verdict
  exact combine_shapeless describes describes' known known' (agree rfl)

end

end Value

/-- A range lies within an axis. Where a point lies is not asked. -/
def Selector.RangeWithin (selector : Selector) (length : Nat) : Prop :=
  ∀ start stop, selector = .span start stop → ∃ range, selector.resolve length = .ok range

/-- A selector along an axis of a known length, and what is known of its size: an index that the checker let pass, the
only row, or all columns. -/
inductive Selector.Along (length : Nat) : Selector → Option Dim → Prop where
  | checked {axis : Axis} {selection : Selection} {selector : Selector} {dim : Option Dim} :
      Selection.Matches selection selector → axisResult axis (.known length) selection = ([], dim) →
        selection ≠ .span none → Along length selector dim
  | first : Along length (.point 0) none
  | all : (length : Int) ≤ Integer.greatest → Along length (.span 0 (Int64.ofNat length)) (some (.known length))

theorem toInt_sub_of_nonneg {a b : Int64} (first : 0 ≤ a.toInt) (second : 0 ≤ b.toInt) :
    (a - b).toInt = a.toInt - b.toInt := by
  have high := a.toInt_lt
  have high' := b.toInt_lt
  rw [Int64.toInt_sub]
  exact Int.bmod_eq_of_le (by omega) (by omega)

theorem Selector.resolve_span {start stop : Int64} {length : Nat} (low : 0 ≤ start.toInt)
    (ordered : start.toInt ≤ stop.toInt) (high : stop.toInt ≤ length) :
    (Selector.span start stop).resolve length = .ok (start.toInt.toNat, stop.toInt.toNat) := by
  dsimp only [resolve]
  rw [if_neg (by omega), if_neg (by omega), if_neg (by omega)]

/-- A range of literals in which no problem was found lies within an axis of the length that is known. -/
theorem axisResult_resolves {axis : Axis} {length : Nat} {start stop : Int64} {dim : Option Dim}
    (quiet : axisResult axis (.known length) (.span (some (start, stop))) = ([], dim)) :
    ∃ range, (Selector.span start stop).resolve length = .ok range := by
  simp only [axisResult] at quiet
  split at quiet
  · have problems := congrArg Prod.fst quiet
    simp at problems
  · next some =>
    have inside : spanOutside start stop (.known length) = false := by
      have problems := congrArg Prod.fst quiet
      simpa using problems
    obtain ⟨⟨low, low'⟩, high⟩ : (0 ≤ start.toInt ∧ 0 ≤ stop.toInt) ∧ stop.toInt ≤ length := by
      simpa [spanOutside] using inside
    -- the size was computed in words, but both bounds are known to have no sign by now
    rw [toInt_sub_of_nonneg low' low] at some
    exact ⟨_, Selector.resolve_span low (by omega) high⟩

namespace Selector.Along

variable {length : Nat} {selector : Selector} {dim : Option Dim}

theorem measures (along : selector.Along length dim) : selector.Measures length dim := by
  cases along with
  | checked matched quiet _ => exact axisResult_measures matched quiet length
  | first => exact measures_point 0 length
  | all small => exact measures_all (Dim.admits_known length) small

theorem within (along : selector.Along length dim) : selector.RangeWithin length := by
  rintro start stop rfl
  cases along with
  | checked matched quiet fixed =>
    cases matched with
    | @span known _ _ literal =>
      cases known with
      | none => exact absurd rfl fixed
      | some bounds =>
        obtain ⟨first, last⟩ := bounds
        obtain ⟨rfl, rfl⟩ := literal first last rfl
        exact axisResult_resolves quiet
  | all small =>
    have counted := toInt_ofNat_of_counted small
    have zero : (0 : Int64).toInt = 0 := Int64.toInt_zero
    exact ⟨_, resolve_span (by omega) (by omega) (by omega)⟩

end Selector.Along

section

variable {Size : Nat → Prop} {grid : Matrix} {rows cols : Selector} {part : Part}

theorem scalar_assigned (element : Element) :
    FailsIn Fault.Shapeless (Value.orFault (grid.assign rows cols (.scalar element))) :=
  Value.assign_failsIn Value.shapeless_of_ordinary fun _ _ => .ok _

/-- A value that may be written into a part has one cell, or as many rows and columns as the part. -/
theorem part_assigned {elem : ElemType} {rowDim colDim : Option Dim} {base type : StaticType} {replacement : Value}
    (writes : Writes .plain base (selectedType elem rowDim colDim) type)
    (definite : (selectedType elem rowDim colDim).Definite Size) (definite' : type.Definite Size)
    (conforms : Conforms type replacement) (written : replacement.part? = some part)
    (down : rows.Measures grid.rows rowDim) (across : cols.Measures grid.cols colDim) :
    FailsIn Fault.Shapeless (Value.orFault (grid.assign rows cols part)) := by
  cases replacement with
  | int _ | float _ =>
    cases written
    exact scalar_assigned _
  | text _ | bool _ => cases written
  | matrix matrix =>
    cases written
    obtain ⟨array, known, describes⟩ := definite'.array_of_matrix conforms
    refine Value.assign_failsIn Value.shapeless_of_ordinary fun block chosen => ?_
    obtain ⟨height, width⟩ := Matrix.block_eq_ok chosen
    by_cases cell : rowDim.isNone && colDim.isNone
    · -- a single cell takes no array
      have selected : selectedType elem rowDim colDim = .ofTag elem.tag := if_pos cell
      rw [selected] at writes definite
      have verdict := writes.verdict
      rw [array] at verdict
      cases elem with
      | int | float => cases verdict
      | unknown => exact absurd rfl definite.clear
    · have selected : selectedType elem rowDim colDim =
          .array ⟨rowDim.getD (.known 1), colDim.getD (.known 1), elem⟩ := if_neg cell
      rw [selected] at writes definite
      obtain ⟨first, second⟩ := Bool.or_eq_false_iff.mp (writes.agree ⟨rfl, rfl⟩)
      have whole := definite.shaped rfl
      have sameRows := Dim.eq_of_agree whole.rows known.rows (down.size _ height) describes.rows first
      have sameCols := Dim.eq_of_agree whole.cols known.cols (across.size _ width) describes.cols second
      dsimp only [Matrix.fits]
      rw [if_pos ⟨sameRows.symm, sameCols.symm⟩]
      exact .ok _

end

end MatrixScript
