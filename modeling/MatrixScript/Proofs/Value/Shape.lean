import MatrixScript.Evaluation.Expression
import MatrixScript.Matrix.Product
import MatrixScript.Proofs.Value.Writing

/-! The numbers of rows and columns and the storage of the matrices that operations give. -/

set_option autoImplicit false

namespace MatrixScript

@[simp] theorem Cells.isIntegral_collect (integral : Bool) (elements : List Element) :
    (Cells.collect integral elements).isIntegral = integral := by
  cases integral <;> rfl

@[simp] theorem Cells.isIntegral_gather (cells : Cells) (count : Nat) (position : Nat → Nat) :
    (cells.gather count position).isIntegral = cells.isIntegral := by
  cases cells <;> rfl

@[simp] theorem Cells.isIntegral_set (cells : Cells) (position : Nat) (element : Element) :
    (cells.set position element).isIntegral = cells.isIntegral := by
  cases cells <;> rfl

@[simp] theorem Cells.isInt_get (cells : Cells) (position : Nat) : (cells.get position).isInt = cells.isIntegral := by
  cases cells <;> rfl

theorem Except.bind_eq_ok {ε α β : Type} {outcome : Except ε α} {next : α → Except ε β} {result : β}
    (done : outcome >>= next = .ok result) : ∃ value, outcome = .ok value ∧ next value = .ok result := by
  cases outcome with
  | ok value => exact ⟨value, rfl, done⟩
  | error fault => cases done

namespace Matrix

theorem build_eq_ok {function : Builtin} {rows cols : Nat} {result : Matrix}
    (done : Evaluation.build function rows cols = .ok result) :
    result.rows = rows ∧ result.cols = cols ∧ result.isIntegral = true := by
  cases function with
  | eye | zeros | ones =>
    obtain ⟨_, _, done⟩ := Except.bind_eq_ok done
    cases done
    exact ⟨rfl, rfl, rfl⟩

theorem ofRows_eq_ok {integral : Bool} {rows : List (List Element)} {result : Matrix}
    (done : ofRows integral rows = .ok result) :
    result.rows = rows.length ∧ (∀ row ∈ rows, row.length = result.cols) ∧ result.isIntegral = integral := by
  unfold ofRows at done
  simp only at done
  split at done
  · cases done
  · next even =>
    cases done
    refine ⟨rfl, fun row member => ?_, Cells.isIntegral_collect _ _⟩
    have same := List.find?_eq_none.mp even row member
    simpa using same

theorem transpose_isIntegral (matrix : Matrix) : matrix.transpose.isIntegral = matrix.isIntegral := by
  unfold isIntegral transpose
  rw [Cells.isIntegral_gather]

theorem mapCells_eq_ok {ε : Type} {matrix result : Matrix} {integral : Bool} {f : Element → Except ε Element}
    (done : matrix.mapCells integral f = .ok result) :
    result.rows = matrix.rows ∧ result.cols = matrix.cols ∧ result.isIntegral = integral := by
  obtain ⟨elements, _, done⟩ := Except.bind_eq_ok done
  cases done
  exact ⟨rfl, rfl, Cells.isIntegral_collect _ _⟩

theorem product_eq_ok {left right result : Matrix} (done : product left right = .ok result) :
    result.rows = left.rows ∧ result.cols = right.cols ∧
      result.isIntegral = (left.isIntegral && right.isIntegral) := by
  unfold product at done
  split at done
  · obtain ⟨_, _, done⟩ := Except.bind_eq_ok done
    obtain ⟨rows, cols, cells⟩ := left
    obtain ⟨rows', cols', cells'⟩ := right
    simp only at done
    split at done
    · split at done
      · cases done
        exact ⟨rfl, rfl, rfl⟩
      · cases done
    · next kinds =>
      cases done
      refine ⟨rfl, rfl, ?_⟩
      cases cells with
      | ints a =>
        cases cells' with
        | ints b => exact absurd rfl (kinds a b rfl)
        | floats b => rfl
      | floats a => rfl
  · cases done

end Matrix

/-- A selector takes so many positions of an axis. -/
def Selector.Takes (selector : Selector) (length size : Nat) : Prop :=
  ∃ first last, selector.resolve length = .ok (first, last) ∧ size = last - first

namespace Selector.Takes

theorem point {index : Int64} {length size : Nat} (takes : (point index).Takes length size) :
    size = 1 ∧ 0 ≤ index.toInt ∧ index.toInt < length := by
  obtain ⟨first, last, resolved, rfl⟩ := takes
  simp only [resolve] at resolved
  split at resolved
  · next inside =>
    cases resolved
    exact ⟨by omega, inside⟩
  · cases resolved

theorem span {start stop : Int64} {length size : Nat} (takes : (span start stop).Takes length size) :
    (size : Int) = stop.toInt - start.toInt ∧ 0 ≤ start.toInt ∧ stop.toInt ≤ length := by
  obtain ⟨first, last, resolved, rfl⟩ := takes
  simp only [resolve] at resolved
  split at resolved
  · cases resolved
  · split at resolved
    · cases resolved
    · split at resolved
      · cases resolved
      · cases resolved
        omega

theorem le {selector : Selector} {length size : Nat} (takes : selector.Takes length size) : size ≤ length := by
  cases selector with
  | point index =>
    have known := takes.point
    omega
  | span start stop =>
    have known := takes.span
    omega

end Selector.Takes

namespace Matrix

theorem block_eq_ok {matrix : Matrix} {rows cols : Selector} {block : Block}
    (done : matrix.block rows cols = .ok block) :
    rows.Takes matrix.rows block.height ∧ cols.Takes matrix.cols block.width := by
  obtain ⟨⟨first, last⟩, down, done⟩ := Except.bind_eq_ok done
  obtain ⟨⟨first', last'⟩, across, done⟩ := Except.bind_eq_ok done
  cases done
  exact ⟨⟨first, last, down, rfl⟩, ⟨first', last', across, rfl⟩⟩

/-- Two points select a cell, and everything else a matrix of the selected size. -/
theorem select_eq_ok {matrix : Matrix} {rows cols : Selector} {part : Part}
    (done : matrix.select rows cols = .ok part) :
    if rows.isPoint && cols.isPoint then ∃ element, part = .scalar element ∧ element.isInt = matrix.isIntegral
    else ∃ result, part = .matrix result ∧ rows.Takes matrix.rows result.rows ∧ cols.Takes matrix.cols result.cols ∧
      result.isIntegral = matrix.isIntegral := by
  obtain ⟨block, chosen, done⟩ := Except.bind_eq_ok done
  obtain ⟨down, across⟩ := block_eq_ok chosen
  split
  · next points =>
    rw [if_pos points] at done
    cases done
    exact ⟨_, rfl, Cells.isInt_get _ _⟩
  · next other =>
    rw [if_neg other] at done
    cases done
    exact ⟨_, rfl, down, across, Cells.isIntegral_gather _ _ _⟩

theorem isIntegral_foldl_set (cells : Cells) (positions : List Nat) (place : Nat → Nat) (element : Nat → Element) :
    (positions.foldl (fun cells i => cells.set (place i) (element i)) cells).isIntegral = cells.isIntegral := by
  induction positions generalizing cells with
  | nil => rfl
  | cons position rest ih => rw [List.foldl_cons, ih, Cells.isIntegral_set]

theorem assign_eq_ok {matrix result : Matrix} {rows cols : Selector} {part : Part}
    (done : matrix.assign rows cols part = .ok result) :
    result.rows = matrix.rows ∧ result.cols = matrix.cols ∧ result.isIntegral = matrix.isIntegral := by
  rw [assign_eq] at done
  obtain ⟨block, _, done⟩ := Except.bind_eq_ok done
  obtain ⟨_, _, done⟩ := Except.bind_eq_ok done
  cases done
  exact ⟨rfl, rfl, isIntegral_foldl_set _ _ _ _⟩

end Matrix

end MatrixScript
