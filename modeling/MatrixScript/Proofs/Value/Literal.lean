import MatrixScript.Proofs.Value.Conformance

/-! The elements of array literals: numbers of one type in a row, or rows of one length. -/

set_option autoImplicit false

namespace MatrixScript

open Typing

section

variable {types : List StaticType} {elem : ElemType}

theorem rowElem_same {first : Tag} (row : rowElem types (some first) false = .ok elem)
    (clear : ∀ type ∈ types, type.tag ≠ .unknown) : elem = .ofTag first ∧ ∀ type ∈ types, type.tag = first := by
  induction types with
  | nil =>
    cases row
    exact ⟨rfl, fun _ member => nomatch member⟩
  | cons type rest ih =>
    simp only [rowElem, if_neg (clear type List.mem_cons_self)] at row
    split at row
    · split at row
      · next same =>
        obtain ⟨result, all⟩ := ih row fun other member => clear other (List.mem_cons_of_mem _ member)
        refine ⟨result, fun other member => ?_⟩
        rcases List.mem_cons.mp member with rfl | member
        · exact same.symm
        · exact all other member
      · cases row
    · cases row

theorem rowElem_numbers (row : rowElem types none false = .ok elem) (nonempty : types ≠ [])
    (clear : ∀ type ∈ types, type.tag ≠ .unknown) :
    ∃ tag : Tag, tag.isNumber ∧ elem = .ofTag tag ∧ ∀ type ∈ types, type.tag = tag := by
  cases types with
  | nil => exact absurd rfl nonempty
  | cons type rest =>
    simp only [rowElem, if_neg (clear type List.mem_cons_self)] at row
    split at row
    · next number =>
      obtain ⟨result, all⟩ := rowElem_same row fun other member => clear other (List.mem_cons_of_mem _ member)
      refine ⟨type.tag, number, result, fun other member => ?_⟩
      rcases List.mem_cons.mp member with rfl | member
      · rfl
      · exact all other member
    · cases row

theorem rowElem_unclear {first : Option Tag} {unclear : Bool} (row : rowElem types first unclear = .ok elem)
    (some : unclear ∨ ∃ type ∈ types, type.tag = .unknown) : elem = .unknown := by
  induction types generalizing first unclear with
  | nil =>
    obtain unclear | ⟨_, member, _⟩ := some
    · cases first with
      | none => exact (Except.ok.inj row).symm
      | some _ =>
        simp only [rowElem, unclear] at row
        exact (Except.ok.inj row).symm
    · cases member
  | cons type rest ih =>
    have later (known : type.tag ≠ .unknown) : unclear ∨ ∃ type ∈ rest, type.tag = .unknown := by
      obtain unclear | ⟨other, member, unknown⟩ := some
      · exact .inl unclear
      · rcases List.mem_cons.mp member with rfl | member
        · exact absurd unknown known
        · exact .inr ⟨other, member, unknown⟩
    simp only [rowElem] at row
    split at row
    · exact ih row (.inl rfl)
    · next known =>
      split at row
      · split at row
        · exact ih row (later known)
        · split at row
          · exact ih row (later known)
          · cases row
      · cases row

theorem rowElem_scalars {first : Option Tag} {unclear : Bool} (row : rowElem types first unclear = .ok elem) :
    ∀ type ∈ types, type.tag = .unknown ∨ type.tag.isNumber := by
  induction types generalizing first unclear with
  | nil => exact fun _ member => nomatch member
  | cons type rest ih =>
    simp only [rowElem] at row
    split at row
    · next unknown => exact List.forall_mem_cons.mpr ⟨.inl unknown, ih row⟩
    · split at row
      · next number =>
        split at row
        · exact List.forall_mem_cons.mpr ⟨.inr number, ih row⟩
        · split at row
          · exact List.forall_mem_cons.mpr ⟨.inr number, ih row⟩
          · cases row
      · cases row

theorem elements_of_numbers {values : List Value} (conforming : List.Forall₂ Conforms types values) {tag : Tag}
    (number : tag.isNumber) (all : ∀ type ∈ types, type.tag = tag) :
    ∃ row, values.mapM Value.element? = some row ∧ row.length = types.length ∧
      ∀ element ∈ row, element.isInt = decide (tag = .int) := by
  induction conforming with
  | nil => exact ⟨[], rfl, rfl, fun _ member => nomatch member⟩
  | @cons type value types values first _ ih =>
    obtain ⟨row, elements, length, kinds⟩ := ih fun other member => all other (List.mem_cons_of_mem _ member)
    have same := all type List.mem_cons_self
    have element : ∃ element, value.element? = some element ∧ element.isInt = decide (tag = .int) := by
      have tagged := first.tagged
      rw [same] at tagged
      cases tagged with
      | int value => exact ⟨.int value, rfl, rfl⟩
      | float value => exact ⟨.float value, rfl, rfl⟩
      | text _ | bool _ | array _ | tainted _ => cases number
    obtain ⟨element, known, kind⟩ := element
    refine ⟨element :: row, ?_, congrArg Nat.succ length, ?_⟩
    · rw [List.mapM_cons, known, elements]
      rfl
    · intro other member
      rcases List.mem_cons.mp member with rfl | member
      · exact kind
      · exact kinds other member

theorem tags_known {values : List Value} (fitting : List.Forall₂ Fitting types values) :
    ∀ type ∈ types, type.tag ≠ .unknown := by
  induction fitting with
  | nil => exact fun _ member => nomatch member
  | cons first _ ih =>
    intro type member
    rcases List.mem_cons.mp member with rfl | member
    · exact first.conforms.tag_ne_unknown
    · exact ih type member

theorem all_isInt {row : List Element} {integral : Bool} (nonempty : row ≠ [])
    (kinds : ∀ element ∈ row, element.isInt = integral) : row.all Element.isInt = integral := by
  cases row with
  | nil => exact absurd rfl nonempty
  | cons element rest =>
    have first := kinds element List.mem_cons_self
    rw [List.all_cons, first]
    cases integral with
    | false => rfl
    | true =>
      rw [Bool.true_and, List.all_eq_true]
      exact fun other member => kinds other (List.mem_cons_of_mem _ member)

theorem row_describes {elements : List Element} {result : Matrix}
    (done : Matrix.ofRows (elements.all Element.isInt) [elements] = .ok result)
    (kind : elem.Admits (elements.all Element.isInt)) :
    Shape.Describes ⟨.known 1, .known elements.length, elem⟩ result := by
  obtain ⟨rows, cols, integral⟩ := Matrix.ofRows_eq_ok done
  have width : elements.length = result.cols := cols elements List.mem_cons_self
  exact ⟨rows ▸ Dim.admits_known 1, width ▸ Dim.admits_known _, integral ▸ kind⟩

/-- Values of which the types are known to be numbers are stored as the types say. -/
theorem row_admits {values : List Value} (conforming : List.Forall₂ Conforms types values)
    (row : rowElem types none false = .ok elem) (nonempty : types ≠ [])
    (clear : ∀ type ∈ types, type.tag ≠ .unknown) :
    ∃ elements, values.mapM Value.element? = some elements ∧ elements.length = types.length ∧
      elem.Admits (elements.all Element.isInt) := by
  obtain ⟨tag, number, rfl, all⟩ := rowElem_numbers row nonempty clear
  obtain ⟨elements, known, length, kinds⟩ := elements_of_numbers conforming number all
  have some : elements ≠ [] := by
    rintro rfl
    exact nonempty (List.length_eq_zero_iff.mp length.symm)
  refine ⟨elements, known, length, ?_⟩
  rw [all_isInt some kinds]
  cases tag with
  | int => exact ⟨fun _ => rfl, nofun⟩
  | float => exact ⟨nofun, fun _ => rfl⟩
  | text | bool | range | array | tainted | unknown => cases number

theorem row_fitting {values : List Value} (fitting : List.Forall₂ Fitting types values)
    (row : rowElem types none false = .ok elem) (nonempty : types ≠ [])
    (small : (types.length : Int) ≤ Integer.greatest) :
    ∃ elements, values.mapM Value.element? = some elements ∧
      Checked Fault.Unforeseen (fun matrix => Fitting (.array ⟨.known 1, .known types.length, elem⟩) (.matrix matrix))
        (Value.orFault (Matrix.ofRows (elements.all Element.isInt) [elements])) := by
  obtain ⟨elements, known, length, kind⟩ :=
    row_admits (fitting.imp fun _ _ first => first.conforms) row nonempty (tags_known fitting)
  refine ⟨elements, known, Checked.orFault fun matrix done => ?_⟩
  have describes := row_describes done kind
  rw [length] at describes
  refine .array describes ⟨?_, ?_⟩
  · rw [describes.rows 1 rfl]
    decide
  · rw [describes.cols _ rfl]
    exact small

end

theorem stackedShape_arrays {types : List StaticType} {cols cols' : Dim} {elem : Option ElemType} {elem' : ElemType}
    (stacked : stackedShape types cols elem = .ok (cols', elem')) :
    ∀ type ∈ types, type.tag = .unknown ∨ type.tag.isArrayLike := by
  induction types generalizing cols elem with
  | nil => exact fun _ member => nomatch member
  | cons type rest ih =>
    simp only [stackedShape] at stacked
    split at stacked
    · next unknown => exact List.forall_mem_cons.mpr ⟨.inl unknown, ih stacked⟩
    · split at stacked
      · next array =>
        split at stacked
        · cases stacked
        · exact List.forall_mem_cons.mpr ⟨.inr array, ih stacked⟩
      · cases stacked

/-- Rows of known lengths are stacked only when they are equally long. -/
theorem stackedShape_cols {types : List StaticType} {cols cols' : Dim} {elem : Option ElemType} {elem' : ElemType}
    (stacked : stackedShape types cols elem = .ok (cols', elem')) :
    (∀ size, cols = .known size → cols' = .known size) ∧
      ∀ type ∈ types, type.tag.isArrayLike → ∀ size, type.shape.cols = .known size → cols' = .known size := by
  induction types generalizing cols elem with
  | nil =>
    cases stacked
    exact ⟨fun _ same => same, fun _ member => nomatch member⟩
  | cons type rest ih =>
    simp only [stackedShape] at stacked
    split at stacked
    · next unknown =>
      obtain ⟨before, after⟩ := ih stacked
      refine ⟨before, fun other member array => ?_⟩
      rcases List.mem_cons.mp member with rfl | member
      · rw [unknown] at array
        cases array
      · exact after other member array
    · split at stacked
      · split at stacked
        · cases stacked
        · next agree =>
          obtain ⟨before, after⟩ := ih stacked
          -- a number of columns that is known before this row is not given up for what the row has
          have joined (size : Nat) (known : type.shape.cols = .known size) : cols.or type.shape.cols = .known size := by
            cases cols with
            | unknown => exact known
            | known width =>
              rw [known] at agree ⊢
              simpa [Dim.conflicts, Dim.or] using agree
          refine ⟨fun size known => before size (by rw [known]; rfl), fun other member array size known => ?_⟩
          rcases List.mem_cons.mp member with rfl | member
          · exact before size (joined size known)
          · exact after other member array size known
      · cases stacked

theorem matrices_of_arrays {types : List StaticType} {values : List Value} (fitting : List.Forall₂ Fitting types values)
    (arrays : ∀ type ∈ types, type.tag.isArrayLike) :
    ∃ matrices, values = matrices.map .matrix ∧
      List.Forall₂ (fun type matrix => type.shape.Describes matrix ∧ matrix.Countable) types matrices := by
  induction fitting with
  | nil => exact ⟨[], rfl, .nil⟩
  | @cons type value types values first _ ih =>
    obtain ⟨matrices, rfl, known⟩ := ih fun other member => arrays other (List.mem_cons_of_mem _ member)
    obtain ⟨matrix, rfl, describes⟩ := Value.matrix_of_arrayLike first (arrays type List.mem_cons_self)
    exact ⟨matrix :: matrices, rfl, .cons describes known⟩

/-- The columns and the storage of stacked rows are those that the rows have. -/
theorem stackedShape_admits {types : List StaticType} {matrices : List Matrix} {cols cols' : Dim}
    {elem : Option ElemType} {elem' : ElemType} {width : Nat} {integral : Bool}
    (stacked : stackedShape types cols elem = .ok (cols', elem'))
    (describes : List.Forall₂ (fun type matrix => type.tag.isArrayLike → type.shape.Describes matrix) types matrices)
    (even : ∀ matrix ∈ matrices, matrix.cols = width) (colsKnown : cols.Admits width)
    (elemKnown : ∀ known, elem = some known → known.Admits integral) (start : elem = none → integral = true) :
    cols'.Admits width ∧ elem'.Admits (integral && matrices.all Matrix.isIntegral) := by
  induction describes generalizing cols elem integral with
  | nil =>
    cases stacked
    refine ⟨colsKnown, ?_⟩
    rw [List.all_nil, Bool.and_true]
    cases elem with
    | none => exact ⟨nofun, nofun⟩
    | some known => exact elemKnown known rfl
  | @cons type matrix types matrices first _ ih =>
    have rest : ∀ other ∈ matrices, other.cols = width := fun other member => even other (List.mem_cons_of_mem _ member)
    rw [List.all_cons, ← Bool.and_assoc]
    simp only [stackedShape] at stacked
    split at stacked
    · refine ih stacked rest colsKnown (fun known joined => ?_) nofun
      cases joined
      exact ⟨nofun, nofun⟩
    · split at stacked
      · next array =>
        have first := first array
        split at stacked
        · cases stacked
        · have wide : matrix.cols = width := even matrix List.mem_cons_self
          have colsJoined : (cols.or type.shape.cols).Admits width := by
            cases cols with
            | known _ => exact colsKnown
            | unknown => exact wide ▸ first.cols
          refine ih stacked rest colsJoined (fun known joined => ?_) nofun
          cases joined
          cases elem with
          | none =>
            rw [start rfl, Bool.true_and]
            exact first.elem
          | some elem => exact Value.promote_admits (elemKnown elem rfl) first.elem
      · cases stacked

theorem stacked_describes {types : List StaticType} {matrices : List Matrix} {cols : Dim} {elem : ElemType}
    {result : Matrix} (stacked : stackedShape types .unknown none = .ok (cols, elem))
    (describes : List.Forall₂ (fun type matrix => type.tag.isArrayLike → type.shape.Describes matrix) types matrices)
    (done : Matrix.ofRows (matrices.all Matrix.isIntegral) (matrices.map fun matrix => matrix.row 0) = .ok result) :
    Shape.Describes ⟨.known types.length, cols, elem⟩ result ∧ ∀ matrix ∈ matrices, matrix.cols = result.cols := by
  obtain ⟨rows, even, integral⟩ := Matrix.ofRows_eq_ok done
  have even (matrix : Matrix) (member : matrix ∈ matrices) : matrix.cols = result.cols := by
    have length := even _ (List.mem_map_of_mem member)
    rw [← length, Matrix.row, List.length_map, List.length_range]
  obtain ⟨width, kind⟩ := stackedShape_admits stacked describes even nofun nofun fun _ => rfl
  have count : types.length = result.rows := by rw [rows, List.length_map, describes.length_eq]
  exact ⟨⟨count ▸ Dim.admits_known _, width, integral ▸ kind⟩, even⟩

theorem stacked_fitting {types : List StaticType} {matrices : List Matrix} {cols : Dim} {elem : ElemType}
    (stacked : stackedShape types .unknown none = .ok (cols, elem))
    (describes : List.Forall₂ (fun type matrix => type.shape.Describes matrix ∧ matrix.Countable) types matrices)
    (nonempty : types ≠ []) (small : (types.length : Int) ≤ Integer.greatest) :
    Checked Fault.Unforeseen (fun matrix => Fitting (.array ⟨.known types.length, cols, elem⟩) (.matrix matrix))
      (Value.orFault (Matrix.ofRows (matrices.all Matrix.isIntegral) (matrices.map fun matrix => matrix.row 0))) := by
  refine Checked.orFault fun result done => ?_
  obtain ⟨shape, even⟩ := stacked_describes stacked (describes.imp fun _ _ known _ => known.1) done
  refine .array shape ⟨?_, ?_⟩
  · rw [shape.rows _ rfl]
    exact small
  · cases describes with
    | nil => exact absurd rfl nonempty
    | cons first _ =>
      rw [← even _ List.mem_cons_self]
      exact first.2.2

end MatrixScript
