import MatrixScript.Typing.Finding

/-! The shapes of array literals. -/

set_option autoImplicit false

namespace MatrixScript.Typing

/-- The element type of a row of scalars, which have to be numbers of one type. `first` is the type of the
numbers so far and `unclear` is set once an unknown one was met. -/
def rowElem : List StaticType → Option Tag → Bool → Except Problem ElemType
  | [], first, unclear =>
    match first with
    | some tag => .ok (if unclear then .unknown else .ofTag tag)
    | none => .ok .unknown
  | type :: rest, first, unclear =>
    let tag := type.tag
    if tag = .unknown then
      rowElem rest first true
    else if tag.isNumber then
      match first with
      | none => rowElem rest (some tag) unclear
      | some known => if known = tag then rowElem rest first unclear else .error (.mixedTypes known tag)
    else
      .error (.notNumber tag)

/-- The number of columns and the element type of stacked rows, given those of the rows so far. -/
def stackedShape : List StaticType → Dim → Option ElemType → Except Problem (Dim × ElemType)
  | [], cols, elem => .ok (cols, elem.getD .unknown)
  | type :: rest, cols, elem =>
    if type.tag = .unknown then
      stackedShape rest cols (some .unknown)
    else if type.tag.isArrayLike then
      let row := type.shape
      if cols.conflicts row.cols then
        .error (.mixedShapes cols row.cols)
      else
        let joined := match elem with
          | some elem => elem.promote row.elem
          | none => row.elem
        stackedShape rest (cols.or row.cols) (some joined)
    else
      .error (.mixedTypes .array type.tag)

def multiRow (type : StaticType) : Bool :=
  match type.shape.rows with
  | .known rows => 1 < rows
  | .unknown => false

end MatrixScript.Typing
