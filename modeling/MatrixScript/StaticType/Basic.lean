/-! What is known about an expression before the program runs.

A static type has a tag and, if it is that of an array, a shape: the checker keeps to this, the data does not enforce
it. Dimensions and element types may be unknown, and so may the tag. An array is tainted when something about it has
already been reported.
-/

set_option autoImplicit false

namespace MatrixScript

inductive Tag where
  | int | float | text | bool | range | array | tainted | unknown
  deriving DecidableEq, Repr

namespace Tag

def label : Tag → String
  | int => "Int"
  | float => "Float"
  | text => "String"
  | bool => "Bool"
  | range => "Range"
  | array => "Array"
  | tainted => "TaintedArray"
  | unknown => "Unknown"

def all : List Tag := [int, float, text, bool, range, array, tainted, unknown]

/-- The name of the tag in messages, where tainted arrays are arrays. -/
def display : Tag → String
  | int => "int"
  | float => "float"
  | text => "string"
  | bool => "bool"
  | range => "range"
  | array => "array"
  | tainted => "array"
  | unknown => "unknown"

def isArrayLike (tag : Tag) : Bool := tag = array || tag = tainted

def isNumber (tag : Tag) : Bool := tag = int || tag = float

theorem isArrayLike_iff {tag : Tag} : tag.isArrayLike ↔ tag = array ∨ tag = tainted := by
  simp [isArrayLike]

end Tag

inductive Dim where
  | known (size : Nat)
  | unknown
  deriving DecidableEq, Repr

namespace Dim

def known? : Dim → Option Nat
  | known size => some size
  | unknown => none

def conflicts : Dim → Dim → Bool
  | known a, known b => a != b
  | _, _ => false

def or : Dim → Dim → Dim
  | known size, _ => known size
  | unknown, other => other

def display : Dim → String
  | known size => toString size
  | unknown => "?"

end Dim

inductive ElemType where
  | int | float | unknown
  deriving DecidableEq, Repr

namespace ElemType

def all : List ElemType := [int, float, unknown]

def ofTag : Tag → ElemType
  | .int => int
  | .float => float
  | _ => unknown

def tag : ElemType → Tag
  | int => .int
  | float => .float
  | unknown => .unknown

def promote : ElemType → ElemType → ElemType
  | int, int => int
  | unknown, _ => unknown
  | _, unknown => unknown
  | _, _ => float

end ElemType

structure Shape where
  rows : Dim
  cols : Dim
  elem : ElemType
  deriving DecidableEq, Repr

namespace Shape

def unknown : Shape := ⟨.unknown, .unknown, .unknown⟩

def transposed (shape : Shape) : Shape := ⟨shape.cols, shape.rows, shape.elem⟩

def display (shape : Shape) : String := shape.rows.display ++ "x" ++ shape.cols.display

end Shape

/-- A tag with or without a shape. The data leaves open which tags have shapes. -/
structure StaticType where
  tag : Tag
  shape? : Option Shape
  deriving DecidableEq, Repr

namespace StaticType

/-- The shape, which is unknown where there is none. -/
def shape (type : StaticType) : Shape := type.shape?.getD .unknown

/-- The static type of a tag; a shape is used by arrays only. -/
def ofTagWith (shape : Shape) (tag : Tag) : StaticType := ⟨tag, if tag.isArrayLike then some shape else none⟩

def ofTag (tag : Tag) : StaticType := ofTagWith .unknown tag

abbrev int : StaticType := ofTag .int

abbrev float : StaticType := ofTag .float

abbrev text : StaticType := ofTag .text

abbrev bool : StaticType := ofTag .bool

abbrev range : StaticType := ofTag .range

abbrev unknown : StaticType := ofTag .unknown

def array (shape : Shape) : StaticType := ⟨.array, some shape⟩

def tainted (shape : Shape) : StaticType := ⟨.tainted, some shape⟩

@[simp] theorem tag_ofTag (tag : Tag) : (ofTag tag).tag = tag := rfl

@[simp] theorem tag_array (shape : Shape) : (array shape).tag = .array := rfl

@[simp] theorem shape_array (shape : Shape) : (array shape).shape = shape := rfl

end StaticType

end MatrixScript
