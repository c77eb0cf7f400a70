import MatrixScript.Proofs.Value.Faults
import MatrixScript.Proofs.Value.Shape
import MatrixScript.Typing.Expression

/-! Values conform to static types, and the operators keep it so.

A shape says as much about a matrix as is known about it. What the types do not tell, such as a divisor or a size
that is not a literal, can still stop an operation.
-/

set_option autoImplicit false

namespace MatrixScript

/-- The faults that static types do not exclude. -/
def Fault.Unforeseen : Fault → Prop
  | .divisionByZero | .integerOverflow | .sizeOverflow _ | .outOfBounds _ _ | .shapeMismatch _ | .output _ => True
  | .invalidIndex (.reversed _ _) => True
  | _ => False

/-- A dimension is that of a size, as far as it is known. -/
def Dim.Admits (dim : Dim) (size : Nat) : Prop := ∀ known, dim = .known known → size = known

theorem Dim.admits_known (size : Nat) : (Dim.known size).Admits size := by
  intro other same
  cases same
  rfl

def ElemType.Admits (elem : ElemType) (integral : Bool) : Prop :=
  (elem = .int → integral = true) ∧ (elem = .float → integral = false)

structure Shape.Describes (shape : Shape) (matrix : Matrix) : Prop where
  rows : shape.rows.Admits matrix.rows
  cols : shape.cols.Admits matrix.cols
  elem : shape.elem.Admits matrix.isIntegral

inductive Value.Tagged : Value → Tag → Prop where
  | int (value : Int64) : Tagged (.int value) .int
  | float (value : Float) : Tagged (.float value) .float
  | text (value : String) : Tagged (.text value) .text
  | bool (value : Bool) : Tagged (.bool value) .bool
  | array (matrix : Matrix) : Tagged (.matrix matrix) .array
  | tainted (matrix : Matrix) : Tagged (.matrix matrix) .tainted

/-- A value is one of a static type: of its tag and, if it is a matrix, of its shape. -/
structure Conforms (type : StaticType) (value : Value) : Prop where
  tagged : value.Tagged type.tag
  described : ∀ matrix, value = .matrix matrix → type.shape.Describes matrix

def Matrix.Countable (matrix : Matrix) : Prop :=
  (matrix.rows : Int) ≤ Integer.greatest ∧ (matrix.cols : Int) ≤ Integer.greatest

def Value.Countable (value : Value) : Prop := ∀ matrix, value = .matrix matrix → matrix.Countable

/-- A value of a static type as it occurs in a run. -/
structure Fitting (type : StaticType) (value : Value) : Prop where
  conforms : Conforms type value
  countable : value.Countable

theorem Value.Tagged.ne_unknown {value : Value} {tag : Tag} (tagged : value.Tagged tag) : tag ≠ .unknown := by
  cases tagged <;> exact nofun

theorem Value.Tagged.matrix_of_arrayLike {value : Value} {tag : Tag} (tagged : value.Tagged tag)
    (array : tag.isArrayLike) : ∃ matrix, value = .matrix matrix := by
  cases tagged with
  | array matrix | tainted matrix => exact ⟨matrix, rfl⟩
  | int _ | float _ | text _ | bool _ => cases array

theorem Value.Tagged.arrayLike {matrix : Matrix} {tag : Tag} (tagged : (Value.matrix matrix).Tagged tag) :
    tag.isArrayLike := by
  cases tagged <;> rfl

namespace Conforms

variable {type : StaticType} {value : Value}

theorem tag_ne_unknown (conforms : Conforms type value) : type.tag ≠ .unknown := conforms.tagged.ne_unknown

theorem matrix_of_arrayLike (conforms : Conforms type value) (array : type.tag.isArrayLike) :
    ∃ matrix, value = .matrix matrix ∧ type.shape.Describes matrix := by
  obtain ⟨matrix, rfl⟩ := conforms.tagged.matrix_of_arrayLike array
  exact ⟨matrix, rfl, conforms.described matrix rfl⟩

theorem matrix {matrix : Matrix} (array : type.tag.isArrayLike) (describes : type.shape.Describes matrix) :
    Conforms type (.matrix matrix) := by
  refine ⟨?_, fun other same => ?_⟩
  · rcases Tag.isArrayLike_iff.mp array with tag | tag
    · exact tag ▸ .array matrix
    · exact tag ▸ .tainted matrix
  · cases same
    exact describes

theorem array {shape : Shape} {matrix : Matrix} (describes : shape.Describes matrix) :
    Conforms (.array shape) (.matrix matrix) := .matrix rfl describes

end Conforms

namespace Fitting

theorem scalar {type : StaticType} {value : Value} (tagged : value.Tagged type.tag)
    (scalar : ∀ matrix, value ≠ .matrix matrix) : Fitting type value :=
  ⟨⟨tagged, fun matrix same => absurd same (scalar matrix)⟩, fun matrix same => absurd same (scalar matrix)⟩

theorem retag {type other : StaticType} {value : Value} (fitting : Fitting type value)
    (scalar : type.tag.isArrayLike = false) (same : other.tag = type.tag) : Fitting other value := by
  refine .scalar (same ▸ fitting.conforms.tagged) fun matrix equal => ?_
  subst equal
  rw [fitting.conforms.tagged.arrayLike] at scalar
  cases scalar

theorem int (value : Int64) : Fitting .int (.int value) := .scalar (.int value) nofun

theorem float (value : Float) : Fitting .float (.float value) := .scalar (.float value) nofun

theorem text (value : String) : Fitting .text (.text value) := .scalar (.text value) nofun

theorem bool (value : Bool) : Fitting .bool (.bool value) := .scalar (.bool value) nofun

theorem matrix {type : StaticType} {matrix : Matrix} (array : type.tag.isArrayLike)
    (describes : type.shape.Describes matrix) (countable : matrix.Countable) : Fitting type (.matrix matrix) := by
  refine ⟨.matrix array describes, fun other same => ?_⟩
  cases same
  exact countable

theorem array {shape : Shape} {matrix : Matrix} (describes : shape.Describes matrix) (countable : matrix.Countable) :
    Fitting (.array shape) (.matrix matrix) := .matrix rfl describes countable

end Fitting

section

variable {α : Type} {Good : α → Prop}

theorem MatrixFault.unforeseen (fault : MatrixFault) : fault.toFault.Unforeseen := by
  cases fault <;> trivial

theorem Checked.orFault {outcome : Except MatrixFault α} (good : ∀ value, outcome = .ok value → Good value) :
    Checked Fault.Unforeseen Good (Value.orFault outcome) := by
  cases outcome with
  | ok value => exact good value rfl
  | error fault => exact fault.unforeseen

theorem Fault.Computed.unforeseen {fault : Fault} (computed : fault.Computed) : fault.Unforeseen := by
  cases fault <;> trivial

theorem FailsIn.unforeseen {outcome : Except Fault α} (computed : FailsIn Fault.Computed outcome) :
    FailsIn Fault.Unforeseen outcome :=
  Checked.widen computed fun _ => Fault.Computed.unforeseen

end

namespace Value

theorem combine_checked (op : Arith) (left right : Matrix) :
    Checked Fault.Unforeseen
      (fun result => (result.rows = left.rows ∧ result.rows = right.rows) ∧
        (result.cols = left.cols ∧ result.cols = right.cols) ∧
        result.isIntegral = (left.isIntegral && right.isIntegral))
      (Matrix.combine op.symbol (elementArith op) left right) := by
  unfold Matrix.combine
  split
  · next same =>
    refine Checked.bind (FailsIn.mapM fun pair => (elementArith_computed _ _ _).unforeseen) fun elements _ => ?_
    exact ⟨⟨rfl, same.1⟩, ⟨rfl, same.2⟩, Cells.isIntegral_collect _ _⟩
  · trivial

section

variable {op : Arith} {s t tag : Tag} {left right : Value}

/-- Numbers and texts combine to what the table of operators says. -/
theorem arithmetic_fitting (first : left.Tagged s) (second : right.Tagged t)
    (verdict : Compatibility.numeric op [.type s, .type t] = .type tag) :
    Checked Fault.Unforeseen (Fitting (.ofTag tag)) (arithmetic op left right) := by
  cases first with
  | int m =>
    cases second with
    | int n =>
      cases verdict
      exact ((intArith_computed op m n).unforeseen.mono fun result _ => Fitting.int result).map
    | float y =>
      cases verdict
      exact ((floatArith_computed op _ y).unforeseen.mono fun result _ => Fitting.float result).map
    | text t =>
      cases op with
      | mul =>
        cases verdict
        exact ((repeated_computed t m).unforeseen.mono fun result _ => Fitting.text result).map
      | add | sub | div => cases verdict
    | bool _ | array _ | tainted _ => cases verdict
  | float x =>
    cases second with
    | int n =>
      cases verdict
      exact ((floatArith_computed op x _).unforeseen.mono fun result _ => Fitting.float result).map
    | float y =>
      cases verdict
      exact ((floatArith_computed op x y).unforeseen.mono fun result _ => Fitting.float result).map
    | text _ | bool _ | array _ | tainted _ => cases verdict
  | text s =>
    cases second with
    | text t =>
      cases op with
      | add =>
        cases verdict
        exact Fitting.text _
      | sub | mul | div => cases verdict
    | int n =>
      cases op with
      | mul =>
        cases verdict
        exact ((repeated_computed s n).unforeseen.mono fun result _ => Fitting.text result).map
      | add | sub | div => cases verdict
    | float _ | bool _ | array _ | tainted _ => cases verdict
  | bool _ | array _ | tainted _ => cases verdict

theorem linear_fitting (first : left.Tagged s) (second : right.Tagged t)
    (verdict : Compatibility.linear op [.type s, .type t] = .type tag) (scalar : tag ≠ .array) :
    Checked Fault.Unforeseen (Fitting (.ofTag tag)) (linear op left right) := by
  cases first with
  | int m =>
    have same : linear op (.int m) right = arithmetic op (.int m) right := by cases op <;> rfl
    rw [same]
    exact arithmetic_fitting (.int m) second verdict
  | float x =>
    have same : linear op (.float x) right = arithmetic op (.float x) right := by cases op <;> rfl
    rw [same]
    exact arithmetic_fitting (.float x) second verdict
  | text s =>
    have same : linear op (.text s) right = arithmetic op (.text s) right := by cases op <;> rfl
    rw [same]
    exact arithmetic_fitting (.text s) second verdict
  | bool _ => cases second <;> cases verdict
  | array _ | tainted _ =>
    cases op with
    | mul =>
      cases second with
      | array _ | tainted _ =>
        cases verdict
        exact absurd rfl scalar
      | int _ | float _ | text _ | bool _ => cases verdict
    | add | sub | div => cases second <;> cases verdict

theorem compare_fitting {op : Compare} (first : left.Tagged s) (second : right.Tagged t)
    (verdict : Compatibility.compare [.type s, .type t] ≠ .unsupported) :
    Checked Fault.Unforeseen (Fitting .bool) (compare op left right) := by
  cases first with
  | int _ | float _ =>
    cases second with
    | int _ | float _ => exact Fitting.bool _
    | text _ | bool _ | array _ | tainted _ => exact absurd rfl verdict
  | text _ =>
    cases second with
    | text _ => exact Fitting.bool _
    | int _ | float _ | bool _ | array _ | tainted _ => exact absurd rfl verdict
  | bool _ | array _ | tainted _ => cases second <;> exact absurd rfl verdict

end

section

variable {s t : Shape} {left right : Matrix}

theorem promote_admits {e f : ElemType} {p q : Bool} (first : e.Admits p) (second : f.Admits q) :
    (e.promote f).Admits (p && q) := by
  cases e <;> cases f <;> simp_all [ElemType.Admits, ElemType.promote]

theorem joinedDim_admits {c d : Dim} {size : Nat} (first : c.Admits size) (second : d.Admits size) :
    (Typing.joinedDim c d).Admits size := by
  unfold Typing.joinedDim
  split
  · exact nofun
  · cases c with
    | known _ => exact first
    | unknown => exact second

theorem product_fitting (first : s.Describes left) (second : t.Describes right) (small : left.Countable)
    (small' : right.Countable) :
    Checked Fault.Unforeseen (Fitting (.array (Typing.productShape s t).2))
      (linear .mul (.matrix left) (.matrix right)) := by
  simp only [linear]
  split
  · next result done =>
    obtain ⟨rows, cols, integral⟩ := Matrix.product_eq_ok done
    refine Fitting.array ⟨?_, ?_, ?_⟩ ⟨?_, ?_⟩
    · rw [rows]
      exact first.rows
    · rw [cols]
      exact second.cols
    · rw [integral]
      exact promote_admits first.elem second.elem
    · rw [rows]
      exact small.1
    · rw [cols]
      exact small'.2
  · next fault _ => exact fault.unforeseen

theorem cellwise_fitting {op : Arith} (first : s.Describes left) (second : t.Describes right)
    (small : left.Countable) :
    Checked Fault.Unforeseen (Fitting (.array (Typing.cellwiseShape s t).2))
      (arithmetic op (.matrix left) (.matrix right)) := by
  refine ((combine_checked op left right).mono fun result known => ?_).map
  obtain ⟨⟨rows, rows'⟩, ⟨cols, cols'⟩, integral⟩ := known
  refine Fitting.array ⟨?_, ?_, ?_⟩ ⟨?_, ?_⟩
  · exact joinedDim_admits (rows ▸ first.rows) (rows' ▸ second.rows)
  · exact joinedDim_admits (cols ▸ first.cols) (cols' ▸ second.cols)
  · rw [integral]
    exact promote_admits first.elem second.elem
  · rw [rows]
    exact small.1
  · rw [cols]
    exact small.2

end

section

variable {op : Arith} {a b : StaticType} {left right : Value} {tag : Tag}

theorem matrix_of_arrayLike {type : StaticType} {value : Value} (fitting : Fitting type value)
    (array : type.tag.isArrayLike) :
    ∃ matrix, value = .matrix matrix ∧ type.shape.Describes matrix ∧ matrix.Countable := by
  obtain ⟨matrix, rfl, describes⟩ := fitting.conforms.matrix_of_arrayLike array
  exact ⟨matrix, rfl, describes, fitting.countable matrix rfl⟩

theorem linear_array {left right : Tag} (verdict : Compatibility.linear op [.type left, .type right] = .type .array) :
    op = .mul ∧ left.isArrayLike ∧ right.isArrayLike := by
  cases op <;> cases left <;> cases right <;> first | exact ⟨rfl, rfl, rfl⟩ | cases verdict

theorem elementwise_arrays {left right : Tag} (known : left ≠ .unknown) (known' : right ≠ .unknown)
    (verdict : Compatibility.elementwise [.type left, .type right] = .type tag) :
    tag = .array ∧ left.isArrayLike ∧ right.isArrayLike := by
  cases left <;> cases right <;>
    first | exact absurd rfl known | exact absurd rfl known' | cases verdict <;> exact ⟨rfl, rfl, rfl⟩

/-- A linear operator gives what its rule says, the shape of a product included. -/
theorem linear_typed (first : Fitting a left) (second : Fitting b right)
    (verdict : (Operator.linear op).verdict [.type a.tag, .type b.tag] = .type tag) :
    Checked Fault.Unforeseen
      (Fitting (if tag = .array then .array (Typing.productShape a.shape b.shape).2 else .ofTag tag))
      (linear op left right) := by
  by_cases array : tag = .array
  · subst array
    rw [if_pos rfl]
    obtain ⟨rfl, arrayLeft, arrayRight⟩ := linear_array verdict
    obtain ⟨matrix, rfl, describes, small⟩ := matrix_of_arrayLike first arrayLeft
    obtain ⟨matrix', rfl, describes', small'⟩ := matrix_of_arrayLike second arrayRight
    exact product_fitting describes describes' small small'
  · rw [if_neg array]
    exact linear_fitting first.conforms.tagged second.conforms.tagged verdict array

theorem elementwise_typed (first : Fitting a left) (second : Fitting b right)
    (verdict : (Operator.elementwise op).verdict [.type a.tag, .type b.tag] = .type tag) :
    Checked Fault.Unforeseen
      (Fitting (if tag = .array then .array (Typing.cellwiseShape a.shape b.shape).2 else .ofTag tag))
      (arithmetic op left right) := by
  obtain ⟨rfl, arrayLeft, arrayRight⟩ :=
    elementwise_arrays first.conforms.tag_ne_unknown second.conforms.tag_ne_unknown verdict
  rw [if_pos rfl]
  obtain ⟨matrix, rfl, describes, small⟩ := matrix_of_arrayLike first arrayLeft
  obtain ⟨matrix', rfl, describes', _⟩ := matrix_of_arrayLike second arrayRight
  exact cellwise_fitting describes describes' small

end

end Value

end MatrixScript
