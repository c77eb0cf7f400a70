import MatrixScript.Proofs.Grammar.Lawful
import MatrixScript.Proofs.Typing.Inversion
import MatrixScript.Proofs.Typing.Source
import MatrixScript.Proofs.Value.Literal

/-! Known shapes stay known.

A size is known from a literal and from nothing else, and an empty literal has no shape at all. Where every size that
is written is one, all is known of the type of every expression: the rule of a node never falls back on a type that is
not known when all is known of its operands, and no statement declares a name for anything else.
-/

set_option autoImplicit false

namespace MatrixScript

open Typing

section

variable (Size : Nat → Prop)

/-- A dimension that is known, and of which something is known to hold. -/
def Dim.Definite (dim : Dim) : Prop := ∃ size, dim = .known size ∧ Size size

structure Shape.Definite (shape : Shape) : Prop where
  rows : shape.rows.Definite Size
  cols : shape.cols.Definite Size
  elem : shape.elem ≠ .unknown

structure StaticType.Definite (type : StaticType) : Prop where
  clear : type.tag ≠ .unknown
  clean : type.tag ≠ .tainted
  shaped : type.tag = .array → type.shape.Definite Size

def StaticTypes.Definite (types : StaticTypes) : Prop :=
  ∀ id type, types.get? id = some type → type.Definite Size

end

namespace Tree

def literal? (tree : Tree) (id : ExprId) : Option Int64 :=
  match tree.kind? id with
  | some (.int value) => some value
  | _ => none

def bounds (tree : Tree) (id : ExprId) : List ExprId :=
  match tree.kind? id with
  | some (.range start stop) => [start, stop]
  | _ => []

end Tree

def ExprKind.WritesSizes (tree : Tree) (Size : Nat → Prop) : ExprKind → Prop
  | .array items => items ≠ []
  | .builtin _ arguments => ∀ argument ∈ arguments, ∃ value ∈ tree.literal? argument, Size value.toInt.toNat
  | .indexed _ indices => ∀ index ∈ indices, ∀ bound ∈ tree.bounds index, (tree.literal? bound).isSome
  | _ => True

/-- Every argument of a matrix function is an integer literal, every range that is an index has integer literals as its
bounds, and no array literal is empty. -/
def Tree.WritesSizes (tree : Tree) (Size : Nat → Prop) : Prop :=
  ∀ expr ∈ tree.exprs, expr.kind.WritesSizes tree Size

/-- What the checker knows sizes from: literals, which have no sign. A literal that has elements and a range that is
not empty have a size as well. -/
structure Tree.Sized (tree : Tree) (Size : Nat → Prop) : Prop where
  writes : tree.WritesSizes Size
  unsigned : ∀ id value, tree.kind? id = some (.int value) → 0 ≤ value.toInt
  positive : ∀ size, 0 < size → Size size

section

variable (tree : Tree) (Size : Nat → Prop) [DecidablePred Size]

instance : (kind : ExprKind) → Decidable (kind.WritesSizes tree Size)
  | .array items => inferInstanceAs (Decidable (items ≠ []))
  | .builtin _ arguments =>
    inferInstanceAs (Decidable (∀ argument ∈ arguments, ∃ value ∈ tree.literal? argument, Size value.toInt.toNat))
  | .indexed _ indices =>
    inferInstanceAs (Decidable (∀ index ∈ indices, ∀ bound ∈ tree.bounds index, (tree.literal? bound).isSome))
  | .int _ | .float _ | .text _ | .name _ | .linear _ _ _ | .elementwise _ _ _ | .compare _ _ _ | .negate _
  | .transpose _ | .range _ _ => .isTrue trivial

instance : Decidable (tree.WritesSizes Size) :=
  inferInstanceAs (Decidable (∀ expr ∈ tree.exprs, expr.kind.WritesSizes tree Size))

end

section

variable {tree : Tree} {Size : Nat → Prop}

theorem Tree.literal?_eq_some {id : ExprId} {value : Int64} (literal : tree.literal? id = some value) :
    tree.kind? id = some (.int value) := by
  unfold Tree.literal? at literal
  split at literal
  · next node =>
    cases literal
    exact node
  · cases literal

theorem Tree.WritesSizes.node (writes : tree.WritesSizes Size) {id : ExprId} {expr : Expr}
    (found : tree.expr? id = some expr) : expr.kind.WritesSizes tree Size :=
  writes expr (Array.mem_of_getElem? found)

theorem Tree.WritesSizes.bounds (writes : tree.WritesSizes Size) {id base start stop index : ExprId}
    {indices : List ExprId} (node : tree.kind? id = some (.indexed base indices)) (member : index ∈ indices)
    (range : tree.kind? index = some (.range start stop)) :
    ∃ first last, tree.kind? start = some (.int first) ∧ tree.kind? stop = some (.int last) := by
  obtain ⟨span, found⟩ := expr?_of_kind node
  have literal (bound : ExprId) (inside : bound ∈ [start, stop]) : ∃ value, tree.kind? bound = some (.int value) := by
    have bounds : tree.bounds index = [start, stop] := by
      unfold Tree.bounds
      rw [range]
    obtain ⟨value, literal⟩ := Option.isSome_iff_exists.mp (writes.node found index member bound (bounds ▸ inside))
    exact ⟨value, Tree.literal?_eq_some literal⟩
  obtain ⟨first, low⟩ := literal start (by simp)
  obtain ⟨last, high⟩ := literal stop (by simp)
  exact ⟨first, last, low, high⟩

end

section

variable {Size : Nat → Prop} {type : StaticType}

theorem StaticType.Definite.array (definite : type.Definite Size) (array : type.tag.isArrayLike) :
    type.tag = .array ∧ type.shape.Definite Size := by
  have array := (Tag.isArrayLike_iff.mp array).resolve_right definite.clean
  exact ⟨array, definite.shaped array⟩

theorem Shape.Definite.array {shape : Shape} (definite : shape.Definite Size) : (StaticType.array shape).Definite Size :=
  ⟨nofun, nofun, fun _ => definite⟩

theorem definite_of_tag {tag : Tag} (scalar : tag ≠ .array) (clean : tag ≠ .tainted) (clear : tag ≠ .unknown) :
    (StaticType.ofTag tag).Definite Size :=
  ⟨clear, clean, fun array => absurd array scalar⟩

theorem definite_of_elem {elem : ElemType} (clear : elem ≠ .unknown) : (StaticType.ofTag elem.tag).Definite Size := by
  cases elem with
  | unknown => exact absurd rfl clear
  | int | float => exact ⟨nofun, nofun, nofun⟩

end

namespace Typing

section

variable {Size : Nat → Prop} {s t : Shape}

theorem promote_clear {e f : ElemType} (first : e ≠ .unknown) (second : f ≠ .unknown) : e.promote f ≠ .unknown := by
  cases e <;> cases f <;> first | exact absurd rfl first | exact absurd rfl second | exact nofun

theorem productShape_definite (first : s.Definite Size) (second : t.Definite Size) :
    (productShape s t).2.Definite Size :=
  ⟨first.rows, second.cols, promote_clear first.elem second.elem⟩

theorem joinedDim_definite {c d : Dim} (first : c.Definite Size) (agree : c.conflicts d = false) :
    (joinedDim c d).Definite Size := by
  obtain ⟨size, rfl, fits⟩ := first
  refine ⟨size, ?_, fits⟩
  rw [joinedDim, agree]
  rfl

theorem cellwiseShape_definite (first : s.Definite Size) (second : t.Definite Size)
    (agree : (cellwiseShape s t).1 = false) : (cellwiseShape s t).2.Definite Size := by
  obtain ⟨rows, cols⟩ := Bool.or_eq_false_iff.mp agree
  exact ⟨joinedDim_definite first.rows rows, joinedDim_definite first.cols cols, promote_clear first.elem second.elem⟩

theorem linear_clear {op : Arith} {left right tag : Tag} (known : left ≠ .unknown) (known' : right ≠ .unknown)
    (verdict : Compatibility.linear op [.type left, .type right] = .type tag) : tag ≠ .tainted ∧ tag ≠ .unknown := by
  cases op <;> cases left <;> cases right <;>
    first | exact absurd rfl known | exact absurd rfl known' | cases verdict <;> exact ⟨nofun, nofun⟩

theorem stackedShape_elem {types : List StaticType} {cols cols' : Dim} {elem : Option ElemType} {elem' : ElemType}
    (stacked : stackedShape types cols elem = .ok (cols', elem')) (definite : ∀ type ∈ types, type.Definite Size)
    (before : ∀ known, elem = some known → known ≠ .unknown) (some : types ≠ [] ∨ elem ≠ none) :
    elem' ≠ .unknown := by
  induction types generalizing cols elem with
  | nil =>
    cases elem with
    | none => exact absurd rfl (some.resolve_left (absurd rfl))
    | some known =>
      cases stacked
      exact before known rfl
  | cons type rest ih =>
    have here := definite type List.mem_cons_self
    simp only [stackedShape, if_neg here.clear] at stacked
    split at stacked
    · next array =>
      split at stacked
      · cases stacked
      · have row := (here.array array).2.elem
        refine ih stacked (fun other member => definite other (List.mem_cons_of_mem _ member)) (fun known same => ?_)
          (.inr (Option.some_ne_none _))
        cases same
        cases elem with
        | none => exact row
        | some earlier => exact promote_clear (before earlier rfl) row
    · cases stacked

theorem literalType_definite {types : List StaticType} {type : StaticType} (literal : LiteralType types type)
    (some : types ≠ []) (definite : ∀ type ∈ types, type.Definite Size) (positive : ∀ size, 0 < size → Size size) :
    type.Definite Size := by
  have clear (type : StaticType) (member : type ∈ types) : type.tag ≠ .unknown := (definite type member).clear
  have count : Size types.length := positive _ (List.length_pos_iff.mpr some)
  cases literal with
  | empty nothing => exact absurd nothing some
  | stacked arrays stacked =>
    obtain ⟨first, member, array⟩ := List.any_eq_true.mp arrays
    obtain ⟨width, known, fits⟩ := ((definite first member).array array).2.cols
    -- one row of a known length tells how long all of them are
    refine Shape.Definite.array
      ⟨⟨_, rfl, count⟩, ⟨width, (stackedShape_cols stacked).2 first member array width known, fits⟩, ?_⟩
    exact stackedShape_elem stacked definite nofun (.inl some)
  | row _ row =>
    obtain ⟨tag, number, rfl, _⟩ := rowElem_numbers row some clear
    refine Shape.Definite.array ⟨⟨1, rfl, positive 1 Nat.one_pos⟩, ⟨_, rfl, count⟩, ?_⟩
    cases tag with
    | int | float => exact nofun
    | text | bool | range | array | tainted | unknown => cases number

theorem axisResult_definite {axis : Axis} {bound : Dim} {selection : Selection} {dim : Option Dim}
    (quiet : axisResult axis bound selection = ([], dim)) (fixed : selection ≠ .span none ∧ selection ≠ .invalid)
    (positive : ∀ size, 0 < size → Size size) : ∀ known, dim = some known → known.Definite Size := by
  rintro known rfl
  match selection, fixed with
  | .point (some _), _ => cases congrArg Prod.snd quiet
  | .point none, _ => cases congrArg Prod.snd quiet
  | .span none, fixed => exact absurd rfl fixed.1
  | .invalid, fixed => exact absurd rfl fixed.2
  | .span (some (start, stop)), _ =>
    simp only [axisResult] at quiet
    split at quiet
    · have problems := congrArg Prod.fst quiet
      simp at problems
    · cases congrArg Prod.snd quiet
      exact ⟨_, rfl, positive _ (by omega)⟩

theorem selectedType_definite {elem : ElemType} {rowDim colDim : Option Dim} (clear : elem ≠ .unknown)
    (one : Size 1) (down : ∀ known, rowDim = some known → known.Definite Size)
    (across : ∀ known, colDim = some known → known.Definite Size) : (selectedType elem rowDim colDim).Definite Size := by
  have size (dim : Option Dim) (definite : ∀ known, dim = some known → known.Definite Size) :
      (dim.getD (.known 1)).Definite Size := by
    cases dim with
    | none => exact ⟨1, rfl, one⟩
    | some known => exact definite known rfl
  unfold selectedType
  split
  · exact definite_of_elem clear
  · exact Shape.Definite.array ⟨size rowDim down, size colDim across, clear⟩

theorem flat_definite {shape : Shape} {selection : Selection} {type : StaticType} (flat : Flat shape selection type)
    (definite : shape.Definite Size) (fixed : selection ≠ .span none ∧ selection ≠ .invalid)
    (positive : ∀ size, 0 < size → Size size) : type.Definite Size := by
  have one := positive 1 Nat.one_pos
  obtain ⟨count, rows, _⟩ := definite.rows
  cases flat with
  | row _ quiet => exact selectedType_definite definite.elem one nofun (axisResult_definite quiet fixed positive)
  | rows _ _ quiet =>
    refine selectedType_definite definite.elem one (axisResult_definite quiet fixed positive) ?_
    rintro _ ⟨⟩
    exact definite.cols
  | span unknown _ | unclear unknown => cases rows.symm.trans unknown

end

section

variable {tree : Tree} {Size : Nat → Prop} {types : StaticTypes} {declared : Declarations ExprId} {id : ExprId}
  {kind : ExprKind} {span : Span} {type : StaticType}

theorem Indexes.fixed {selection : Selection} (indexes : Indexes tree types id selection)
    (bounds : ∀ start stop, tree.kind? id = some (.range start stop) →
      ∃ first last, tree.kind? start = some (.int first) ∧ tree.kind? stop = some (.int last)) :
    selection ≠ .span none ∧ selection ≠ .invalid := by
  cases indexes with
  | @span start stop _ node literal =>
    obtain ⟨first, last, written⟩ := bounds start stop node
    rw [(literal first last).mpr written]
    exact ⟨nofun, nofun⟩
  | point _ _ => exact ⟨nofun, nofun⟩

theorem indexedType_definite {base : ExprId} {indices : List ExprId}
    (indexed : IndexedType tree types base indices type) (definite : (known types base).Definite Size)
    (positive : ∀ size, 0 < size → Size size)
    (bounds : ∀ index ∈ indices, ∀ start stop, tree.kind? index = some (.range start stop) →
      ∃ first last, tree.kind? start = some (.int first) ∧ tree.kind? stop = some (.int last)) :
    type.Definite Size := by
  have one := positive 1 Nat.one_pos
  cases indexed with
  | text _ _ => exact definite_of_tag (by decide) (by decide) (by decide)
  | cell array two rows cols down across =>
    subst two
    exact selectedType_definite (definite.array array).2.elem one
      (axisResult_definite down (rows.fixed (bounds _ (by simp))) positive)
      (axisResult_definite across (cols.fixed (bounds _ (by simp))) positive)
  | flat array single index flat =>
    subst single
    exact flat_definite flat (definite.array array).2 (index.fixed (bounds _ (by simp))) positive
  | unclear unknown => exact absurd unknown definite.clear

theorem dimension_definite {function : Builtin} {line : Nat} {table : StaticTypes} {dim : Dim}
    (silence : Silent table declared (inferDimension tree (ask types) line function id) dim)
    (clear : (known types id).tag ≠ .unknown) {value : Int64} (node : tree.kind? id = some (.int value))
    (nonneg : 0 ≤ value.toInt) (fits : Size value.toInt.toNat) : dim.Definite Size :=
  ⟨_, (inferDimension_inversion silence clear).2.2 value node nonneg, fits⟩

/-- All is known of the type of a node when all is known of its operands, and of what names stand for. -/
theorem Judged.definite {expr : Expr} (judged : Judged tree types declared expr type)
    (found : tree.expr? id = some expr) (sized : tree.Sized Size)
    (operands : ∀ child ∈ expr.kind.operands, (known types child).Definite Size)
    (names : ∀ name producer, declared.lookup? name = some producer → (known types producer).Definite Size) :
    type.Definite Size := by
  have node : tree.kind? id = some expr.kind := by
    rw [Tree.kind?, found]
    rfl
  obtain ⟨writes, unsigned, positive⟩ := sized
  have written := writes.node found
  obtain ⟨kind, span⟩ := expr
  obtain ⟨table, silence⟩ := judged.silent
  cases kind with
  | int _ | float _ | text _ =>
    rw [silence.pure]
    exact definite_of_tag (by decide) (by decide) (by decide)
  | name name =>
    -- a name has the type of what it stands for, which is no operand of it
    obtain ⟨producer, found, rfl⟩ := judged.name_declared
    exact names name producer found
  | array items =>
    refine literalType_definite judged.array_inversion.1 (fun empty => written (List.map_eq_nil_iff.mp empty)) ?_ positive
    intro type typed
    obtain ⟨item, member, rfl⟩ := List.mem_map.mp typed
    exact operands item member
  | indexed base indices =>
    exact indexedType_definite judged.indexed_inversion.2 (operands base List.mem_cons_self) positive
      fun index member start stop range => writes.bounds node member range
  | linear left op right =>
    obtain ⟨result, verdict, _, rfl⟩ := judged.linear_inversion
    have first := operands left (by simp [ExprKind.operands])
    have second := operands right (by simp [ExprKind.operands])
    by_cases array : result = .array
    · subst array
      obtain ⟨_, arrayLeft, arrayRight⟩ := Value.linear_array verdict
      rw [if_pos rfl]
      exact (productShape_definite (first.array arrayLeft).2 (second.array arrayRight).2).array
    · obtain ⟨clean, clear⟩ := linear_clear first.clear second.clear verdict
      rw [if_neg array]
      exact definite_of_tag array clean clear
  | elementwise left op right =>
    obtain ⟨result, verdict, agree, rfl⟩ := judged.elementwise_inversion
    have first := operands left (by simp [ExprKind.operands])
    have second := operands right (by simp [ExprKind.operands])
    obtain ⟨rfl, arrayLeft, arrayRight⟩ :=
      Value.elementwise_arrays first.clear second.clear verdict
    rw [if_pos rfl]
    exact (cellwiseShape_definite (first.array arrayLeft).2 (second.array arrayRight).2 (agree rfl)).array
  | compare left op right =>
    obtain ⟨_, rfl⟩ := inferCompare_inversion silence
    exact definite_of_tag (by decide) (by decide) (by decide)
  | negate inner =>
    obtain ⟨rfl, _⟩ := judged.negate_inversion
    exact operands inner List.mem_cons_self
  | transpose inner =>
    have definite := operands inner List.mem_cons_self
    rcases judged.transpose_inversion with ⟨array, rfl⟩ | ⟨_, rfl⟩
    · obtain ⟨_, turned⟩ := definite.array array
      exact ⟨definite.clear, definite.clean, fun _ => ⟨turned.cols, turned.rows, turned.elem⟩⟩
    · exact definite
  | builtin function arguments =>
    obtain ⟨rowDim, colDim, rfl, dims⟩ := inferBuiltin_inversion silence
    have dimension {argument : ExprId} {dim : Dim} (member : argument ∈ arguments)
        (asked : Silent table declared (inferDimension tree (ask types) span.start.line function argument) dim) :
        dim.Definite Size := by
      obtain ⟨value, literal, fits⟩ := written argument member
      have node := Tree.literal?_eq_some literal
      exact dimension_definite asked (operands argument member).clear node (unsigned argument value node) fits
    have integral : ElemType.int ≠ .unknown := by decide
    cases dims with
    | square asked => exact Shape.Definite.array ⟨dimension (by simp) asked, dimension (by simp) asked, integral⟩
    | pair first second => exact Shape.Definite.array ⟨dimension (by simp) first, dimension (by simp) second, integral⟩
  | range start stop =>
    rw [judged.range_type]
    exact definite_of_tag (by decide) (by decide) (by decide)

end

end Typing

end MatrixScript
