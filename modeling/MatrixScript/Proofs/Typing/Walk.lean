import MatrixScript.Proofs.Typing.Moves

/-! Walking through everything that the checker does.

What the elementary moves have and a sequence inherits from its parts, all of the checker has. Signals outside of loops
are reported by the statements themselves, so these reports are left out here.
-/

set_option autoImplicit false

namespace MatrixScript

def Problem.isStray : Problem → Bool
  | .strayBreak | .strayContinue => true
  | _ => false

namespace Typing

/-- The moves have a property, and sequences inherit it. -/
structure Closed (P : ∀ {α : Type}, Check α → Prop) : Prop where
  pure : ∀ {α : Type} (value : α), P (Pure.pure value : Check α)
  bind : ∀ {α β : Type} {action : Check α} {next : α → Check β}, P action → (∀ value, P (next value)) →
    P (action >>= next)
  get : P (MonadState.get : Check Checker)
  declared? : ∀ name, P (Check.declared? name)
  declare : ∀ name producer, P (Check.declare name producer)
  report : ∀ line {problem : Problem}, problem.isStray = false → P (Check.report line problem)

namespace Closed

variable {α β : Type} {P : ∀ {α : Type}, Check α → Prop} (closed : Closed P)
include closed

theorem reported (line : Nat) {problem : Problem} (other : problem.isStray = false) (value : α) :
    P (do Check.report line problem; return value) :=
  closed.bind (closed.report line other) fun _ => closed.pure value

theorem mapM {action : α → Check β} (each : ∀ item, P (action item)) (items : List α) : P (items.mapM action) := by
  induction items with
  | nil => exact closed.pure _
  | cons item rest ih =>
    rw [List.mapM_cons]
    exact closed.bind (each item) fun value => closed.bind ih fun values => closed.pure _

theorem forM {action : α → Check PUnit} {items : List α} (each : ∀ item ∈ items, P (action item)) :
    P (items.forM action) := by
  induction items with
  | nil => exact closed.pure _
  | cons item rest ih =>
    have first := each item List.mem_cons_self
    exact closed.bind first fun _ => ih fun other member => each other (List.mem_cons_of_mem _ member)

end Closed

section

variable {problem : Problem}

theorem rowElem_signalless {types : List StaticType} {first : Option Tag} {unclear : Bool}
    (failed : rowElem types first unclear = .error problem) : problem.isStray = false := by
  fun_induction rowElem types first unclear with
  | case1 | case2 => cases failed
  | case3 | case4 | case5 => simp_all
  | case6 | case7 =>
    cases failed
    rfl

theorem stackedShape_signalless {types : List StaticType} {cols : Dim} {elem : Option ElemType}
    (failed : stackedShape types cols elem = .error problem) : problem.isStray = false := by
  fun_induction stackedShape types cols elem with
  | case1 => cases failed
  | case2 | case4 => simp_all
  | case3 | case5 =>
    cases failed
    rfl

theorem axisResult_signalless {axis : Axis} {bound : Dim} {selection : Selection}
    (found : problem ∈ (axisResult axis bound selection).1) : problem.isStray = false := by
  unfold axisResult at found
  grind [Problem.isStray]

end

section

variable {P : ∀ {α : Type}, Check α → Prop} (closed : Closed P) (line : Nat)
include closed

theorem selectAxis_walk (axis : Axis) (bound : Dim) (selection : Selection) :
    P (selectAxis line axis bound selection) :=
  closed.bind (closed.forM fun _ member => closed.report line (axisResult_signalless member)) fun _ => closed.pure _

theorem inferCell_walk (shape : Shape) (rows cols : Selection) : P (inferCell line shape rows cols) := by
  refine closed.bind (selectAxis_walk closed line _ _ _) fun rowSize => ?_
  refine closed.bind (selectAxis_walk closed line _ _ _) fun colSize => ?_
  split
  · exact closed.pure _
  · exact closed.pure _

theorem inferFlat_walk (shape : Shape) (index : Selection) : P (inferFlat line shape index) := by
  unfold inferFlat
  split
  · refine closed.bind (selectAxis_walk closed line _ _ _) fun size => ?_
    cases size with
    | none => exact closed.pure _
    | some cols => exact closed.pure _
  · refine closed.bind (selectAxis_walk closed line _ _ _) fun size => ?_
    cases size with
    | none => exact closed.pure _
    | some rows => exact closed.pure _
  · cases index with
    | span bounds => exact closed.pure _
    | point _ | invalid => exact closed.pure _

end

section

variable {P : ∀ {α : Type}, Check α → Prop} (closed : Closed P) {tree : Tree} {child : ExprId → Check StaticType}
variable (each : ∀ id, P (child id)) (line : Nat)
include closed each

theorem checkIndex_walk (id : ExprId) : P (checkIndex tree child line id) := by
  refine closed.bind (each id) fun type => ?_
  split
  · split
    · exact closed.pure _
    · exact closed.pure _
  · exact closed.pure _
  · exact closed.pure _
  · exact closed.pure _
  · exact closed.reported line rfl _

theorem inferIndexed_walk (base : ExprId) (indices : List ExprId) :
    P (inferIndexed tree child line base indices) := by
  refine closed.bind (each base) fun type => ?_
  refine closed.bind (closed.mapM (checkIndex_walk closed each line) indices) fun selections => ?_
  split
  · split
    · exact closed.pure _
    · exact closed.reported line rfl _
  · exact closed.pure _
  · split
    · exact inferCell_walk closed line _ _ _
    · exact inferFlat_walk closed line _ _
    · exact closed.reported line rfl _
  · split
    · exact inferCell_walk closed line _ _ _
    · exact inferFlat_walk closed line _ _
    · exact closed.reported line rfl _
  · exact closed.reported line rfl _

theorem inferArith_walk (operator : Operator) (join : Shape → Shape → Bool × Shape) (left right : ExprId) :
    P (inferArith child line operator join left right) := by
  refine closed.bind (each left) fun a => closed.bind (each right) fun b => ?_
  split
  · dsimp only
    split
    · exact closed.reported line rfl _
    · exact closed.pure _
  · exact closed.pure _
  · exact closed.reported line rfl _

theorem inferCompare_walk (op : Compare) (left right : ExprId) : P (inferCompare child line op left right) := by
  refine closed.bind (each left) fun a => closed.bind (each right) fun b => ?_
  split
  · exact closed.reported line rfl _
  · exact closed.pure _

theorem inferArray_walk (items : List ExprId) : P (inferArray tree child line items) := by
  refine closed.bind (closed.mapM each items) fun types => ?_
  split
  · exact closed.pure _
  · split
    · refine closed.bind closed.get fun checker => ?_
      dsimp only
      split
      · exact closed.reported line rfl _
      · split
        · exact closed.pure _
        · next failed => exact closed.reported line (stackedShape_signalless failed) _
    · split
      · exact closed.pure _
      · next failed => exact closed.reported line (rowElem_signalless failed) _

theorem inferDimension_walk (function : Builtin) (id : ExprId) : P (inferDimension tree child line function id) := by
  refine closed.bind (each id) fun type => ?_
  split
  · exact closed.pure _
  · exact closed.pure _
  · exact closed.pure _
  · exact closed.reported line rfl _

theorem inferBuiltin_walk (function : Builtin) (arguments : List ExprId) :
    P (inferBuiltin tree child line function arguments) := by
  unfold inferBuiltin
  split
  · exact closed.bind (inferDimension_walk closed each line function _) fun _ => closed.pure _
  · refine closed.bind (inferDimension_walk closed each line function _) fun _ => ?_
    exact closed.bind (inferDimension_walk closed each line function _) fun _ => closed.pure _
  · exact closed.bind (closed.mapM each arguments) fun _ => closed.reported line rfl _

theorem checkBound_walk (bound : Bound) (id : ExprId) : P (checkBound child line bound id) := by
  refine closed.bind (each id) fun type => ?_
  dsimp only
  split
  · exact closed.pure _
  · exact closed.report line rfl

omit line in
theorem infer_walk (expr : Expr) : P (infer tree child expr) := by
  obtain ⟨kind, span⟩ := expr
  cases kind with
  | int _ | float _ | text _ => exact closed.pure _
  | name name =>
    refine closed.bind (closed.declared? name) fun found => ?_
    cases found with
    | some producer => exact each producer
    | none => exact closed.reported _ rfl _
  | array items => exact inferArray_walk closed each _ items
  | indexed base indices => exact inferIndexed_walk closed each _ base indices
  | linear left op right => exact inferArith_walk closed each _ (.linear op) productShape left right
  | elementwise left op right => exact inferArith_walk closed each _ (.elementwise op) cellwiseShape left right
  | compare left op right => exact inferCompare_walk closed each _ op left right
  | negate operand =>
    refine closed.bind (each operand) fun type => ?_
    cases type.tag with
    | int | float | unknown | array | tainted => exact closed.pure _
    | text | bool | range => exact closed.reported _ rfl _
  | transpose operand =>
    refine closed.bind (each operand) fun type => ?_
    cases type.tag with
    | array | tainted | unknown => exact closed.pure _
    | int | float | text | bool | range => exact closed.reported _ rfl _
  | builtin function arguments => exact inferBuiltin_walk closed each _ function arguments
  | range start stop =>
    refine closed.bind (checkBound_walk closed each _ .start start) fun _ => ?_
    exact closed.bind (checkBound_walk closed each _ .stop stop) fun _ => closed.pure _

end

section

variable {P : ∀ {α : Type}, Check α → Prop} (closed : Closed P) {tree : Tree} (typed : ∀ id, P (typeOf tree id))
variable (line : Nat)
include closed typed

theorem checkCondition_walk (condition : ExprId) : P (checkCondition tree condition) := by
  refine closed.bind (typed condition) fun type => ?_
  dsimp only
  split
  · exact closed.pure _
  · exact closed.report _ rfl

theorem assignName_walk (name : String) (op : Assign) (value : ExprId) (valueTag : Tag) :
    P (assignName tree line name op value valueTag) := by
  cases op with
  | plain =>
    unfold assignName
    dsimp only
    split
    · exact closed.declare name value
    · exact closed.declare name value
    · exact closed.report line rfl
  | compound arith =>
    refine closed.bind (closed.declared? name) fun found => ?_
    cases found with
    | none => exact closed.report line rfl
    | some producer =>
      refine closed.bind (typed producer) fun type => ?_
      dsimp only
      split
      · split
        · exact closed.declare name value
        · exact closed.pure _
      · exact closed.pure _
      · exact closed.report line rfl

theorem assignIndexed_walk (target base : ExprId) (op : Assign) (value : ExprId) (valueTag : Tag) :
    P (assignIndexed tree line target base op value valueTag) := by
  unfold assignIndexed
  split
  · exact closed.report line rfl
  · refine closed.bind (typed target) fun targetType => closed.bind (typed base) fun baseType => ?_
    have dimensions : P (do
        let valueShape := (← typeOf tree value).shape
        let targetShape := targetType.shape
        if targetShape.rows.conflicts valueShape.rows || targetShape.cols.conflicts valueShape.cols then
          Check.report line .assignedDimensions) := by
      refine closed.bind (typed value) fun valueType => ?_
      dsimp only
      split
      · exact closed.report line rfl
      · exact closed.pure _
    split
    · exact closed.report line rfl
    · split
      · split
        · exact dimensions
        · exact closed.pure _
      · split
        · exact dimensions
        · exact closed.pure _
      · exact closed.report line rfl
      · exact closed.report line rfl
      · exact closed.report line rfl

theorem checkAssignment_walk (target : ExprId) (op : Assign) (value : ExprId) :
    P (checkAssignment tree line target op value) := by
  refine closed.bind (typed value) fun valueType => ?_
  dsimp only
  split
  · exact assignName_walk closed typed line _ op value _
  · exact assignIndexed_walk closed typed line target _ op value _
  · refine closed.bind (typed target) fun targetType => ?_
    split
    · exact closed.report line rfl
    · exact closed.pure _

omit typed in
theorem declareCounter_walk (name : String) (range : ExprId) : P (declareCounter tree line name range) := by
  refine closed.bind (closed.declared? name) fun found => ?_
  cases found with
  | some _ => exact closed.report line rfl
  | none =>
    dsimp only
    split
    · exact closed.declare name _
    · exact closed.pure _

end

end Typing

end MatrixScript
