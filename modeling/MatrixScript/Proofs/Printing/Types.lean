import MatrixScript.Proofs.Printing.Text
import MatrixScript.Proofs.Typing.Statement

/-! The types of a printed integer matrix.

The numbers of a printed matrix are integers, its rows are arrays of one shape, and nothing is found wrong with it.
-/

set_option autoImplicit false

namespace MatrixScript.Typing

open Check Grammar

variable {tree : Tree} {lo hi depth : Nat}

/-- On fresh nodes the action answers a type and finds nothing, and something is known of the types from then on. -/
def Answers (lo hi : Nat) (action : Check StaticType) (type : StaticType) (Known : StaticTypes → Prop) : Prop :=
  ∀ checker, Recorded checker → Fresh lo hi checker →
    (action checker).1 = type ∧ checker.Quiet (action checker).2 ∧ Known (action checker).2.types

def Lasting (Known : StaticTypes → Prop) : Prop :=
  ∀ types later : StaticTypes, types.Extends later → Known types → Known later

theorem node_answers {expr : Expr} {type : StaticType} {Known : StaticTypes → Prop} (le : lo ≤ hi)
    (found : tree.expr? ⟨hi⟩ = some expr) (fills : Fills tree lo hi (infer tree (typeWithin tree depth) expr))
    (answers : Answers lo hi (infer tree (typeWithin tree depth) expr) type Known) (lasting : Lasting Known) :
    Answers lo (hi + 1) (typeWithin tree (depth + 1) ⟨hi⟩) type
      fun types => types.get? ⟨hi⟩ = some type ∧ Known types := by
  intro checker recorded fresh
  have unknown := fresh ⟨hi⟩ le (Nat.lt_succ_self _)
  obtain ⟨same, quiet, known⟩ := answers checker recorded fun id above below => fresh id above (Nat.lt_succ_of_lt below)
  -- nothing has been recorded for the node while its operands were typed
  have untouched := fills.confined checker recorded ⟨hi⟩ fun within => Nat.lt_irrefl _ within.2
  rw [typeWithin_of_fresh unknown found, bind_apply]
  generalize infer tree (typeWithin tree depth) expr checker = inner at same quiet known untouched ⊢
  have last := Checker.Extends.record inner.2 ⟨hi⟩ inner.1
  have held : (inner.2.types.record ⟨hi⟩ inner.1).1 = type := by
    rw [← same]
    unfold StaticTypes.record
    rw [untouched, unknown]
  refine ⟨held, quiet, ?_, lasting _ _ last.types known⟩
  rw [record_apply]
  simp only [StaticTypes.get?_record, if_true, held]

theorem mapM_answers {α : Type} {lies : Nat → Nat → ExprId → α → Prop} {ids : List ExprId} {xs : List α}
    (stretch : Stretch lies lo hi ids xs) {action : ExprId → Check StaticType} {type : StaticType}
    {Known : ExprId → StaticTypes → Prop} (rising : ∀ first last id x, lies first last id x → first < last)
    (fills : ∀ first last id x, last ≤ hi → lies first last id x → Fills tree first last (action id))
    (answers : ∀ first last id x, last ≤ hi → x ∈ xs → lies first last id x →
      Answers first last (action id) type (Known id))
    (lasting : ∀ id, Lasting (Known id)) {checker : Checker} (recorded : Recorded checker)
    (fresh : Fresh lo hi checker) :
    checker.Extends (ids.mapM action checker).2 ∧ (ids.mapM action checker).1 = List.replicate ids.length type ∧
      checker.Quiet (ids.mapM action checker).2 ∧ ∀ id ∈ ids, Known id (ids.mapM action checker).2.types := by
  induction stretch generalizing checker with
  | nil => exact ⟨.refl _, rfl, rfl, nofun⟩
  | @cons first second last id ids x xs item rest ih =>
    have inside := rest.le (fun n => n) fun _ _ _ _ _ => rising _ _ _ _
    have le := Nat.le_of_lt (rising _ _ _ _ item)
    have filled := fills _ _ _ _ inside item
    have earlier := filled.extended checker recorded
    obtain ⟨same, quiet, known⟩ := answers _ _ _ _ inside List.mem_cons_self item checker recorded
      fun id above below => fresh id above (by omega)
    obtain ⟨later, sames, quiets, others⟩ := ih fills
      (fun first last id x within member => answers first last id x within (List.mem_cons_of_mem _ member))
      (recorded.extend earlier) (filled.fresh recorded fresh le)
    rw [List.mapM_cons, bind_apply, bind_apply]
    refine ⟨earlier.trans later, ?_, quiets.trans quiet, ?_⟩
    · simp only [pure_apply, same, sames, List.length_cons, List.replicate_succ]
    · rintro other (_ | ⟨_, member⟩)
      · exact lasting _ _ _ later.types known
      · exact others other member

theorem Answers.mono {action : Check StaticType} {type : StaticType} {Known Less : StaticTypes → Prop}
    (answers : Answers lo hi action type Known) (less : ∀ types, Known types → Less types) :
    Answers lo hi action type Less := by
  intro checker recorded fresh
  obtain ⟨same, quiet, known⟩ := answers checker recorded fresh
  exact ⟨same, quiet, less _ known⟩

theorem int_answers {digits : String} {id : ExprId} (layout : ExprLayout tree lo hi id (.int digits))
    (room : hi ≤ depth) :
    Answers lo hi (typeWithin tree depth id) .int fun types => types.get? id = some .int := by
  cases layout with
  | @int _ _ value _ node =>
    obtain ⟨span, found⟩ := expr?_of_kind node
    obtain ⟨depth, rfl⟩ : ∃ less, depth = less + 1 := ⟨depth - 1, by omega⟩
    have typed : Answers lo lo (infer tree (typeWithin tree depth) ⟨.int value, span⟩) .int fun _ => True :=
      fun _ _ _ => ⟨rfl, rfl, trivial⟩
    have fills : Fills tree lo lo (infer tree (typeWithin tree depth) ⟨.int value, span⟩) :=
      (Mirrors.pure StaticType.int (fun _ => Pure.pure .int) fun _ => rfl).toFills
    exact (node_answers (Nat.le_refl _) found fills typed fun _ _ _ known => known).mono fun _ known => known.1

theorem negated_answers {digits : String} {id : ExprId} (layout : ExprLayout tree lo hi id (.negate (.int digits)))
    (room : hi ≤ depth) :
    Answers lo hi (typeWithin tree depth id) .int fun types => types.get? id = some .int := by
  cases layout with
  | @negate _ hi operand _ inner node =>
    obtain ⟨span, found⟩ := expr?_of_kind node
    obtain ⟨depth, rfl⟩ : ∃ less, depth = less + 1 := ⟨depth - 1, by omega⟩
    have le := Nat.le_of_lt inner.lt
    have within : hi ≤ depth := by omega
    have fills : Fills tree lo hi (infer tree (typeWithin tree depth) ⟨.negate operand, span⟩) := by
      have child := (typed tree hi).1 lo operand _ inner depth within
      refine (child.then (fun type => ?_) le).toFills
      split
      iterate 5 exact .pure _
      exact .reported _ _ _
    have answers : Answers lo hi (infer tree (typeWithin tree depth) ⟨.negate operand, span⟩) .int fun _ => True := by
      intro checker recorded fresh
      obtain ⟨same, quiet, _⟩ := int_answers inner within checker recorded fresh
      simp only [infer, bind_apply, same]
      exact ⟨rfl, quiet, trivial⟩
    exact (node_answers le found fills answers fun _ _ _ known => known).mono fun _ known => known.1

theorem cell_answers {value : Int64} {id : ExprId} (layout : ExprLayout tree lo hi id (Printing.cellTerm value))
    (room : hi ≤ depth) :
    Answers lo hi (typeWithin tree depth id) .int fun types => types.get? id = some .int := by
  unfold Printing.cellTerm at layout
  split at layout
  · exact negated_answers layout room
  · exact int_answers layout room

/-- Typing the items of an array answers as typing the array does, once the items are of one type. -/
theorem array_answers {ids : List ExprId} {terms : List Term} {type result : StaticType}
    {Known : ExprId → StaticTypes → Prop} {span : Span} (stretch : Stretch (ExprLayout tree) lo hi ids terms)
    (found : tree.expr? ⟨hi⟩ = some ⟨.array ids, span⟩) (room : hi ≤ depth)
    (answers : ∀ first last id term, last ≤ hi → term ∈ terms → ExprLayout tree first last id term →
      Answers first last (typeWithin tree depth id) type (Known id))
    (lasting : ∀ id, Lasting (Known id))
    (literal : ∀ (table : StaticTypes) (checker : Checker), (∀ id ∈ ids, Known id table) →
      literalType tree span.start.line ids table (List.replicate ids.length type) checker = (result, checker)) :
    Answers lo (hi + 1) (typeWithin tree (depth + 1) ⟨hi⟩) result fun types => ∀ id ∈ ids, Known id types := by
  have le := ExprLayout.stretch_le stretch
  have all := mapM_mirrors stretch (typeWithin tree depth) ask (fun _ _ _ _ => ExprLayout.lt)
    fun first last id term inside item => (typed tree last).1 first id term item depth (by omega)
  have items : Answers lo hi (infer tree (typeWithin tree depth) ⟨.array ids, span⟩) result
      fun types => ∀ id ∈ ids, Known id types := by
    intro checker recorded fresh
    obtain ⟨_, same, quiet, known⟩ := mapM_answers stretch (fun _ _ _ _ => ExprLayout.lt)
      (fun first last id term inside item => ((typed tree last).1 first id term item depth (by omega)).toFills)
      answers lasting recorded fresh
    simp only [infer, inferArray_apply, bind_apply, same, literal _ _ known]
    exact ⟨trivial, quiet, known⟩
  have kept : Lasting fun types => ∀ id ∈ ids, Known id types :=
    fun types later extended known id member => lasting id types later extended (known id member)
  exact (node_answers le found (inferArray_fills le all _) items kept).mono fun _ known => known.2

theorem Stretch.length_eq {μ ι α : Type} {lies : μ → μ → ι → α → Prop} {first last : μ} {ids : List ι} {xs : List α}
    (stretch : Stretch lies first last ids xs) : ids.length = xs.length := by
  induction stretch with
  | nil => rfl
  | cons _ _ ih => rw [List.length_cons, List.length_cons, ih]

theorem rowElem_ints (count : Nat) : rowElem (List.replicate count .int) (some .int) false = .ok .int := by
  induction count with
  | zero => rfl
  | succ count ih => exact ih

/-- The shape of a row of integers. Nothing is known of an empty one. -/
def rowShape : Nat → Shape
  | 0 => .unknown
  | cols + 1 => ⟨.known 1, .known (cols + 1), .int⟩

theorem row_literal (line : Nat) (ids : List ExprId) (table : StaticTypes) (checker : Checker) :
    literalType tree line ids table (List.replicate ids.length .int) checker =
      (.array (rowShape ids.length), checker) := by
  cases ids with
  | nil => rfl
  | cons id rest =>
    have numbers : (List.replicate (id :: rest).length StaticType.int).any (·.tag.isArrayLike) = false := by
      simp [Tag.isArrayLike]
    have elem : rowElem (List.replicate (id :: rest).length .int) none false = .ok .int := rowElem_ints rest.length
    rw [literalType, numbers, elem]
    simp [rowShape]

def CellsInt (tree : Tree) (id : ExprId) (types : StaticTypes) : Prop :=
  ∀ cells, tree.kind? id = some (.array cells) → ∀ cell ∈ cells, types.get? cell = some .int

theorem CellsInt.lasting (tree : Tree) (id : ExprId) : Lasting (CellsInt tree id) :=
  fun _ _ extended known cells node cell member => extended cell _ (known cells node cell member)

theorem CellsInt.not_nested {id : ExprId} {types : StaticTypes} (known : CellsInt tree id types) :
    nestedLiteral tree types id = false := by
  unfold nestedLiteral
  split
  · next cells node =>
    rw [List.any_eq_false]
    intro cell member
    simp [known cells node cell member, Tag.isArrayLike]
  · rfl

theorem row_answers {row : List Int64} {id : ExprId}
    (layout : ExprLayout tree lo hi id (.array (row.map Printing.cellTerm))) (room : hi ≤ depth) :
    Answers lo hi (typeWithin tree depth id) (.array (rowShape row.length)) (CellsInt tree id) := by
  cases layout with
  | @array _ hi ids _ stretch node =>
    obtain ⟨span, found⟩ := expr?_of_kind node
    obtain ⟨depth, rfl⟩ : ∃ less, depth = less + 1 := ⟨depth - 1, by omega⟩
    have count : ids.length = row.length := by rw [Stretch.length_eq stretch, List.length_map]
    have cells := array_answers stretch found (show hi ≤ depth by omega)
      (fun first last id term inside member item => by
        obtain ⟨value, _, rfl⟩ := List.mem_map.mp member
        exact cell_answers item (show last ≤ depth by omega))
      (fun id types later extended known => extended id _ known)
      (fun table checker _ => row_literal span.start.line ids table checker)
    rw [← count]
    refine cells.mono fun types known cells' node' => ?_
    cases node.symm.trans node'
    exact known

theorem stackedShape_same {shape : Shape} (same : shape.elem.promote shape.elem = shape.elem) (count : Nat) :
    stackedShape (List.replicate count (.array shape)) shape.cols (some shape.elem) = .ok (shape.cols, shape.elem) := by
  have agrees : shape.cols.conflicts shape.cols = false := by
    cases shape.cols <;> simp [Dim.conflicts]
  have joins : shape.cols.or shape.cols = shape.cols := by
    cases shape.cols <;> rfl
  induction count with
  | zero => rfl
  | succ count ih =>
    simp [List.replicate_succ, stackedShape, Tag.isArrayLike, agrees, joins, same, ih]

theorem rowShape_elem (cols : Nat) : (rowShape cols).elem.promote (rowShape cols).elem = (rowShape cols).elem := by
  cases cols <;> rfl

theorem rowShape_single (cols : Nat) : multiRow (.array (rowShape cols)) = false := by
  cases cols <;> rfl

theorem grid_literal {ids : List ExprId} {table : StaticTypes} (nonempty : ids ≠ [])
    (known : ∀ id ∈ ids, CellsInt tree id table) (line cols : Nat) (checker : Checker) :
    literalType tree line ids table (List.replicate ids.length (.array (rowShape cols))) checker =
      (.array ⟨.known ids.length, (rowShape cols).cols, (rowShape cols).elem⟩, checker) := by
  cases ids with
  | nil => contradiction
  | cons id rest =>
    have arrays : (List.replicate (id :: rest).length (StaticType.array (rowShape cols))).any
        (·.tag.isArrayLike) = true := by
      simp [Tag.isArrayLike]
    have flat : (id :: rest).any (nestedLiteral tree table) = false := by
      rw [List.any_eq_false]
      intro other member
      rw [(known other member).not_nested]
      simp
    have single : (List.replicate (id :: rest).length (.array (rowShape cols))).any multiRow = false := by
      simp [rowShape_single]
    -- the first row decides, since no dimension or element type is known before it
    have stacked : stackedShape (List.replicate (id :: rest).length (.array (rowShape cols))) .unknown none =
        .ok ((rowShape cols).cols, (rowShape cols).elem) :=
      stackedShape_same (rowShape_elem cols) rest.length
    rw [literalType, arrays, flat, single, stacked]
    simp

theorem grid_answers {grid : List (List Int64)} {cols : Nat} {id : ExprId} (nonempty : grid ≠ [])
    (even : ∀ row ∈ grid, row.length = cols) (layout : ExprLayout tree lo hi id (Printing.gridTerm grid))
    (room : hi ≤ depth) :
    Answers lo hi (typeWithin tree depth id) (.array ⟨.known grid.length, (rowShape cols).cols, (rowShape cols).elem⟩)
      fun _ => True := by
  cases layout with
  | @array _ hi ids _ stretch node =>
    obtain ⟨span, found⟩ := expr?_of_kind node
    obtain ⟨depth, rfl⟩ : ∃ less, depth = less + 1 := ⟨depth - 1, by omega⟩
    have count : ids.length = grid.length := by rw [Stretch.length_eq stretch, List.length_map]
    have filled : ids ≠ [] := by
      rw [← List.length_pos_iff, count]
      exact List.length_pos_iff.mpr nonempty
    have rows := array_answers stretch found (show hi ≤ depth by omega)
      (fun first last id term inside member item => by
        obtain ⟨row, listed, rfl⟩ := List.mem_map.mp member
        rw [← even row listed]
        exact row_answers item (show last ≤ depth by omega))
      (fun id => CellsInt.lasting tree id)
      (fun table checker known => grid_literal filled known span.start.line cols checker)
    rw [← count]
    exact rows.mono fun _ _ => trivial

theorem layout_le_size {id : ExprId} {term : Term} (layout : ExprLayout tree lo hi id term) :
    hi ≤ tree.exprs.size := by
  obtain ⟨kind, node⟩ := layout.node
  rw [layout.root]
  exact kind?_lt node

theorem check_assignment {grid : List (List Int64)} {cols : Nat} (nonempty : grid ≠ [])
    (even : ∀ row ∈ grid, row.length = cols) (represents : tree.Represents [Printing.assignmentPhrase grid]) :
    (check tree).hasFindings = false := by
  obtain ⟨lo, hi, statement, target, value, body, node, named, layout⟩ := Printing.represents_assignment represents
  obtain ⟨span, found⟩ := stmt?_of_kind node
  have inside : hi ≤ tree.exprs.size + 1 := Nat.le_succ_of_le (layout_le_size layout)
  have ready := Ready.start tree
  obtain ⟨type, quiet, _⟩ := grid_answers nonempty even layout inside (.start tree) ready.recorded
    fun id above _ => ready.fresh id (Nat.zero_le _)
  rw [← typeOf] at type quiet
  -- the target is a name, and takes an array of whatever shape
  have checked : checkProgram tree (.start tree) = declare "A" value (typeOf tree value (.start tree)).2 := by
    rw [checkProgram, body, forM_cons, checkStatement, checkWithin_apply found]
    show checkAssignment tree _ target .plain value _ = _
    rw [checkAssignment_name named, assignName_plain, type]
    rfl
  rw [CheckResult.hasFindings, Bool.not_eq_false', List.isEmpty_iff]
  show (checkProgram tree (.start tree)).2.findings.toList = []
  rw [checked, declare_apply]
  show (typeOf tree value (.start tree)).2.findings.toList = []
  rw [quiet]
  rfl

end MatrixScript.Typing
