import MatrixScript.Proofs.Evaluation.Steps
import MatrixScript.Proofs.Typing.Inversion
import MatrixScript.Proofs.Value.Literal

/-! Typed expressions evaluate to values of their types.

A node relies on its operands twice: on their types, which the checker asked for, and on the literals among them,
which it looked at in the tree. Both are said of every value here.
-/

set_option autoImplicit false

namespace MatrixScript

open Typing

/-- No expression was left without a type. -/
def StaticTypes.Clear (types : StaticTypes) : Prop := ∀ id type, types.get? id = some type → type.tag ≠ .unknown

/-- What is asked of a typed tree: a type for every expression that was looked at, and no more nodes than can be
counted. -/
structure Reliable (tree : Tree) (types : StaticTypes) : Prop where
  clear : types.Clear
  few : (tree.exprs.size : Int) ≤ Integer.greatest + 1

/-- A value is one of the type that the table has for an expression. -/
def Fits (types : StaticTypes) (id : ExprId) (value : Value) : Prop :=
  ∃ type, types.get? id = some type ∧ Fitting type value

/-- What a node evaluates to: a value that fits it, and the number itself when the node is one. -/
structure Valued (tree : Tree) (types : StaticTypes) (id : ExprId) (value : Value) : Prop where
  fits : Fits types id value
  literal : ∀ number, tree.kind? id = some (.int number) → value = .int number

section

variable {tree : Tree} {types : StaticTypes} {id : ExprId} {value : Value}

theorem Fits.fitting (fits : Fits types id value) : Fitting (known types id) value := by
  obtain ⟨type, typed, fitting⟩ := fits
  unfold known
  rw [typed]
  exact fitting

theorem Fits.int (fits : Fits types id value) (integer : (known types id).tag = .int) :
    ∃ number, value = .int number := by
  have tagged := fits.fitting.conforms.tagged
  rw [integer] at tagged
  cases tagged with
  | int number => exact ⟨number, rfl⟩

theorem integral_of_int {Allowed : Fault → Prop} (integer : (known types id).tag = .int) :
    Evaluation.Integral Allowed (Valued tree types) id :=
  fun _ valued => .inl (valued.fits.int integer)

end

section

variable {tree : Tree} {types : StaticTypes} {declared : Declarations ExprId} {operand : ExprId → Eval Value}
  {type : StaticType}

theorem mapM_element?_matrices {matrices : List Matrix} (nonempty : matrices ≠ []) :
    (matrices.map Value.matrix).mapM Value.element? = none := by
  cases matrices with
  | nil => exact absurd rfl nonempty
  | cons matrix rest => rfl

theorem rows_evaluate {items : List ExprId} {matrices : List Matrix} (length : items.length = matrices.length) :
    Evaluates Fault.Unforeseen (· = matrices)
      ((items.zip (matrices.map Value.matrix)).mapM fun (id, value) => Evaluation.rowOf tree id value) := by
  induction matrices generalizing items with
  | nil =>
    rw [List.map_nil, List.zip_nil_right]
    rfl
  | cons matrix rest ih =>
    cases items with
    | nil => cases length
    | cons item items =>
      rw [List.map_cons, List.zip_cons_cons, List.mapM_cons]
      have first : Evaluates Fault.Unforeseen (· = matrix) (Evaluation.rowOf tree item (.matrix matrix)) := by
        unfold Evaluation.rowOf
        simp only
        split
        · rfl
        · trivial
      refine first.bind fun row same => (ih (Nat.succ.inj length)).bind fun rows others => ?_
      exact congrArg₂ List.cons same others

theorem arrayLiteral_fitting {items : List ExprId} (literal : LiteralType (items.map (known types)) type)
    (few : (items.length : Int) ≤ Integer.greatest) (position : Position)
    (operands : ∀ item ∈ items, Evaluates Fault.Unforeseen (Fitting (known types item)) (operand item)) :
    Evaluates Fault.Unforeseen (Fitting type) (Evaluation.arrayLiteral tree operand position items) := by
  refine (Evaluates.mapM operands).bind fun values each => ?_
  have fitting : List.Forall₂ Fitting (items.map (known types)) values := List.forall₂_map_left_iff.mpr each
  have few' : ((items.map (known types)).length : Int) ≤ Integer.greatest := by
    rw [List.length_map]
    exact few
  cases literal with
  | empty nothing =>
    rw [nothing] at fitting
    cases fitting
    exact Fitting.array ⟨nofun, nofun, nofun, nofun⟩ ⟨by decide, by decide⟩
  | row some row =>
    obtain ⟨elements, known, matrix⟩ := row_fitting fitting row some few'
    simp only [known]
    exact (Evaluates.locate matrix _).bind fun _ good => good
  | stacked arrays stacked =>
    -- nothing of an unknown type fits, so each of the array-like elements is a matrix
    have clear := tags_known fitting
    obtain ⟨matrices, rfl, describes⟩ := matrices_of_arrays fitting fun type member =>
      (stackedShape_arrays stacked type member).resolve_left (clear type member)
    have some : items.map (known types) ≠ [] := by
      intro nothing
      rw [nothing] at arrays
      cases arrays
    have length : items.length = matrices.length := by rw [← describes.length_eq, List.length_map]
    have nonempty : matrices ≠ [] := by
      rintro rfl
      exact some (List.length_eq_zero_iff.mp describes.length_eq)
    rw [mapM_element?_matrices nonempty]
    refine (rows_evaluate length).bind fun rows same => ?_
    subst same
    exact (Evaluates.locate (stacked_fitting stacked describes some few') _).bind fun _ good => good

/-- A size is one that is known of a dimension, and can be counted by an integer. -/
def Dim.Counts (dim : Dim) (size : Nat) : Prop := dim.Admits size ∧ (size : Int) ≤ Integer.greatest

theorem dimension_evaluates {function : Builtin} {id : ExprId} {line : Nat} {table : StaticTypes} {dim : Dim}
    (silence : Silent table declared (inferDimension tree (ask types) line function id) dim)
    (clear : (known types id).tag ≠ .unknown) (valued : Evaluates Fault.Unforeseen (Valued tree types id) (operand id)) :
    Evaluates Fault.Unforeseen
      (fun size => ∀ dim, Silent table declared (inferDimension tree (ask types) line function id) dim →
        dim.Counts size) (Evaluation.dimension tree operand function id) := by
  refine valued.bind fun value valued => ?_
  obtain ⟨number, rfl⟩ := valued.fits.int (inferDimension_inversion silence clear).1
  simp only
  split
  · next nonneg =>
    intro dim silence
    refine ⟨fun size same => ?_, ?_⟩
    · obtain ⟨written, node, _, rfl⟩ := (inferDimension_inversion silence clear).2.1 size same
      cases valued.literal written node
      rfl
    · have bound := number.toInt_lt
      unfold Integer.greatest
      omega
  · trivial

theorem build_fitting {function : Builtin} {rows cols : Nat} {rowDim colDim : Dim} (down : rowDim.Counts rows)
    (across : colDim.Counts cols) :
    Checked Fault.Unforeseen (fun matrix => Fitting (.array ⟨rowDim, colDim, .int⟩) (.matrix matrix))
      (Value.orFault (Evaluation.build function rows cols)) := by
  refine Checked.orFault fun matrix done => ?_
  obtain ⟨rfl, rfl, integral⟩ := Matrix.build_eq_ok done
  exact .array ⟨down.1, across.1, fun _ => integral, nofun⟩ ⟨down.2, across.2⟩

theorem builtin_fitting {function : Builtin} {arguments : List ExprId} {line : Nat} {table : StaticTypes}
    {rowDim colDim : Dim} (dims : Dimensioned tree types declared line function table arguments rowDim colDim)
    (clear : ∀ id ∈ arguments, (known types id).tag ≠ .unknown) (position : Position)
    (operands : ∀ id ∈ arguments, Evaluates Fault.Unforeseen (Valued tree types id) (operand id)) :
    Evaluates Fault.Unforeseen (Fitting (.array ⟨rowDim, colDim, .int⟩))
      (Evaluation.builtin tree operand position function arguments) := by
  have asked : ∀ id ∈ arguments,
      ∃ dim, Silent table declared (inferDimension tree (ask types) line function id) dim := by
    cases dims with
    | square silence =>
      intro id member
      obtain rfl := List.mem_singleton.mp member
      exact ⟨_, silence⟩
    | pair first second =>
      intro id member
      rcases List.mem_cons.mp member with rfl | member
      · exact ⟨_, first⟩
      · obtain rfl := List.mem_singleton.mp member
        exact ⟨_, second⟩
  -- one statement for both ways to give the dimensions: which dimension belongs to a size is settled below
  have each : ∀ id ∈ arguments, Evaluates Fault.Unforeseen
      (fun size => ∀ dim, Silent table declared (inferDimension tree (ask types) line function id) dim →
        dim.Counts size) (Evaluation.dimension tree operand function id) := by
    intro id member
    obtain ⟨dim, silence⟩ := asked id member
    exact dimension_evaluates silence (clear id member) (operands id member)
  refine (Evaluates.mapM each).bind fun sizes counted => ?_
  cases dims with
  | square silence =>
    cases counted with
    | cons first rest =>
      cases rest
      have count := first _ silence
      exact (Evaluates.locate (build_fitting count count) _).bind fun _ good => good
  | pair silence silence' =>
    cases counted with
    | cons first rest =>
      cases rest with
      | cons second rest =>
        cases rest
        exact (Evaluates.locate (build_fitting (first _ silence) (second _ silence')) _).bind fun _ good => good

end

section

variable {tree : Tree} {types : StaticTypes} {base : ExprId} {indices : List ExprId} {selectors : List Selector}
  {type : StaticType} {value : Value}

theorem matches_of_indexes {id : ExprId} {selection : Selection} {selector : Selector}
    (indexes : Indexes tree types id selection) (selects : Evaluation.Selects tree (Valued tree types) id selector)
    (ranged : tree.IsRange id → (known types id).tag = .range) : Selection.Matches selection selector := by
  cases indexes with
  | @span start stop bounds node literal =>
    cases selects with
    | point plain _ => exact absurd ⟨start, stop, node⟩ plain
    | span node' first last =>
      cases node.symm.trans node'
      refine .span fun low high same => ?_
      obtain ⟨one, two⟩ := (literal low high).mp same
      exact ⟨Value.int.inj (first.literal low one), Value.int.inj (last.literal high two)⟩
  | point integer literal =>
    cases selects with
    | point _ valued => exact .point fun number same => Value.int.inj (valued.literal number (literal number same))
    | span node _ _ =>
      -- a range is not of the type of an index
      rw [ranged ⟨_, _, node⟩] at integer
      rcases integer with same | same <;> cases same

theorem textSelectors_of_fit (fit : textIndicesFit tree indices) (some : indices ≠ [])
    (selects : List.Forall₂ (Evaluation.Selects tree (Valued tree types)) indices selectors) :
    TextSelectors selectors := by
  cases selects with
  | nil => exact absurd rfl some
  | cons first rest =>
    cases rest with
    | nil => exact .single _
    | cons second rest =>
      cases rest with
      | nil =>
        -- the first of two indices into a text is a literal zero
        have zero := of_decide_eq_true fit
        cases first with
        | point _ valued =>
          cases valued.literal 0 zero
          exact .row _
        | span node _ _ => cases node.symm.trans zero
      | cons _ _ =>
        simp [textIndicesFit] at fit

theorem flat_fitting {shape : Shape} {grid : Matrix} {selection : Selection} {selector : Selector}
    (flat : Flat shape selection type) (matched : Selection.Matches selection selector)
    (describes : shape.Describes grid) (small : grid.Countable) (typed : type.tag ≠ .unknown) :
    Checked Fault.Unforeseen (Fitting type) (Value.index (.matrix grid) [selector]) := by
  cases flat with
  | row single quiet => exact flat_row_fitting describes small single (axisResult_measures matched quiet _) typed
  | rows several not_one quiet =>
    exact flat_rows_fitting describes small several not_one (axisResult_measures matched quiet _)
  | span _ spans =>
    subst spans
    cases matched with
    | span _ => exact flat_span_fitting describes small
  | unclear _ => exact absurd rfl typed

/-- What is selected from a value is of the type that was found for the selection. -/
theorem index_fitting (indexed : IndexedType tree types base indices type) (typed : type.tag ≠ .unknown)
    (some : indices ≠ []) (ranged : ∀ id ∈ indices, tree.IsRange id → (known types id).tag = .range)
    (whole : Fitting (known types base) value)
    (selects : List.Forall₂ (Evaluation.Selects tree (Valued tree types)) indices selectors) :
    Checked Fault.Unforeseen (Fitting type) (value.index selectors) := by
  cases indexed with
  | text text fit =>
    have tagged := whole.conforms.tagged
    rw [text] at tagged
    cases tagged with
    | text content => exact index_text (textSelectors_of_fit fit some selects) content
  | @cell first second _ _ _ _ array two rows cols down across =>
    subst two
    obtain ⟨grid, rfl, describes, small⟩ := Value.matrix_of_arrayLike whole array
    cases selects with
    | cons one rest =>
      cases rest with
      | cons other rest =>
        cases rest
        have matchedRows := matches_of_indexes rows one (ranged first (by simp))
        have matchedCols := matches_of_indexes cols other (ranged second (by simp))
        exact index_pair (select_fitting describes small (axisResult_measures matchedRows down _)
          (axisResult_measures matchedCols across _) typed)
  | @flat single _ _ array one index flat =>
    subst one
    obtain ⟨grid, rfl, describes, small⟩ := Value.matrix_of_arrayLike whole array
    cases selects with
    | cons first rest =>
      cases rest
      have matched := matches_of_indexes index first (ranged single (by simp))
      exact flat_fitting flat matched describes small typed
  | unclear _ => exact absurd rfl typed

end

section

variable {tree : Tree} {types : StaticTypes} {declared : Declarations ExprId} {lo hi : Nat}

theorem Typing.Understood.judged (understood : Understood tree types declared lo hi) {id : ExprId} {expr : Expr}
    (above : lo ≤ id.index) (below : id.index < hi) (found : tree.expr? id = some expr) :
    types.get? id = some (known types id) ∧ Judged tree types declared expr (known types id) := by
  obtain ⟨_, type, found', typed, judged⟩ := understood.settled id above below
  cases found.symm.trans found'
  have same : known types id = type := by
    unfold known
    rw [typed]
    rfl
  rw [same]
  exact ⟨typed, judged types (.refl _)⟩

theorem Typing.Understood.known_clear (understood : Understood tree types declared lo hi) (clear : types.Clear)
    {id : ExprId} (above : lo ≤ id.index) (below : id.index < hi) : (known types id).tag ≠ .unknown := by
  obtain ⟨_, type, _, typed, _⟩ := understood.settled id above below
  rw [known_of_typed typed]
  exact clear id type typed

theorem Typing.Understood.range (understood : Understood tree types declared lo hi) (clear : types.Clear)
    {id start stop : ExprId} (above : lo ≤ id.index) (below : id.index < hi)
    (node : tree.kind? id = some (.range start stop)) :
    (known types id).tag = .range ∧ (known types start).tag = .int ∧ (known types stop).tag = .int := by
  obtain ⟨span, found⟩ := expr?_of_kind node
  obtain ⟨_, judged⟩ := understood.judged above below found
  have bound := (understood.nested id _ above below node).operand
  have first := bound start (by simp [ExprKind.operands])
  have last := bound stop (by simp [ExprKind.operands])
  refine ⟨congrArg StaticType.tag judged.range_type, judged.range_inversion ?_ ?_⟩
  · exact understood.known_clear clear first.above (Nat.lt_trans first.below below)
  · exact understood.known_clear clear last.above (Nat.lt_trans last.below below)

theorem Typing.Understood.ranged (understood : Understood tree types declared lo hi) (clear : types.Clear)
    {id base : ExprId} {indices : List ExprId} (placed : tree.Placed lo hi id)
    (node : tree.kind? id = some (.indexed base indices)) :
    ∀ child ∈ indices, tree.IsRange child → (known types child).tag = .range := by
  rintro child member ⟨start, stop, range⟩
  obtain ⟨above, below⟩ := (understood.nested id _ placed.above placed.below node).index child member
  exact (understood.range clear above (Nat.lt_trans below placed.below) range).1

theorem indexes_of_mem {indices : List ExprId} {selections : List Selection}
    (indexes : List.Forall₂ (Indexes tree types) indices selections) {id : ExprId} (member : id ∈ indices) :
    ∃ selection, Indexes tree types id selection := by
  induction indexes with
  | nil => cases member
  | cons first _ ih =>
    rcases List.mem_cons.mp member with rfl | member
    · exact ⟨_, first⟩
    · exact ih member

theorem selectors_valued (understood : Understood tree types declared lo hi) (clear : types.Clear)
    {operand : ExprId → Eval Value} {id base : ExprId} {indices : List ExprId} {selections : List Selection}
    (placed : tree.Placed lo hi id) (node : tree.kind? id = some (.indexed base indices))
    (indexes : List.Forall₂ (Indexes tree types) indices selections)
    (operands : ∀ child, tree.Placed lo id.index child →
      Evaluates Fault.Unforeseen (Valued tree types child) (operand child)) :
    Evaluates Fault.Unforeseen (List.Forall₂ (Evaluation.Selects tree (Valued tree types)) indices)
      (Evaluation.selectors tree operand indices) := by
  refine Evaluation.selectors_evaluate fun child member => ?_
  refine Evaluation.operates_of_nested understood.nested placed node member operands fun bound inside known => ?_
  obtain ⟨above, below⟩ := (understood.nested id _ placed.above placed.below node).index child member
  have below := Nat.lt_trans below placed.below
  apply integral_of_int
  rcases known with rfl | ⟨start, stop, range, same⟩
  · obtain ⟨selection, index⟩ := indexes_of_mem indexes member
    cases index with
    | span range _ => exact absurd ⟨_, _, range⟩ inside.plain
    | point integer _ => exact integer.resolve_right (understood.known_clear clear above below)
  · obtain ⟨_, first, last⟩ := understood.range clear above below range
    rcases same with rfl | rfl
    · exact first
    · exact last

variable {memory : Memory Value}

/-- A node evaluates to a value of its type when its operands do. -/
theorem node_fitting (understood : Understood tree types declared lo hi) (reliable : Reliable tree types)
    (shows : Shows (Fits types) declared memory)
    {id : ExprId} {expr : Expr} {operand : ExprId → Eval Value} (placed : tree.Placed lo hi id)
    (found : tree.expr? id = some expr)
    (operands : ∀ child, tree.Placed lo id.index child →
      Evaluates Fault.Unforeseen (Valued tree types child) (operand child)) :
    Evaluates Fault.Unforeseen (Fitting (known types id))
      (Evaluation.node tree (Evaluation.fetch memory) operand expr) := by
  have node : tree.kind? id = some expr.kind := by
    rw [Tree.kind?, found]
    rfl
  have clear := reliable.clear
  have typed := understood.known_clear clear placed.above placed.below
  obtain ⟨_, judged⟩ := understood.judged placed.above placed.below found
  have supports := understood.nested id expr.kind placed.above placed.below node
  obtain ⟨kind, span⟩ := expr
  -- the operands of the node, with the types that the table has for them
  have fitting (child : ExprId) (member : child ∈ kind.operands) :
      Evaluates Fault.Unforeseen (Fitting (known types child)) (operand child) :=
    (operands child (supports.operand child member)).mono fun _ valued => valued.fits.fitting
  generalize known types id = type at typed judged ⊢
  obtain ⟨table, silence⟩ := judged.silent
  cases kind with
  | int number =>
    obtain rfl : type = .int := silence.pure
    exact Fitting.int number
  | float number =>
    obtain rfl : type = .float := silence.pure
    exact Fitting.float number
  | text content =>
    obtain rfl : type = .text := silence.pure
    exact Fitting.text content
  | name name =>
    obtain ⟨producer, found, rfl⟩ := judged.name_declared
    obtain ⟨value, read, fits⟩ := shows name producer found
    rw [Evaluation.node_name rfl read]
    exact fits.fitting
  | array items =>
    have few : items.length ≤ id.index := supports.few
    have inside : id.index < tree.exprs.size := kind?_lt node
    have counted := reliable.few
    exact arrayLiteral_fitting judged.array_inversion.1 (by omega) _ fitting
  | indexed base indices =>
    obtain ⟨⟨selections, indexes⟩, indexed⟩ := judged.indexed_inversion
    have ranged := understood.ranged clear placed node
    refine (fitting base (by simp [ExprKind.operands])).bind fun value whole => ?_
    refine (selectors_valued understood clear placed node indexes operands).bind fun selectors selects => ?_
    exact .locate (index_fitting indexed typed (supports.chosen base indices rfl) ranged whole selects) _
  | linear left op right =>
    obtain ⟨tag, verdict, _, rfl⟩ := judged.linear_inversion
    refine (fitting left (by simp [ExprKind.operands])).bind fun a first => ?_
    refine (fitting right (by simp [ExprKind.operands])).bind fun b second => ?_
    exact .locate (Value.linear_typed first second verdict) _
  | elementwise left op right =>
    obtain ⟨tag, verdict, _, rfl⟩ := judged.elementwise_inversion
    refine (fitting left (by simp [ExprKind.operands])).bind fun a first => ?_
    refine (fitting right (by simp [ExprKind.operands])).bind fun b second => ?_
    exact .locate (Value.elementwise_typed first second verdict) _
  | compare left op right =>
    obtain ⟨supported, rfl⟩ := inferCompare_inversion silence
    refine (fitting left (by simp [ExprKind.operands])).bind fun a first => ?_
    refine (fitting right (by simp [ExprKind.operands])).bind fun b second => ?_
    exact .locate (Value.compare_fitting first.conforms.tagged second.conforms.tagged supported) _
  | negate inner =>
    obtain ⟨rfl, number⟩ := judged.negate_inversion
    refine (fitting inner (by simp [ExprKind.operands])).bind fun value good => ?_
    exact .locate (negate_fitting good number) _
  | transpose inner =>
    have typed' : ¬((known types inner).tag = .unknown ∧ type = known types inner) := by
      rintro ⟨unknown, rfl⟩
      exact typed unknown
    obtain ⟨array, rfl⟩ := judged.transpose_inversion.resolve_right typed'
    refine (fitting inner (by simp [ExprKind.operands])).bind fun value good => ?_
    obtain ⟨grid, rfl, describes, counted⟩ := Value.matrix_of_arrayLike good array
    exact Fitting.matrix array describes.transpose ⟨counted.2, counted.1⟩
  | builtin function arguments =>
    obtain ⟨rowDim, colDim, rfl, dims⟩ := inferBuiltin_inversion silence
    refine builtin_fitting dims (fun child member => ?_) _ fun child member => operands child (supports.operand child member)
    have inside := supports.operand child member
    exact understood.known_clear clear inside.above (Nat.lt_trans inside.below placed.below)
  | range start stop => exact absurd ⟨start, stop, node⟩ placed.plain

theorem node_valued (understood : Understood tree types declared lo hi) (reliable : Reliable tree types)
    (shows : Shows (Fits types) declared memory)
    {id : ExprId} {expr : Expr} {operand : ExprId → Eval Value} (placed : tree.Placed lo hi id)
    (found : tree.expr? id = some expr)
    (operands : ∀ child, tree.Placed lo id.index child →
      Evaluates Fault.Unforeseen (Valued tree types child) (operand child)) :
    Evaluates Fault.Unforeseen (Valued tree types id)
      (Evaluation.node tree (Evaluation.fetch memory) operand expr) := by
  have fitting := node_fitting understood reliable shows placed found operands
  obtain ⟨typed, _⟩ := understood.judged placed.above placed.below found
  by_cases literal : ∃ number, tree.kind? id = some (.int number)
  · obtain ⟨number, node⟩ := literal
    obtain ⟨span, found'⟩ := expr?_of_kind node
    cases found.symm.trans found'
    refine ⟨⟨_, typed, fitting⟩, fun other node' => ?_⟩
    cases node.symm.trans node'
    rfl
  · exact fitting.mono fun value good =>
      ⟨⟨_, typed, good⟩, fun number node => absurd ⟨number, node⟩ literal⟩

theorem evaluateWithin_valued (understood : Understood tree types declared lo hi) (reliable : Reliable tree types)
    (shows : Shows (Fits types) declared memory) {id : ExprId} (placed : tree.Placed lo hi id) {depth : Nat}
    (deep : id.index < depth) :
    Evaluates Fault.Unforeseen (Valued tree types id) (Evaluation.evaluateWithin tree memory depth id) :=
  Evaluation.evaluateWithin_of_nodes (Valued tree types) understood.present
    (fun _ _ _ placed found operands => node_valued understood reliable shows placed found operands) placed deep

/-- A typed expression evaluates to a value of its type or stops for a reason that types do not exclude. -/
theorem evaluate_valued (understood : Understood tree types declared lo hi) (reliable : Reliable tree types)
    (shows : Shows (Fits types) declared memory) {id : ExprId} (placed : tree.Placed lo hi id) :
    Evaluates Fault.Unforeseen (Valued tree types id) (evaluate tree memory id) := by
  obtain ⟨expr, found⟩ := understood.present id placed.above placed.below
  have inside : id.index < tree.exprs.size := (Array.getElem?_eq_some_iff.mp found).1
  exact evaluateWithin_valued understood reliable shows placed (Nat.lt_succ_of_lt inside)

theorem known_valued {ids : List ExprId} (known : Known tree types declared ids) (reliable : Reliable tree types)
    (shows : Shows (Fits types) declared memory) :
    ∀ id ∈ ids, Evaluates Fault.Unforeseen (Valued tree types id) (evaluate tree memory id) := by
  obtain ⟨lo, hi, understood, placed⟩ := known
  exact fun id member => evaluate_valued understood reliable shows (placed id member)

end

end MatrixScript
