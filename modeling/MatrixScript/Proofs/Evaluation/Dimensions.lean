import MatrixScript.Proofs.Evaluation.Literal
import MatrixScript.Proofs.Evaluation.Stability
import MatrixScript.Proofs.Typing.Shapes
import MatrixScript.Proofs.Value.Dimensions

/-! Where all sizes are written as literals, shapes are checked once and for all.

Then all is known of the shape of every value, and every matrix has the shape that the checker had in mind when it
compared it with others. That is shown for one node, with what its operands evaluate to, and for what is written into a
part of a variable; everything else follows as type safety does.
-/

set_option autoImplicit false

namespace MatrixScript

open Typing

/-- A fault that types do not exclude, and that is not about shapes. -/
abbrev Fault.Remaining (fault : Fault) : Prop := fault.Unforeseen ∧ fault.Shapeless

abbrev Positive (size : Nat) : Prop := 0 < size

section

variable {Size : Nat → Prop} {type : StaticType}

theorem StaticType.Definite.closed (definite : type.Definite Size) : ¬type.Open := by
  rintro (unknown | ⟨array, unknown⟩)
  · exact definite.clear unknown
  · obtain ⟨_, ⟨_, rows, _⟩, ⟨_, cols, _⟩, _⟩ := definite.array array
    rcases unknown with unknown | unknown
    · cases rows.symm.trans unknown
    · cases cols.symm.trans unknown

theorem StaticType.Definite.rows_ne_zero (definite : type.Definite Positive) (array : type.tag.isArrayLike) :
    type.shape.rows ≠ .known 0 := by
  intro none
  obtain ⟨size, rows, positive⟩ := (definite.array array).2.rows
  cases rows.symm.trans none
  exact absurd positive (Nat.lt_irrefl 0)

end

section

variable {tree : Tree} {types : StaticTypes} {declared : Declarations ExprId} {operand : ExprId → Eval Value}

theorem arrayLiteral_shapeless {items : List ExprId} {type : StaticType} {span : Span}
    (judged : Judged tree types declared ⟨.array items, span⟩ type)
    (definite : ∀ item ∈ items, (known types item).Definite Positive)
    (operands : ∀ item ∈ items, Evaluates Fault.Shapeless (Valued tree types item) (operand item))
    (position : Position) :
    Evaluates Fault.Shapeless (fun _ => True) (Evaluation.arrayLiteral tree operand position items) := by
  obtain ⟨literal, single⟩ := judged.array_inversion
  have given (item : ExprId) (member : item ∈ items) :
      Evaluates Fault.Shapeless (known types item).Allows (operand item) :=
    (operands item member).mono fun _ valued => .inr valued.fits.fitting.conforms
  have opens : (∃ item ∈ items, (known types item).Open) → ∀ fault : Fault, fault.Shapeless := by
    rintro ⟨item, member, some⟩
    exact absurd some (definite item member).closed
  refine (Evaluation.arrayLiteral_allowed literal single (.inr fun item member => (definite item member).rows_ne_zero)
    (fun some => .inl ?_) opens given position).mono fun _ _ => trivial
  obtain ⟨item, member⟩ := List.exists_mem_of_ne_nil items some
  exact ⟨item, member, (definite item member).clear⟩

theorem dimension_shapeless {function : Builtin} {id : ExprId} {size : Int64}
    (node : tree.kind? id = some (.int size)) (unsigned : 0 ≤ size.toInt)
    (valued : Evaluates Fault.Shapeless (Valued tree types id) (operand id)) :
    Evaluates Fault.Shapeless (fun _ => True) (Evaluation.dimension tree operand function id) := by
  refine valued.bind fun value valued => ?_
  obtain rfl := valued.literal size node
  simp only [if_pos unsigned]
  trivial

theorem builtin_shapeless {function : Builtin} {arguments : List ExprId} {line : Nat} {table : StaticTypes}
    {rowDim colDim : Dim} (dims : Dimensioned tree types declared line function table arguments rowDim colDim)
    (each : ∀ id ∈ arguments, Evaluates Fault.Shapeless (fun _ => True)
      (Evaluation.dimension tree operand function id)) (position : Position) :
    Evaluates Fault.Shapeless (fun _ => True) (Evaluation.builtin tree operand position function arguments) := by
  have built (rows cols : Nat) :
      Evaluates Fault.Shapeless (fun _ => True) (locate position (Value.orFault (Evaluation.build function rows cols))) :=
    .locate (Value.failsIn_of_computed Value.shapeless_of_ordinary (Value.build_computed _ _ _)) _
  refine (Evaluates.mapM each).bind fun sizes counted => ?_
  cases dims with
  | square _ =>
    cases counted with
    | cons _ rest =>
      cases rest
      exact (built _ _).bind fun _ _ => trivial
  | pair _ _ =>
    cases counted with
    | cons _ rest =>
      cases rest with
      | cons _ rest =>
        cases rest
        exact (built _ _).bind fun _ _ => trivial

end

section

variable {tree : Tree} {types : StaticTypes} {declared : Declarations ExprId} {memory : Memory Value} {lo hi : Nat}

theorem StaticTypes.Definite.known {Size : Nat → Prop} (definite : types.Definite Size) {id : ExprId}
    {type : StaticType} (typed : types.get? id = some type) : (known types id).Definite Size := by
  rw [known_of_typed typed]
  exact definite id type typed

theorem Typing.Understood.definite {Size : Nat → Prop} (understood : Understood tree types declared lo hi)
    (definite : types.Definite Size) {id : ExprId} (above : lo ≤ id.index) (below : id.index < hi) :
    (known types id).Definite Size := by
  obtain ⟨_, _, _, typed, _⟩ := understood.settled id above below
  exact definite.known typed

section

variable (understood : Understood tree types declared lo hi) (sized : tree.Sized Positive)
  (definite : types.Definite Positive) (shows : Shows (Fits types) declared memory)
include understood sized definite shows

theorem node_shapeless {id : ExprId} {expr : Expr} {operand : ExprId → Eval Value} (placed : tree.Placed lo hi id)
    (found : tree.expr? id = some expr)
    (operands : ∀ child, tree.Placed lo id.index child →
      Evaluates Fault.Shapeless (Valued tree types child) (operand child)) :
    Evaluates Fault.Shapeless (fun _ => True) (Evaluation.node tree (Evaluation.fetch memory) operand expr) := by
  have node : tree.kind? id = some expr.kind := by
    rw [Tree.kind?, found]
    rfl
  obtain ⟨_, judged⟩ := understood.judged placed.above placed.below found
  have supports := understood.nested id expr.kind placed.above placed.below node
  obtain ⟨kind, span⟩ := expr
  have valued (child : ExprId) (member : child ∈ kind.operands) :
      Evaluates Fault.Shapeless (Valued tree types child) (operand child) :=
    operands child (supports.operand child member)
  have known (child : ExprId) (member : child ∈ kind.operands) : (known types child).Definite Positive := by
    have inside := supports.operand child member
    exact understood.definite definite inside.above (Nat.lt_trans inside.below placed.below)
  obtain ⟨table, silence⟩ := judged.silent
  cases kind with
  | int _ | float _ | text _ => trivial
  | array items => exact arrayLiteral_shapeless judged known valued _
  | name name =>
    obtain ⟨producer, found, _⟩ := judged.name_declared
    obtain ⟨value, read, _⟩ := shows name producer found
    rw [Evaluation.node_name rfl read]
    trivial
  | indexed base indices =>
    -- whatever is wrong with an index is not about shapes
    refine (valued base (by simp [ExprKind.operands])).bind fun value _ => ?_
    have selects := Evaluation.selectors_evaluate fun child member =>
      Evaluation.operates_of_nested understood.nested placed node member operands fun _ _ _ _ _ =>
        .inr fun _ same => by cases same
    refine selects.bind fun selectors _ => ?_
    exact .locate (Value.index_failsIn Value.shapeless_of_ordinary _ _) _
  | linear left op right =>
    obtain ⟨tag, verdict, agree, _⟩ := judged.linear_inversion
    refine (valued left (by simp [ExprKind.operands])).bind fun a first => ?_
    refine (valued right (by simp [ExprKind.operands])).bind fun b second => ?_
    exact .locate (Value.linear_shapeless first.fits.fitting.conforms second.fits.fitting.conforms
      (known left (by simp [ExprKind.operands])) (known right (by simp [ExprKind.operands])) verdict agree) _
  | elementwise left op right =>
    obtain ⟨tag, verdict, agree, _⟩ := judged.elementwise_inversion
    refine (valued left (by simp [ExprKind.operands])).bind fun a first => ?_
    refine (valued right (by simp [ExprKind.operands])).bind fun b second => ?_
    exact .locate (Value.elementwise_shapeless first.fits.fitting.conforms second.fits.fitting.conforms
      (known left (by simp [ExprKind.operands])) (known right (by simp [ExprKind.operands])) verdict agree) _
  | compare left op right =>
    refine (valued left (by simp [ExprKind.operands])).bind fun a _ => ?_
    refine (valued right (by simp [ExprKind.operands])).bind fun b _ => ?_
    exact .locate (Value.compare_failsIn Value.shapeless_of_ordinary _ _ _) _
  | negate inner =>
    refine (valued inner (by simp [ExprKind.operands])).bind fun value _ => ?_
    exact .locate (Value.negate_failsIn Value.shapeless_of_ordinary _) _
  | transpose inner =>
    refine (valued inner (by simp [ExprKind.operands])).bind fun value _ => ?_
    exact .locate (Value.transpose_failsIn Value.shapeless_of_ordinary _) _
  | builtin function arguments =>
    obtain ⟨rowDim, colDim, _, dims⟩ := inferBuiltin_inversion silence
    refine builtin_shapeless dims (fun argument member => ?_) _
    obtain ⟨size, literal, _⟩ := sized.writes.node found argument member
    have node := Tree.literal?_eq_some literal
    exact dimension_shapeless node (sized.unsigned argument size node) (valued argument member)
  | range start stop => exact absurd ⟨start, stop, node⟩ placed.plain

variable (reliable : Reliable tree types)
include reliable

/-- An expression evaluates to a value of its type or stops for a reason that is not about shapes. -/
theorem evaluate_remaining {id : ExprId} (placed : tree.Placed lo hi id) :
    Evaluates Fault.Remaining (Valued tree types id) (evaluate tree memory id) := by
  obtain ⟨expr, found⟩ := understood.present id placed.above placed.below
  have inside : id.index < tree.exprs.size := (Array.getElem?_eq_some_iff.mp found).1
  -- a node needs the types of its operands as well, so that both are shown of every node together
  refine Evaluation.evaluateWithin_of_nodes (Valued tree types) understood.present
    (fun _ _ _ placed found operands => ?_) placed (Nat.lt_succ_of_lt inside)
  have valued := node_valued understood reliable shows placed found fun child inside =>
    (operands child inside).widen fun _ => And.left
  exact valued.both <| node_shapeless understood sized definite shows placed found fun child inside =>
    (operands child inside).widen fun _ => And.right

theorem evaluate_shapeless {id : ExprId} (placed : tree.Placed lo hi id) :
    Evaluates Fault.Shapeless (Valued tree types id) (evaluate tree memory id) :=
  (evaluate_remaining understood sized definite shows reliable placed).widen fun _ => And.right

end

end

section

variable {tree : Tree} {types : StaticTypes} {base : ExprId} {indices : List ExprId} {selectors : List Selector}
  {type : StaticType} {grid : Matrix} {rows cols : Selector} {Size : Nat → Prop}

/-- The selectors of a matrix run along axes whose lengths are known, and the type of the selection is made of what is
known of their sizes. -/
theorem indexed_along (indexed : IndexedType tree types base indices type)
    (definite : (known types base).Definite Size)
    (bounds : ∀ index ∈ indices, ∀ start stop, tree.kind? index = some (.range start stop) →
      ∃ first last, tree.kind? start = some (.int first) ∧ tree.kind? stop = some (.int last))
    (ranged : ∀ id ∈ indices, tree.IsRange id → (known types id).tag = .range)
    (whole : Fitting (known types base) (.matrix grid))
    (selects : List.Forall₂ (Evaluation.Selects tree (Valued tree types)) indices selectors)
    (chosen : Value.matrixSelectors grid selectors = .ok (rows, cols)) :
    ∃ elem rowDim colDim, type = selectedType elem rowDim colDim ∧ rows.Along grid.rows rowDim ∧
      cols.Along grid.cols colDim := by
  obtain ⟨array, shaped, describes⟩ := definite.array_of_matrix whole.conforms
  have down := shaped.rows_eq describes
  have across := shaped.cols_eq describes
  have counted := (whole.countable grid rfl).2
  have along {id : ExprId} {axis : Axis} {length : Nat} {selection : Selection} {selector : Selector}
      {dim : Option Dim} (member : id ∈ indices) (indexes : Indexes tree types id selection)
      (selects : Evaluation.Selects tree (Valued tree types) id selector)
      (quiet : axisResult axis (.known length) selection = ([], dim)) : selector.Along length dim :=
    .checked (matches_of_indexes indexes selects (ranged id member)) quiet (indexes.fixed (bounds id member)).1
  cases indexed with
  | text text _ => cases array.symm.trans text
  | unclear unknown => cases array.symm.trans unknown
  | cell _ two first second one other =>
    subst two
    rw [down] at one
    rw [across] at other
    cases selects with
    | cons here rest =>
      cases rest with
      | cons there rest =>
        cases rest
        cases chosen
        exact ⟨_, _, _, rfl, along (by simp) first here one, along (by simp) second there other⟩
  | flat _ single index flat =>
    subst single
    cases selects with
    | cons here rest =>
      cases rest
      -- the checker and the matrix look at the same number of rows to tell what a single index is for
      have selected : grid.flatSelectors _ = (rows, cols) := Except.ok.inj chosen
      unfold Matrix.flatSelectors at selected
      cases flat with
      | row single quiet =>
        have one : grid.rows = 1 := Dim.known.inj (down.symm.trans single)
        rw [if_pos one] at selected
        cases selected
        rw [across] at quiet
        exact ⟨_, _, _, rfl, .first, along (by simp) index here quiet⟩
      | rows several not_one quiet =>
        obtain rfl := Dim.known.inj (down.symm.trans several)
        rw [if_neg not_one] at selected
        cases selected
        rw [across]
        exact ⟨_, _, _, rfl, along (by simp) index here quiet, .all counted⟩
      | span unknown _ | unclear unknown => cases down.symm.trans unknown

end

section

variable {tree : Tree} {types : StaticTypes} {declared : Declarations ExprId} (sized : tree.Sized Positive)
  (definite : types.Definite Positive) (reliable : Reliable tree types)
include sized definite reliable

theorem Typing.Understood.along {lo hi : Nat} (understood : Understood tree types declared lo hi) {id base : ExprId}
    {indices : List ExprId} {selectors : List Selector} {grid : Matrix} {rows cols : Selector}
    (placed : tree.Placed lo hi id) (node : tree.kind? id = some (.indexed base indices))
    (whole : Fitting (known types base) (.matrix grid))
    (selects : List.Forall₂ (Evaluation.Selects tree (Valued tree types)) indices selectors)
    (chosen : Value.matrixSelectors grid selectors = .ok (rows, cols)) :
    ∃ elem rowDim colDim, known types id = selectedType elem rowDim colDim ∧ rows.Along grid.rows rowDim ∧
      cols.Along grid.cols colDim := by
  obtain ⟨span, found⟩ := expr?_of_kind node
  obtain ⟨_, judged⟩ := understood.judged placed.above placed.below found
  have inside := (understood.nested id _ placed.above placed.below node).operand base List.mem_cons_self
  have shaped := understood.definite definite inside.above (Nat.lt_trans inside.below placed.below)
  exact indexed_along judged.indexed_inversion.2 shaped (fun _ member _ _ => sized.writes.bounds node member)
    (understood.ranged reliable.clear placed node) whole selects chosen

theorem ranges_within {lo hi : Nat} (understood : Understood tree types declared lo hi) {memory : Memory Value}
    (shows : Shows (Fits types) declared memory) {id base : ExprId} {indices : List ExprId} {depth : Nat}
    {selectors : List Selector} {grid : Matrix} {rows cols : Selector} (placed : tree.Placed lo hi id)
    (node : tree.kind? id = some (.indexed base indices))
    (based : Evaluation.evaluateWithin tree memory depth base = .ok (.matrix grid))
    (selected : Evaluation.selectors tree (Evaluation.evaluateWithin tree memory depth) indices = .ok selectors)
    (chosen : Value.matrixSelectors grid selectors = .ok (rows, cols)) :
    rows.RangeWithin grid.rows ∧ cols.RangeWithin grid.cols := by
  -- a deeper evaluation has the same values, and its depth is known to be enough
  have deeper (child : ExprId) : Refines (Evaluation.evaluateWithin tree memory depth child)
      (Evaluation.evaluateWithin tree memory (depth + id.index) child) :=
    Evaluation.evaluateWithin_refines (Nat.le_add_right _ _) child
  have operands (child : ExprId) (inside : tree.Placed lo id.index child) :
      Evaluates Fault.Unforeseen (Valued tree types child)
        (Evaluation.evaluateWithin tree memory (depth + id.index) child) := by
    have below := inside.below
    exact evaluateWithin_valued understood reliable shows
      (inside.widen (Nat.le_refl _) (Nat.le_of_lt placed.below)) (by omega)
  obtain ⟨span, found⟩ := expr?_of_kind node
  obtain ⟨_, judged⟩ := understood.judged placed.above placed.below found
  obtain ⟨⟨_, indexes⟩, _⟩ := judged.indexed_inversion
  have supports := understood.nested id _ placed.above placed.below node
  have valued := operands base (supports.operand base List.mem_cons_self)
  rw [deeper base _ based] at valued
  have selects := selectors_valued understood reliable.clear placed node indexes operands
  rw [Evaluation.selectors_refines deeper indices _ selected] at selects
  obtain ⟨_, _, _, _, down, across⟩ :=
    understood.along sized definite reliable placed node valued.fits.fitting selects chosen
  exact ⟨down.within, across.within⟩

variable {machine : Machine} {target base value : ExprId} {indices : List ExprId} {name : String} {replacement : Value}

theorem assignTo_indexed_shapeless (targeted : Known tree types declared [target])
    (shows : Shows (Fits types) declared machine.memory) (node : tree.kind? target = some (.indexed base indices))
    (word : tree.kind? base = some (.name name))
    (writes : ∀ (grid : Matrix) (rows cols : Selector) (elem : ElemType) (rowDim colDim : Option Dim) (part : Part),
      known types target = selectedType elem rowDim colDim → rows.Measures grid.rows rowDim →
      cols.Measures grid.cols colDim → replacement.part? = some part →
      FailsIn Fault.Shapeless (Value.orFault (grid.assign rows cols part))) :
    Ends Fault.Shapeless (fun _ _ => True) (Execution.assignTo tree target replacement machine) := by
  obtain ⟨producer, found, typed⟩ := targeted.base_declared node word
  obtain ⟨current, read, fits⟩ := shows name producer found
  have same : known types base = known types producer := known_of_typed typed
  obtain ⟨lo, hi, understood, placed⟩ := targeted
  have place := placed target (List.mem_singleton_self _)
  have selects := Evaluation.selectors_evaluate fun child member =>
    Evaluation.operates_of_nested understood.nested place node member
      (fun child inside => evaluate_shapeless understood sized definite shows reliable
        (inside.widen (Nat.le_refl _) (Nat.le_of_lt place.below))) fun _ _ _ _ _ => .inr nofun
  have updates (selectors : List Selector)
      (selected : List.Forall₂ (Evaluation.Selects tree (Valued tree types)) indices selectors) :
      FailsIn Fault.Shapeless (current.assignInto selectors replacement) := by
    refine Value.assignInto_failsIn Value.shapeless_of_ordinary fun grid chosen part whole picked written => ?_
    subst whole
    have fitting := fits.fitting
    rw [← same] at fitting
    obtain ⟨elem, rowDim, colDim, type, down, across⟩ :=
      understood.along sized definite reliable place node fitting selected picked
    exact writes grid _ _ elem rowDim colDim part type down.measures across.measures written
  exact Execution.assignTo_indexed node word read selects updates fun _ _ => trivial

theorem assigned_shapeless {after : Declarations ExprId} {op : Assign}
    (assigned : Assigned tree types declared target op value after)
    (shows : Shows (Fits types) declared machine.memory) :
    Ends Fault.Shapeless (fun _ _ => True) (Execution.assign tree target op value machine) := by
  have evaluates {id : ExprId} (known : Known tree types declared [id]) :
      Evaluates Fault.Shapeless (Valued tree types id) (evaluate tree machine.memory id) := by
    obtain ⟨lo, hi, understood, placed⟩ := known
    exact evaluate_shapeless understood sized definite shows reliable (placed id (List.mem_singleton_self _))
  cases assigned with
  | @plain name _ _ node known _ =>
    exact Execution.assign_plain (evaluates known) fun result _ => Execution.assignTo_name node trivial
  | @compound name op _ producer current type result node known found typed valueTyped verdict =>
    obtain ⟨held, read, fits⟩ := shows name producer found
    have target : Evaluates Fault.Shapeless (Fits types producer) (evaluate tree machine.memory target) := by
      rw [Execution.evaluate_name node read]
      exact fits
    have combines (a b : Value) (first : Fits types producer a) (_ : Valued tree types value b) :
        FailsIn Fault.Shapeless (Value.arithmetic op a b) := by
      have first := first.fitting.conforms
      rw [known_of_typed typed] at first
      exact Value.arithmetic_shapeless first verdict
    exact Execution.assign_compound (evaluates known) target combines
      fun combined _ => Execution.assignTo_name node trivial
  | @indexed base _ indices name op type targetType baseType node word known targeted valueTyped targetTyped baseTyped
      writes =>
    have shaped := definite target targetType targetTyped
    have shaped' := definite value type valueTyped
    cases op with
    | plain =>
      refine Execution.assign_plain (evaluates known) fun result valued => ?_
      refine assignTo_indexed_shapeless sized definite reliable targeted shows node word ?_
      intro grid rows cols elem rowDim colDim part selected down across written
      have conforms := valued.fits.fitting.conforms
      rw [known_of_typed valueTyped] at conforms
      rw [known_of_typed targetTyped] at selected
      subst selected
      exact part_assigned writes shaped shaped' conforms written down across
    | compound op =>
      -- only single numbers are combined with a part, and the result is one again
      obtain ⟨tag, numeric, number⟩ := compound_numbers shaped.clear shaped'.clear writes.verdict
      have combines (a b : Value) (first : Valued tree types target a) (second : Valued tree types value b) :
          Checked Fault.Shapeless (Fitting (.ofTag tag)) (Value.arithmetic op a b) := by
        have first := first.fits.fitting.conforms
        have second := second.fits.fitting.conforms
        rw [known_of_typed targetTyped] at first
        rw [known_of_typed valueTyped] at second
        exact ((Value.arithmetic_fitting first.tagged second.tagged numeric).both
          (Value.arithmetic_shapeless first numeric)).widen fun _ => And.right
      refine Execution.assign_compound (evaluates known) (evaluates targeted) combines fun combined good => ?_
      refine assignTo_indexed_shapeless sized definite reliable targeted shows node word ?_
      intro grid rows cols elem rowDim colDim part _ _ _ written
      obtain ⟨element, scalar⟩ := scalar_of_number good.conforms.tagged number
      cases scalar.symm.trans written
      exact scalar_assigned element

end

section

variable {program : Program}

/-- Where scopes are stable and sizes are literals, every statement does what the checker took it for, and no shapes
clash. -/
theorem Accepted.sound_remaining (accepted : Accepted program) (reliable : Reliable program.tree program.types)
    (stable : program.StableScopes) (sized : program.tree.Sized Positive) :
    SoundProgram program.tree (Fits program.types) Fault.Remaining where
  output := fun _ => ⟨trivial, nofun⟩
  statement := by
    intro depth id checker stmt visited found
    -- what a statement leaves behind is known from type safety, only its faults are looked at here
    have definite := accepted.definite sized
    have sound := (accepted.sound_fitting reliable stable).statement visited found
    obtain ⟨lo, hi, sits⟩ := accepted.sits visited
    obtain ⟨depth, rfl⟩ := sits.deeper
    have evaluates {ids : List ExprId} (known : Known program.tree program.types checker.declared ids)
        {machine : Machine} (shows : Shows (Fits program.types) checker.declared machine.memory) (id : ExprId)
        (member : id ∈ ids) : Evaluates Fault.Shapeless (fun _ => True) (evaluate program.tree machine.memory id) := by
      obtain ⟨_, _, understood, placed⟩ := known
      exact (evaluate_shapeless understood sized definite shows reliable (placed id member)).mono fun _ _ => trivial
    obtain ⟨kind, span⟩ := stmt
    cases kind with
    | block _ | breakLoop | continueLoop => trivial
    | assign target op value =>
      refine ⟨sound.1, fun machine agrees => (sound.2 machine agrees).both ?_⟩
      exact assigned_shapeless sized definite reliable (sits.assigned found) agrees.shows
    | forRange name range body =>
      obtain ⟨new, counter, bounds⟩ := sound
      obtain ⟨_, start, stop, node, known, _⟩ := sits.range_known found
      refine ⟨new, counter, fun machine shows => (bounds machine shows).both ?_⟩
      have each := evaluates known shows
      exact (Execution.loopBounds_ends (fun _ _ => True) node (each start (by simp)) (fun _ _ => .inr nofun)
        (each stop (by simp)) fun _ _ => .inr nofun).mono fun _ _ _ => trivial
    | whileLoop condition body =>
      obtain ⟨known, _⟩ := sits.while_known found
      refine fun machine shows => (sound machine shows).both ?_
      exact (Execution.holds_ends (evaluates known shows condition (List.mem_singleton_self _))
        fun _ _ => .inr nofun).mono fun _ _ _ => trivial
    | branch condition thenBody elseBody =>
      obtain ⟨known, _⟩ := sits.branch_known found
      refine fun machine shows => (sound machine shows).both ?_
      exact (Execution.holds_ends (evaluates known shows condition (List.mem_singleton_self _))
        fun _ _ => .inr nofun).mono fun _ _ _ => trivial
    | giveBack values =>
      refine fun machine shows => (sound machine shows).both ?_
      exact (Execution.valuesOf_ends (evaluates (sits.values_known found (.inl rfl)) shows)).mono fun _ _ _ => trivial
    | print values =>
      refine fun machine shows => (sound machine shows).both ?_
      exact (Execution.valuesOf_ends (evaluates (sits.values_known found (.inr rfl)) shows)).mono fun _ _ _ => trivial

theorem StaticTypes.Definite.clear {types : StaticTypes} {Size : Nat → Prop} (definite : types.Definite Size) :
    types.Clear :=
  fun id type typed => (definite id type typed).clear

end

section

variable {source : String} {program : Program}

/-- Checking shapes is enough where they are literal. The source is a text, and so not longer than texts can be. Every
argument of a matrix function is a positive literal, every range that is an index has literal bounds, no array literal
is empty, and declaring a variable of an outer scope anew keeps its type. Then no run ends because shapes do not fit,
and at every moment of a run, the ranges with which a matrix is indexed, to read or to write a part of it, lie within
the matrix. -/
theorem literal_shapes_suffice (accepted : Program.ofSource source = .ok program)
    (size : source.utf8ByteSize ≤ Value.maxTextBytes) (writes : program.tree.WritesSizes Positive)
    (stable : program.StableScopes) (steps : Nat) (sink : Sink) :
    (∀ failure cause, (program.tree.run steps sink).outcome = .error (.failed failure) →
      failure.fault ≠ .shapeMismatch cause) ∧
      ∀ id machine stmt root part base indices depth grid selectors rows cols,
        program.tree.RunsTo steps sink id machine → program.tree.stmt? id = some stmt →
        root ∈ program.tree.expressions stmt.kind → program.tree.PartOf part root →
        program.tree.kind? part = some (.indexed base indices) →
        Evaluation.evaluateWithin program.tree machine.memory depth base = .ok (.matrix grid) →
        Evaluation.selectors program.tree (Evaluation.evaluateWithin program.tree machine.memory depth) indices =
          .ok selectors →
        Value.matrixSelectors grid selectors = .ok (rows, cols) →
        rows.RangeWithin grid.rows ∧ cols.RangeWithin grid.cols := by
  have sized := sized_of_source accepted writes fun _ positive => positive
  have definite := (accepted_of_source accepted).definite sized
  have reliable := reliable_of_source accepted size definite.clear
  have accepted := accepted_of_source accepted
  have sound := accepted.sound_remaining reliable stable sized
  refine ⟨fun failure cause failed => (run_ends accepted sound steps sink failed).2 cause, ?_⟩
  intro id machine stmt root part base indices depth grid selectors rows cols runs found member inside node based
    selected chosen
  obtain ⟨_, checker, visited, shows⟩ := runsTo_shows accepted sound runs
  have plain : ¬program.tree.IsRange part := by
    rintro ⟨start, stop, range⟩
    cases node.symm.trans range
  obtain ⟨lo, hi, understood, placed⟩ := statement_part accepted visited found member inside plain
  exact ranges_within sized definite reliable understood shows placed node based selected chosen

/-- A matrix that is filled and doubled in a loop, and then turned around, multiplied and taken apart. -/
theorem doubledRows_shapes_suffice :
    ∃ program, Program.ofSource
        "m = zeros(2, 3); for i = 0 : 2 { m[i, 0 : 2] = [1, i]; m = m .+ m; } print m' * eye(2), [m[0], m[1]];" =
          .ok program ∧
      program.tree.WritesSizes Positive ∧ program.StableScopes ∧
      ∀ steps sink failure cause, (program.tree.run steps sink).outcome = .error (.failed failure) →
        failure.fault ≠ .shapeMismatch cause := by
  have passes : (Program.ofSource
      "m = zeros(2, 3); for i = 0 : 2 { m[i, 0 : 2] = [1, i]; m = m .+ m; } print m' * eye(2), [m[0], m[1]];"
        ).toOption.any fun program => program.tree.WritesSizes Positive ∧ program.StableScopes := by
    decide +kernel
  obtain ⟨program, accepted, passes⟩ := exists_accepted passes
  obtain ⟨writes, stable⟩ := of_decide_eq_true passes
  exact ⟨program, accepted, writes, stable, fun steps sink =>
    (literal_shapes_suffice accepted (by decide +kernel) writes stable steps sink).1⟩

end

end MatrixScript
