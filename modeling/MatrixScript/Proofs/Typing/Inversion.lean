import MatrixScript.Proofs.Typing.Knowledge
import MatrixScript.Proofs.Value.Selection

/-! What follows from the type of a node for its operands.

A node that was typed without a finding went through its rule in one way. Each rule is read backwards here.
-/

set_option autoImplicit false

namespace MatrixScript.Typing

open Check

/-- An action that changes nothing but may add findings. -/
def Reports {α : Type} (action : Check α) : Prop :=
  ∀ checker, ∃ more, (action checker).2 = { checker with findings := checker.findings ++ more }

namespace Reports

variable {α β : Type}

theorem pure (value : α) : Reports (Pure.pure value : Check α) :=
  fun checker => ⟨#[], by simp⟩

theorem report (line : Nat) (problem : Problem) : Reports (Check.report line problem) :=
  fun checker => ⟨#[⟨line, problem⟩], by simp⟩

theorem bind {action : Check α} {next : α → Check β} (first : Reports action) (rest : ∀ value, Reports (next value)) :
    Reports (action >>= next) := by
  intro checker
  obtain ⟨more, same⟩ := first checker
  obtain ⟨others, same'⟩ := rest (action checker).1 (action checker).2
  refine ⟨more ++ others, ?_⟩
  rw [bind_apply, same', same]
  simp only [Array.append_assoc]

theorem mapM {action : α → Check β} (each : ∀ item, Reports (action item)) (items : List α) :
    Reports (items.mapM action) := by
  induction items with
  | nil => exact .pure _
  | cons item rest ih =>
    rw [List.mapM_cons]
    exact (each item).bind fun value => ih.bind fun values => .pure _

theorem forM {action : α → Check PUnit} (each : ∀ item, Reports (action item)) (items : List α) :
    Reports (items.forM action) := by
  induction items with
  | nil => exact .pure _
  | cons item rest ih => exact (each item).bind fun _ => ih

end Reports

def known (types : StaticTypes) (id : ExprId) : StaticType := (types.get? id).getD .unknown

theorem known_of_typed {types : StaticTypes} {id : ExprId} {type : StaticType} (typed : types.get? id = some type) :
    known types id = type := by
  unfold known
  rw [typed]
  rfl

section

variable {α β : Type} {table types : StaticTypes} {declared : Declarations ExprId}

/-- An action is silent when it starts and ends without findings. -/
def Silent (table : StaticTypes) (declared : Declarations ExprId) (action : Check α) (result : α) : Prop :=
  action (silent table declared) = (result, silent table declared)

theorem Silent.split {action : Check α} {next : α → Check β} {result : β}
    (whole : Silent table declared (action >>= next) result) (first : Reports action)
    (rest : ∀ value, Reports (next value)) :
    ∃ value, Silent table declared action value ∧ Silent table declared (next value) result := by
  obtain ⟨more, same⟩ := first (silent table declared)
  obtain ⟨others, same'⟩ := rest (action (silent table declared)).1 (action (silent table declared)).2
  have ended : (next (action (silent table declared)).1 (action (silent table declared)).2).2 =
      silent table declared := congrArg Prod.snd whole
  have size := congrArg (fun checker => checker.findings.size) (same'.symm.trans ended)
  rw [same] at size
  simp only [silent, Array.size_append, List.size_toArray, List.length_nil] at size
  have none : more = #[] := Array.eq_empty_of_size_eq_zero (by omega)
  have kept : (action (silent table declared)).2 = silent table declared := by
    rw [same, none]
    rfl
  refine ⟨(action (silent table declared)).1, Prod.ext rfl kept, ?_⟩
  have second : next (action (silent table declared)).1 (action (silent table declared)).2 =
      (result, silent table declared) := whole
  rw [kept] at second
  exact second

theorem Silent.ask {id : ExprId} {next : StaticType → Check β} {result : β}
    (whole : Silent table declared (ask types id >>= next) result) :
    Silent table declared (next (known types id)) result := whole

theorem Silent.pure {value result : α} (silence : Silent table declared (Pure.pure value) result) :
    result = value := (congrArg Prod.fst silence).symm

theorem Silent.not_reported {line : Nat} {problem : Problem} {next : PUnit → Check β} {result : β}
    (rest : ∀ value, Reports (next value)) (silence : Silent table declared (report line problem >>= next) result) :
    False := by
  obtain ⟨_, reported, _⟩ := silence.split (.report line problem) rest
  exact Typing.not_reported reported

end

section

variable {tree : Tree} {types : StaticTypes} {declared : Declarations ExprId} {type : StaticType} {span : Span}

theorem inferArith_inversion {line : Nat} {operator : Operator} {join : Shape → Shape → Bool × Shape}
    {left right : ExprId} {table : StaticTypes}
    (silence : Silent table declared (inferArith (ask types) line operator join left right) type) :
    ∃ tag, operator.verdict [.type (known types left).tag, .type (known types right).tag] = .type tag ∧
      (tag = .array → (join (known types left).shape (known types right).shape).1 = false) ∧
      type = if tag = .array then .array (join (known types left).shape (known types right).shape).2 else .ofTag tag := by
  unfold inferArith at silence
  replace silence := silence.ask.ask
  dsimp only at silence
  cases verdict : operator.verdict [.type (known types left).tag, .type (known types right).tag] with
  | type tag =>
    rw [verdict] at silence
    by_cases array : tag = .array
    · subst array
      dsimp only at silence
      split at silence
      · exact (silence.not_reported fun _ => .pure _).elim
      · next clear =>
        refine ⟨.array, rfl, fun _ => Bool.eq_false_iff.mpr clear, ?_⟩
        rw [if_pos rfl]
        exact silence.pure
    · refine ⟨tag, rfl, fun same => absurd same array, ?_⟩
      rw [if_neg array]
      cases tag with
      | array => exact absurd rfl array
      | int | float | text | bool | range | tainted | unknown => exact silence.pure
  | bind | unsupported | leftInvalid | rightInvalid =>
    rw [verdict] at silence
    exact (silence.not_reported fun _ => .pure _).elim

theorem Judged.linear_inversion {left right : ExprId} {op : Arith}
    (judged : Judged tree types declared ⟨.linear left op right, span⟩ type) :
    ∃ tag, (Operator.linear op).verdict [.type (known types left).tag, .type (known types right).tag] = .type tag ∧
      (tag = .array → (productShape (known types left).shape (known types right).shape).1 = false) ∧
      type = if tag = .array then .array (productShape (known types left).shape (known types right).shape).2
        else .ofTag tag := by
  obtain ⟨table, judged⟩ := judged
  have silence : Silent table declared (inferArith (ask types) span.start.line (.linear op) productShape left right)
    type := judged
  exact inferArith_inversion silence

theorem Judged.elementwise_inversion {left right : ExprId} {op : Arith}
    (judged : Judged tree types declared ⟨.elementwise left op right, span⟩ type) :
    ∃ tag, (Operator.elementwise op).verdict [.type (known types left).tag, .type (known types right).tag] = .type tag ∧
      (tag = .array → (cellwiseShape (known types left).shape (known types right).shape).1 = false) ∧
      type = if tag = .array then .array (cellwiseShape (known types left).shape (known types right).shape).2
        else .ofTag tag := by
  obtain ⟨table, judged⟩ := judged
  have silence : Silent table declared
    (inferArith (ask types) span.start.line (.elementwise op) cellwiseShape left right) type := judged
  exact inferArith_inversion silence

theorem inferCompare_inversion {line : Nat} {op : Compare} {left right : ExprId} {table : StaticTypes}
    (silence : Silent table declared (inferCompare (ask types) line op left right) type) :
    (Operator.compare op).verdict [.type (known types left).tag, .type (known types right).tag] ≠ .unsupported ∧
      type = .bool := by
  unfold inferCompare at silence
  replace silence := silence.ask.ask
  dsimp only at silence
  split at silence
  · exact (silence.not_reported fun _ => .pure _).elim
  · next supported => exact ⟨supported, silence.pure⟩

theorem inferDimension_inversion {line : Nat} {function : Builtin} {id : ExprId} {table : StaticTypes} {dim : Dim}
    (silence : Silent table declared (inferDimension tree (ask types) line function id) dim)
    (clear : (known types id).tag ≠ .unknown) :
    (known types id).tag = .int ∧
      (∀ size, dim = .known size → ∃ value, tree.kind? id = some (.int value) ∧ 0 ≤ value.toInt ∧
        size = value.toInt.toNat) ∧
      ∀ value, tree.kind? id = some (.int value) → 0 ≤ value.toInt → dim = .known value.toInt.toNat := by
  unfold inferDimension at silence
  replace silence := silence.ask
  cases tag : (known types id).tag with
  | int =>
    rw [tag] at silence
    refine ⟨rfl, fun size same => ?_, fun value node nonneg => ?_⟩
    · cases node : tree.kind? id with
      | none =>
        rw [node] at silence
        cases silence.pure.symm.trans same
      | some kind =>
        rw [node] at silence
        cases kind with
        | int value =>
          have result := silence.pure
          subst same
          split at result
          · next nonneg =>
            cases result
            exact ⟨value, rfl, nonneg, rfl⟩
          · cases result
        | float _ | text _ | array _ | name _ | indexed _ _ | linear _ _ _ | elementwise _ _ _ | compare _ _ _
        | negate _ | transpose _ | builtin _ _ | range _ _ => cases silence.pure.symm.trans same
    · rw [node] at silence
      exact silence.pure.trans (if_pos nonneg)
  | unknown => exact absurd tag clear
  | float | text | bool | range | array | tainted =>
    rw [tag] at silence
    exact (silence.not_reported fun _ => .pure _).elim

theorem Reports.inferDimension (line : Nat) (function : Builtin) (id : ExprId) :
    Reports (inferDimension tree (ask types) line function id) := by
  unfold Typing.inferDimension
  refine .bind (.pure _) fun type => ?_
  split
  · exact .pure _
  · exact .pure _
  · exact .pure _
  · exact .bind (.report _ _) fun _ => .pure _

inductive Dimensioned (tree : Tree) (types : StaticTypes) (declared : Declarations ExprId) (line : Nat)
    (function : Builtin) (table : StaticTypes) : List ExprId → Dim → Dim → Prop where
  | square {size : ExprId} {dim : Dim} :
      Silent table declared (inferDimension tree (ask types) line function size) dim →
        Dimensioned tree types declared line function table [size] dim dim
  | pair {rows cols : ExprId} {rowDim colDim : Dim} :
      Silent table declared (inferDimension tree (ask types) line function rows) rowDim →
        Silent table declared (inferDimension tree (ask types) line function cols) colDim →
        Dimensioned tree types declared line function table [rows, cols] rowDim colDim

theorem inferBuiltin_inversion {line : Nat} {function : Builtin} {arguments : List ExprId} {table : StaticTypes}
    (silence : Silent table declared (inferBuiltin tree (ask types) line function arguments) type) :
    ∃ rowDim colDim, type = .array ⟨rowDim, colDim, .int⟩ ∧
      Dimensioned tree types declared line function table arguments rowDim colDim := by
  have dimension (id : ExprId) : Reports (inferDimension tree (ask types) line function id) := .inferDimension _ _ _
  unfold inferBuiltin at silence
  split at silence
  · next size =>
    obtain ⟨dim, first, rest⟩ := silence.split (dimension size) fun _ => .pure _
    exact ⟨dim, dim, rest.pure, .square first⟩
  · next rows cols =>
    obtain ⟨rowDim, first, rest⟩ := silence.split (dimension rows) fun _ => (dimension cols).bind fun _ => .pure _
    obtain ⟨colDim, second, rest⟩ := rest.split (dimension cols) fun _ => .pure _
    exact ⟨rowDim, colDim, rest.pure, .pair first second⟩
  · obtain ⟨_, _, rest⟩ := silence.split (.mapM (fun _ => .pure _) _) fun _ =>
      .bind (.report _ _) fun _ => .pure _
    exact (rest.not_reported fun _ => .pure _).elim

theorem checkBound_inversion {line : Nat} {bound : Bound} {id : ExprId} {table : StaticTypes} {result : Unit}
    (silence : Silent table declared (checkBound (ask types) line bound id) result)
    (clear : (known types id).tag ≠ .unknown) : (known types id).tag = .int := by
  unfold checkBound at silence
  replace silence := silence.ask
  dsimp only at silence
  split at silence
  · next fits => exact fits.resolve_right clear
  · exact absurd silence Typing.not_reported

theorem Reports.checkBound (line : Nat) (bound : Bound) (id : ExprId) :
    Reports (checkBound (ask types) line bound id) := by
  unfold Typing.checkBound
  refine .bind (.pure _) fun type => ?_
  dsimp only
  split
  · exact .pure _
  · exact .report _ _

theorem Judged.range_inversion {start stop : ExprId} (judged : Judged tree types declared ⟨.range start stop, span⟩ type)
    (clear : (known types start).tag ≠ .unknown) (clear' : (known types stop).tag ≠ .unknown) :
    (known types start).tag = .int ∧ (known types stop).tag = .int := by
  obtain ⟨table, judged⟩ := judged
  have silence : Silent table declared (infer tree (ask types) ⟨.range start stop, span⟩) type := judged
  unfold infer at silence
  obtain ⟨_, first, rest⟩ := silence.split (.checkBound _ _ _) fun _ => .bind (.checkBound _ _ _) fun _ => .pure _
  obtain ⟨_, second, _⟩ := rest.split (.checkBound _ _ _) fun _ => .pure _
  exact ⟨checkBound_inversion first clear, checkBound_inversion second clear'⟩

end

section

variable {tree : Tree} {types table : StaticTypes} {declared : Declarations ExprId} {type : StaticType} {line : Nat}

theorem Silent.mapM {α β : Type} {action : α → Check β} (reports : ∀ item, Reports (action item)) {items : List α}
    {values : List β} (silence : Silent table declared (items.mapM action) values) :
    List.Forall₂ (fun item value => Silent table declared (action item) value) items values := by
  induction items generalizing values with
  | nil =>
    obtain rfl := silence.pure
    exact .nil
  | cons item rest ih =>
    rw [List.mapM_cons] at silence
    obtain ⟨value, first, later⟩ := silence.split (reports item) fun _ =>
      (Reports.mapM reports rest).bind fun _ => .pure _
    obtain ⟨others, second, last⟩ := later.split (.mapM reports rest) fun _ => .pure _
    obtain rfl := last.pure
    exact .cons first (ih second)

/-- What the checker knows of an index: a range, or an integer. -/
inductive Indexes (tree : Tree) (types : StaticTypes) (id : ExprId) : Selection → Prop where
  | span {start stop : ExprId} {bounds : Option (Int64 × Int64)} :
      tree.kind? id = some (.range start stop) →
        (∀ first last, bounds = some (first, last) ↔
          tree.kind? start = some (.int first) ∧ tree.kind? stop = some (.int last)) →
        Indexes tree types id (.span bounds)
  | point {index : Option Int64} :
      ((known types id).tag = .int ∨ (known types id).tag = .unknown) →
        (∀ value, index = some value → tree.kind? id = some (.int value)) → Indexes tree types id (.point index)

theorem Reports.checkIndex (line : Nat) (id : ExprId) : Reports (checkIndex tree (ask types) line id) := by
  unfold Typing.checkIndex
  refine .bind (.pure _) fun type => ?_
  split
  · split
    · exact .pure _
    · exact .pure _
  · exact .pure _
  · exact .pure _
  · exact .pure _
  · exact .bind (.report _ _) fun _ => .pure _

theorem checkIndex_inversion {id : ExprId} {selection : Selection}
    (silence : Silent table declared (checkIndex tree (ask types) line id) selection) :
    Indexes tree types id selection := by
  unfold checkIndex at silence
  replace silence := silence.ask
  split at silence
  · next start stop tag node =>
    split at silence
    · next first last one two =>
      obtain rfl := silence.pure
      refine .span node fun low high => ⟨fun same => ?_, fun ⟨one', two'⟩ => ?_⟩
      · cases same
        exact ⟨one, two⟩
      · cases one.symm.trans one'
        cases two.symm.trans two'
        rfl
    · next other =>
      obtain rfl := silence.pure
      exact .span node fun low high => ⟨nofun, fun ⟨one, two⟩ => absurd two (other low high one)⟩
  · next value tag node =>
    obtain rfl := silence.pure
    refine .point (.inl tag) fun _ same => ?_
    cases same
    exact node
  · next tag _ =>
    obtain rfl := silence.pure
    exact .point (.inl tag) nofun
  · next tag =>
    obtain rfl := silence.pure
    exact .point (.inr tag) nofun
  · exact (silence.not_reported fun _ => .pure _).elim

theorem Reports.selectAxis (line : Nat) (axis : Axis) (bound : Dim) (selection : Selection) :
    Reports (selectAxis line axis bound selection) := by
  unfold Typing.selectAxis
  exact (Reports.forM (fun _ => .report _ _) _).bind fun _ => .pure _

theorem Reports.cellType (elem : ElemType) (rowDim colDim : Option Dim) : Reports (match rowDim, colDim with
    | none, none => (Pure.pure (.ofTag elem.tag) : Check StaticType)
    | rowDim, colDim => Pure.pure (.array ⟨rowDim.getD (.known 1), colDim.getD (.known 1), elem⟩)) := by
  split
  · exact .pure _
  · exact .pure _

theorem Reports.inferCell (line : Nat) (shape : Shape) (rows cols : Selection) :
    Reports (inferCell line shape rows cols) := by
  unfold Typing.inferCell
  exact .bind (.selectAxis _ _ _ _) fun rowDim => .bind (.selectAxis _ _ _ _) fun colDim => .cellType _ _ _

theorem Reports.inferFlat (line : Nat) (shape : Shape) (index : Selection) : Reports (inferFlat line shape index) := by
  unfold Typing.inferFlat
  split
  · refine .bind (.selectAxis _ _ _ _) fun dim => ?_
    split
    · exact .pure _
    · exact .pure _
  · refine .bind (.selectAxis _ _ _ _) fun dim => ?_
    split
    · exact .pure _
    · exact .pure _
  · split
    · exact .pure _
    · exact .pure _

theorem selectAxis_inversion {axis : Axis} {bound : Dim} {selection : Selection} {dim : Option Dim}
    (silence : Silent table declared (selectAxis line axis bound selection) dim) :
    axisResult axis bound selection = ([], dim) := by
  unfold selectAxis at silence
  generalize axisResult axis bound selection = result at silence
  obtain ⟨problems, size⟩ := result
  cases problems with
  | nil =>
    obtain rfl := silence.pure
    rfl
  | cons problem rest =>
    have reports : Reports (rest.forM (report line)) := .forM (fun _ => .report _ _) rest
    obtain ⟨_, told, _⟩ := silence.split ((Reports.report line problem).bind fun _ => reports) fun _ => .pure _
    exact (told.not_reported fun _ => reports).elim

theorem inferCell_inversion {shape : Shape} {rows cols : Selection}
    (silence : Silent table declared (inferCell line shape rows cols) type) :
    ∃ rowDim colDim, axisResult .row shape.rows rows = ([], rowDim) ∧
      axisResult .column shape.cols cols = ([], colDim) ∧ type = selectedType shape.elem rowDim colDim := by
  unfold inferCell at silence
  obtain ⟨rowDim, first, rest⟩ := silence.split (.selectAxis _ _ _ _) fun _ =>
    (Reports.selectAxis _ _ _ _).bind fun _ => .cellType _ _ _
  obtain ⟨colDim, second, rest⟩ := rest.split (.selectAxis _ _ _ _) fun _ => .cellType _ _ _
  refine ⟨rowDim, colDim, selectAxis_inversion first, selectAxis_inversion second, ?_⟩
  cases rowDim with
  | none =>
    cases colDim with
    | none => exact rest.pure
    | some _ => exact rest.pure
  | some _ => exact rest.pure

/-- How a single index selects, by what is known of the number of rows. -/
inductive Flat (shape : Shape) (selection : Selection) : StaticType → Prop where
  | row {colDim : Option Dim} :
      shape.rows = .known 1 → axisResult .single shape.cols selection = ([], colDim) →
        Flat shape selection (selectedType shape.elem none colDim)
  | rows {size : Nat} {rowDim : Option Dim} :
      shape.rows = .known size → size ≠ 1 → axisResult .single (.known size) selection = ([], rowDim) →
        Flat shape selection (selectedType shape.elem rowDim (some shape.cols))
  | span {bounds : Option (Int64 × Int64)} :
      shape.rows = .unknown → selection = .span bounds →
        Flat shape selection (.array ⟨.unknown, .unknown, shape.elem⟩)
  | unclear : shape.rows = .unknown → Flat shape selection .unknown

theorem inferFlat_inversion {shape : Shape} {index : Selection}
    (silence : Silent table declared (inferFlat line shape index) type) : Flat shape index type := by
  unfold inferFlat at silence
  split at silence
  · next single =>
    obtain ⟨colDim, first, rest⟩ := silence.split (.selectAxis _ _ _ _) fun dim => by
      split
      · exact .pure _
      · exact .pure _
    have flat : Flat shape index (selectedType shape.elem none colDim) := .row single (selectAxis_inversion first)
    cases colDim with
    | none => exact rest.pure ▸ flat
    | some _ => exact rest.pure ▸ flat
  · next size not_one several =>
    obtain ⟨rowDim, first, rest⟩ := silence.split (.selectAxis _ _ _ _) fun dim => by
      split
      · exact .pure _
      · exact .pure _
    have flat : Flat shape index (selectedType shape.elem rowDim (some shape.cols)) :=
      .rows several not_one (selectAxis_inversion first)
    cases rowDim with
    | none => exact rest.pure ▸ flat
    | some _ => exact rest.pure ▸ flat
  · next rows =>
    split at silence
    · exact silence.pure ▸ .span rows rfl
    · exact silence.pure ▸ .unclear rows

inductive IndexedType (tree : Tree) (types : StaticTypes) (base : ExprId) (indices : List ExprId) : StaticType → Prop where
  | text : (known types base).tag = .text → textIndicesFit tree indices → IndexedType tree types base indices .text
  | cell {first second : ExprId} {rows cols : Selection} {rowDim colDim : Option Dim} :
      (known types base).tag.isArrayLike → indices = [first, second] →
        Indexes tree types first rows → Indexes tree types second cols →
        axisResult .row (known types base).shape.rows rows = ([], rowDim) →
        axisResult .column (known types base).shape.cols cols = ([], colDim) →
        IndexedType tree types base indices (selectedType (known types base).shape.elem rowDim colDim)
  | flat {single : ExprId} {selection : Selection} {type : StaticType} :
      (known types base).tag.isArrayLike → indices = [single] → Indexes tree types single selection →
        Flat (known types base).shape selection type → IndexedType tree types base indices type
  | unclear : (known types base).tag = .unknown → IndexedType tree types base indices .unknown

theorem array_inversion {base : ExprId} {indices : List ExprId} {selections : List Selection}
    (array : (known types base).tag.isArrayLike) (indexes : List.Forall₂ (Indexes tree types) indices selections)
    (silence : Silent table declared (match selections with
      | [rows, cols] => inferCell line (known types base).shape rows cols
      | [index] => inferFlat line (known types base).shape index
      | _ => do
        report line .indexCount
        return .unknown) type) : IndexedType tree types base indices type := by
  split at silence
  · next rows cols =>
    cases indexes with
    | cons one rest =>
      cases rest with
      | cons two rest =>
        cases rest
        obtain ⟨rowDim, colDim, down, across, rfl⟩ := inferCell_inversion silence
        exact .cell array rfl one two down across
  · next index =>
    cases indexes with
    | cons one rest =>
      cases rest
      exact .flat array rfl one (inferFlat_inversion silence)
  · exact (silence.not_reported fun _ => .pure _).elim

/-- The type of an indexed node, read backwards. Its indices have been looked at in any case. -/
theorem Judged.indexed_inversion {base : ExprId} {indices : List ExprId} {span : Span}
    (judged : Judged tree types declared ⟨.indexed base indices, span⟩ type) :
    (∃ selections, List.Forall₂ (Indexes tree types) indices selections) ∧
      IndexedType tree types base indices type := by
  obtain ⟨table, judged⟩ := judged
  have silence : Silent table declared (inferIndexed tree (ask types) span.start.line base indices) type := judged
  unfold inferIndexed at silence
  replace silence := silence.ask
  have count : Reports (do report span.start.line .indexCount; return .unknown : Check StaticType) :=
    .bind (.report _ _) fun _ => .pure _
  -- whatever the base is, what follows the indices can only report, so the indices were looked at in silence
  obtain ⟨selections, indexed, silence⟩ := silence.split (.mapM (fun _ => .checkIndex _ _) _) fun selections => by
    split
    · split
      · exact .pure _
      · exact .bind (.report _ _) fun _ => .pure _
    · exact .pure _
    · split
      · exact .inferCell _ _ _ _
      · exact .inferFlat _ _ _
      · exact count
    · split
      · exact .inferCell _ _ _ _
      · exact .inferFlat _ _ _
      · exact count
    · exact .bind (.report _ _) fun _ => .pure _
  have indexes : List.Forall₂ (Indexes tree types) indices selections :=
    (indexed.mapM fun _ => .checkIndex _ _).imp fun _ _ silence => checkIndex_inversion silence
  refine ⟨⟨selections, indexes⟩, ?_⟩
  cases tag : (known types base).tag with
  | text =>
    rw [tag] at silence
    dsimp only at silence
    split at silence
    · next fits =>
      obtain rfl := silence.pure
      exact .text tag fits
    · exact (silence.not_reported fun _ => .pure _).elim
  | unknown =>
    rw [tag] at silence
    exact silence.pure ▸ .unclear tag
  | array | tainted =>
    rw [tag] at silence
    exact array_inversion (by rw [tag]; rfl) indexes silence
  | int | float | bool | range =>
    rw [tag] at silence
    exact (silence.not_reported fun _ => .pure _).elim

theorem Judged.silent {expr : Expr} (judged : Judged tree types declared expr type) :
    ∃ table, Silent table declared (infer tree (ask types) expr) type := judged

theorem Judged.range_type {start stop : ExprId} {span : Span}
    (judged : Judged tree types declared ⟨.range start stop, span⟩ type) : type = .range := by
  obtain ⟨table, silence⟩ := judged.silent
  unfold infer at silence
  obtain ⟨_, _, rest⟩ := silence.split (.checkBound _ _ _) fun _ => .bind (.checkBound _ _ _) fun _ => .pure _
  obtain ⟨_, _, rest⟩ := rest.split (.checkBound _ _ _) fun _ => .pure _
  exact rest.pure

theorem Judged.negate_inversion {operand : ExprId} {span : Span}
    (judged : Judged tree types declared ⟨.negate operand, span⟩ type) :
    type = known types operand ∧ type.tag ≠ .text ∧ type.tag ≠ .bool := by
  obtain ⟨table, silence⟩ := judged.silent
  unfold infer at silence
  replace silence := silence.ask
  dsimp only at silence
  cases tag : (known types operand).tag with
  | int | float | unknown | array | tainted =>
    rw [tag] at silence
    obtain rfl := silence.pure
    rw [tag]
    exact ⟨rfl, nofun, nofun⟩
  | text | bool | range =>
    rw [tag] at silence
    exact (silence.not_reported fun _ => .pure _).elim

theorem Judged.transpose_inversion {operand : ExprId} {span : Span}
    (judged : Judged tree types declared ⟨.transpose operand, span⟩ type) :
    ((known types operand).tag.isArrayLike ∧
        type = ⟨(known types operand).tag, some (known types operand).shape.transposed⟩) ∨
      ((known types operand).tag = .unknown ∧ type = known types operand) := by
  obtain ⟨table, silence⟩ := judged.silent
  unfold infer at silence
  replace silence := silence.ask
  dsimp only at silence
  cases tag : (known types operand).tag with
  | array | tainted =>
    rw [tag] at silence
    exact .inl ⟨rfl, silence.pure⟩
  | unknown =>
    rw [tag] at silence
    exact .inr ⟨rfl, silence.pure⟩
  | int | float | text | bool | range =>
    rw [tag] at silence
    exact (silence.not_reported fun _ => .pure _).elim

/-- How a literal has its type: nothing in it, rows that are stacked, or numbers in a row. -/
inductive LiteralType (types : List StaticType) : StaticType → Prop where
  | empty : types = [] → LiteralType types (.array .unknown)
  | stacked {cols : Dim} {elem : ElemType} :
      types.any (·.tag.isArrayLike) → stackedShape types .unknown none = .ok (cols, elem) →
        LiteralType types (.array ⟨.known types.length, cols, elem⟩)
  | row {elem : ElemType} :
      types ≠ [] → rowElem types none false = .ok elem →
        LiteralType types (.array ⟨.known 1, .known types.length, elem⟩)

theorem literalType_inversion {items : List ExprId} {types : List StaticType} {checker : Checker}
    (length : items.length = types.length) (quiet : checker.Quiet (literalType tree line items table types checker).2) :
    LiteralType types (literalType tree line items table types checker).1 ∧
      (types.any (·.tag.isArrayLike) → types.any multiRow = false) := by
  have refused (problem : Problem) (type : StaticType) :
      ¬checker.Quiet ((do report line problem; return type : Check StaticType) checker).2 :=
    Checker.Quiet.not_report
  unfold literalType at quiet ⊢
  rw [length] at quiet ⊢
  split
  · next empty =>
    rw [List.isEmpty_iff] at empty
    subst empty
    exact ⟨.empty rfl, nofun⟩
  · next nonempty =>
    rw [if_neg nonempty] at quiet
    split
    · next arrays =>
      rw [if_pos arrays] at quiet
      split
      · next deep =>
        rw [if_pos deep] at quiet
        exact absurd quiet (refused _ _)
      · next flat =>
        rw [if_neg flat] at quiet
        have single : types.any multiRow = false := by
          rw [Bool.or_eq_true, not_or, Bool.not_eq_true, Bool.not_eq_true] at flat
          exact flat.2
        cases stacked : stackedShape types .unknown none with
        | ok shape => exact ⟨.stacked arrays stacked, fun _ => single⟩
        | error problem =>
          rw [stacked] at quiet
          exact absurd quiet (refused _ _)
    · next scalars =>
      rw [if_neg scalars] at quiet
      cases row : rowElem types none false with
      | ok elem => exact ⟨.row (fun empty => nonempty (List.isEmpty_iff.mpr empty)) row, fun arrays => absurd arrays scalars⟩
      | error problem =>
        rw [row] at quiet
        exact absurd quiet (refused _ _)

theorem Judged.array_inversion {items : List ExprId} {span : Span}
    (judged : Judged tree types declared ⟨.array items, span⟩ type) :
    LiteralType (items.map (known types)) type ∧
      ((items.map (known types)).any (·.tag.isArrayLike) → (items.map (known types)).any multiRow = false) := by
  obtain ⟨table, silence⟩ := judged.silent
  have literal : literalType tree span.start.line items table (items.map (known types)) (Typing.silent table declared) =
      (type, Typing.silent table declared) := by
    have whole : Silent table declared (inferArray tree (ask types) span.start.line items) type := silence
    unfold Silent at whole
    rw [inferArray_apply, bind_apply, mapM_ask] at whole
    exact whole
  have quiet : (Typing.silent table declared).Quiet
      (literalType tree span.start.line items table (items.map (known types)) (Typing.silent table declared)).2 := by
    rw [literal]
    rfl
  have inverted := literalType_inversion (List.length_map _).symm quiet
  rw [literal] at inverted
  exact inverted

end

end MatrixScript.Typing
