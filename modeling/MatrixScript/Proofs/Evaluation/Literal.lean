import MatrixScript.Proofs.Evaluation.Preservation
import MatrixScript.Proofs.Matrix.Storage

/-! Array literals mean the same to the checker and to a run.

Both decide on their own whether a literal is a row of numbers or a stack of rows, the checker by the types of the
elements and a run by their values. They agree unless an element is known to have no row at all, or is a row of which
nothing is known.
-/

set_option autoImplicit false

namespace MatrixScript

open Typing

namespace StaticType

/-- A value that an expression of the type may have; where nothing is known, that is any. -/
def Allows (type : StaticType) (value : Value) : Prop := type.tag = .unknown ∨ Conforms type value

/-- Nothing is known of the values, or not all of their shape. -/
def Open (type : StaticType) : Prop :=
  type.tag = .unknown ∨ type.tag.isArrayLike ∧ (type.shape.rows = .unknown ∨ type.shape.cols = .unknown)

end StaticType

section

variable {type : StaticType} {value : Value} {matrix : Matrix}

theorem StaticType.Allows.conforms (allows : type.Allows value) (known : type.tag ≠ .unknown) : Conforms type value :=
  allows.resolve_left known

theorem StaticType.Allows.matrix_of_array (allows : type.Allows value) (array : type.tag.isArrayLike) :
    ∃ matrix, value = .matrix matrix ∧ type.shape.Describes matrix := by
  refine (allows.conforms fun unknown => ?_).matrix_of_arrayLike array
  rw [unknown] at array
  cases array

theorem StaticType.Allows.describes (allows : type.Allows (.matrix matrix)) (array : type.tag.isArrayLike) :
    type.shape.Describes matrix := by
  obtain ⟨_, same, describes⟩ := allows.matrix_of_array array
  cases same
  exact describes

/-- A matrix is the value of an expression that is no array only where nothing is known of that. -/
theorem StaticType.Allows.scalar_matrix (allows : type.Allows (.matrix matrix))
    (scalar : type.tag = .unknown ∨ type.tag.isNumber) : type.tag = .unknown := by
  rcases scalar with unknown | number
  · exact unknown
  · refine allows.resolve_right fun conforms => ?_
    rcases Tag.isArrayLike_iff.mp conforms.tagged.arrayLike with tag | tag
    all_goals
      rw [tag] at number
      cases number

theorem StaticType.shape_of_closed (array : type.tag.isArrayLike) (closed : ¬type.Open) :
    ∃ rows cols, type.shape.rows = .known rows ∧ type.shape.cols = .known cols := by
  cases rows : type.shape.rows with
  | unknown => exact absurd (.inr ⟨array, .inl rows⟩) closed
  | known down =>
    cases cols : type.shape.cols with
    | unknown => exact absurd (.inr ⟨array, .inr cols⟩) closed
    | known across => exact ⟨down, across, rfl, rfl⟩

end

theorem Matrix.ofRows_even {integral : Bool} {rows : List (List Element)} (width : Nat)
    (even : ∀ row ∈ rows, row.length = width) : ∃ result, ofRows integral rows = .ok result := by
  have cols : ∀ row ∈ rows, row.length = (rows.head?.map List.length).getD 0 := by
    cases rows with
    | nil => exact fun _ member => nomatch member
    | cons first rest =>
      intro row member
      exact (even row member).trans (even first List.mem_cons_self).symm
  have none : rows.find? (fun row => decide (row.length ≠ (rows.head?.map List.length).getD 0)) = none := by
    rw [List.find?_eq_none]
    intro row member
    simpa using cols row member
  unfold ofRows
  simp only [none]
  exact ⟨_, rfl⟩

theorem exists_of_forall₂ {α β : Type} {R : α → β → Prop} {first : List α} {second : List β}
    (related : List.Forall₂ R first second) {item : α} (member : item ∈ first) : ∃ other ∈ second, R item other := by
  induction related with
  | nil => cases member
  | cons here _ ih =>
    rcases List.mem_cons.mp member with rfl | member
    · exact ⟨_, List.mem_cons_self, here⟩
    · obtain ⟨other, member, related⟩ := ih member
      exact ⟨other, List.mem_cons_of_mem _ member, related⟩

namespace Evaluation

variable {tree : Tree} {types : ExprId → StaticType} {items : List ExprId} {operand : ExprId → Eval Value}
  {Allowed : Fault → Prop} {type : StaticType}

theorem rowOf_evaluates {item : ExprId} {value : Value}
    (fits : (∃ matrix, value = .matrix matrix ∧ matrix.rows = 1) ∨ ∀ fault, Allowed fault) :
    Evaluates Allowed (fun row => value = .matrix row) (rowOf tree item value) := by
  rcases fits with ⟨row, rfl, single⟩ | allowed
  · unfold rowOf
    simp only [if_pos single]
    rfl
  · cases value with
    | matrix row =>
      unfold rowOf
      simp only
      split
      · rfl
      · exact allowed _
    | int _ | float _ | text _ | bool _ => exact allowed _

theorem rowsOf_evaluates {values : List Value} (length : items.length = values.length)
    (fits : ∀ item value, (item, value) ∈ items.zip values →
      (∃ matrix, value = .matrix matrix ∧ matrix.rows = 1) ∨ ∀ fault, Allowed fault) :
    Evaluates Allowed (fun rows => values = rows.map .matrix)
      ((items.zip values).mapM fun (id, value) => rowOf tree id value : Eval (List Matrix)) := by
  refine (Evaluates.mapM fun pair member => rowOf_evaluates (fits pair.1 pair.2 member)).mono fun rows taken => ?_
  have same : List.Forall₂ Eq ((items.zip values).map Prod.snd) (rows.map Value.matrix) :=
    List.forall₂_map_left_iff.mpr (List.forall₂_map_right_iff.mpr taken)
  rw [List.forall₂_eq_eq_eq, List.map_snd_zip (Nat.le_of_eq length.symm)] at same
  exact same

/-- What a literal makes of the values of its elements. -/
def assemble (tree : Tree) (position : Position) (items : List ExprId) (values : List Value) : Eval Value :=
  match values.mapM Value.element? with
  | some row => do
    return .matrix (← locate position (Value.orFault (Matrix.ofRows (row.all Element.isInt) [row])))
  | none => do
    let rows ← (items.zip values).mapM fun (id, value) => rowOf tree id value
    let cells := rows.map fun row => row.row 0
    return .matrix (← locate position (Value.orFault (Matrix.ofRows (rows.all Matrix.isIntegral) cells)))

theorem arrayLiteral_eq (position : Position) :
    arrayLiteral tree operand position items = items.mapM operand >>= assemble tree position items := rfl

theorem assemble_numbers {values : List Value} {row : List Element} {elem : ElemType}
    (numbers : values.mapM Value.element? = some row) (kind : elem.Admits (row.all Element.isInt)) (position : Position) :
    Evaluates Allowed (Conforms (.array ⟨.known 1, .known row.length, elem⟩)) (assemble tree position items values) := by
  have even : ∃ matrix, Matrix.ofRows (row.all Element.isInt) [row] = .ok matrix :=
    Matrix.ofRows_even row.length fun other member => List.mem_singleton.mp member ▸ rfl
  obtain ⟨matrix, done⟩ := even
  unfold assemble
  simp only [numbers, done]
  exact Conforms.array (row_describes done kind)

theorem assemble_rows {values : List Value} {Good : Value → Prop} (other : values.mapM Value.element? = none)
    (length : items.length = values.length)
    (fits : ∀ item value, (item, value) ∈ items.zip values →
      (∃ matrix, value = .matrix matrix ∧ matrix.rows = 1) ∨ ∀ fault, Allowed fault)
    (stacking : ∀ rows : List Matrix, values = rows.map .matrix → Checked Allowed (fun matrix => Good (.matrix matrix))
      (Value.orFault (Matrix.ofRows (rows.all Matrix.isIntegral) (rows.map fun row => row.row 0))))
    (position : Position) : Evaluates Allowed Good (assemble tree position items values) := by
  unfold assemble
  simp only [other]
  refine (rowsOf_evaluates length fits).bind fun rows same => ?_
  exact (Evaluates.locate (stacking rows same) position).bind fun matrix good => good

section

variable {values : List Value}
  (allows : List.Forall₂ (fun item value => (types item).Allows value) items values)
  (opens : (∃ item ∈ items, (types item).Open) → ∀ fault, Allowed fault)
include allows opens

/-- Elements of which none is known to be an array make a row of numbers, unless all of them are arrays. -/
theorem assemble_row {elem : ElemType} (row : rowElem (items.map types) none false = .ok elem) (some : items ≠ [])
    (seen : (∃ item ∈ items, (types item).tag ≠ .unknown) ∨ ∃ value ∈ values, ∀ matrix, value ≠ .matrix matrix)
    (position : Position) :
    Evaluates Allowed (Conforms (.array ⟨.known 1, .known items.length, elem⟩)) (assemble tree position items values) := by
  have nonempty : items.map types ≠ [] := fun empty => some (List.map_eq_nil_iff.mp empty)
  by_cases clear : ∀ type ∈ items.map types, type.tag ≠ .unknown
  · have conforming : List.Forall₂ Conforms (items.map types) values := by
      refine List.forall₂_map_left_iff.mpr (List.forall₂_iff_zip.mpr ⟨allows.length_eq, fun pair => ?_⟩)
      exact (List.forall₂_zip allows pair).conforms (clear _ (List.mem_map_of_mem (List.of_mem_zip pair).1))
    obtain ⟨elements, numbers, length, kind⟩ := row_admits conforming row nonempty clear
    rw [← List.length_map types, ← length]
    exact assemble_numbers numbers kind position
  · -- something unknown excuses every failure, and leaves the type of the elements open
    have unknown : ∃ type ∈ items.map types, type.tag = .unknown := by simpa using clear
    have excused : ∀ fault, Allowed fault := by
      obtain ⟨type, typed, same⟩ := unknown
      obtain ⟨item, member, rfl⟩ := List.mem_map.mp typed
      exact opens ⟨item, member, .inl same⟩
    obtain rfl := rowElem_unclear row (.inr unknown)
    cases numbers : values.mapM Value.element? with
    | some elements =>
      have length : elements.length = values.length := by
        have same := length_mapM Value.element? values
        rw [numbers] at same
        exact Option.some.inj same
      have nothing : ElemType.unknown.Admits (elements.all Element.isInt) := ⟨nofun, nofun⟩
      rw [allows.length_eq, ← length]
      exact assemble_numbers numbers nothing position
    | none =>
      refine assemble_rows numbers allows.length_eq (fun _ _ _ => .inr excused) (fun rows same => ?_) position
      subst same
      exfalso
      rcases seen with ⟨item, member, known⟩ | ⟨value, member, other⟩
      · obtain ⟨value, member', allowed⟩ := exists_of_forall₂ allows member
        obtain ⟨matrix, _, rfl⟩ := List.mem_map.mp member'
        exact known (allowed.scalar_matrix (rowElem_scalars row _ (List.mem_map_of_mem member)))
      · obtain ⟨matrix, _, rfl⟩ := List.mem_map.mp member
        exact other matrix rfl

/-- Elements of which one is known to be an array are the rows of a matrix. -/
theorem assemble_stack {cols : Dim} {elem : ElemType} (arrays : (items.map types).any (·.tag.isArrayLike))
    (stacked : stackedShape (items.map types) .unknown none = .ok (cols, elem))
    (single : (items.map types).any multiRow = false)
    (filled : (∃ item ∈ items, (types item).Open) ∨
      ∀ item ∈ items, (types item).tag.isArrayLike → (types item).shape.rows ≠ .known 0)
    (position : Position) :
    Evaluates Allowed (Conforms (.array ⟨.known items.length, cols, elem⟩)) (assemble tree position items values) := by
  -- a failure is excused, or every element is known to be one row, and all are equally long
  have known : (∀ fault, Allowed fault) ∨ ∃ width, cols = .known width ∧ ∀ item ∈ items,
      (types item).tag.isArrayLike ∧ (types item).shape.rows = .known 1 ∧ (types item).shape.cols = .known width := by
    by_cases some : ∃ item ∈ items, (types item).Open
    · exact .inl (opens some)
    · right
      have filled := filled.resolve_left some
      have closed (item : ExprId) (member : item ∈ items) : (types item).tag.isArrayLike ∧
          (types item).shape.rows = .known 1 ∧ ∃ width, (types item).shape.cols = .known width := by
        have known : ¬(types item).Open := fun here => some ⟨item, member, here⟩
        have array : (types item).tag.isArrayLike := by
          refine (stackedShape_arrays stacked _ (List.mem_map_of_mem member)).resolve_left fun unknown => ?_
          exact known (.inl unknown)
        obtain ⟨down, across, rows, width⟩ := StaticType.shape_of_closed array known
        have few := List.any_eq_false.mp single _ (List.mem_map_of_mem member)
        simp only [multiRow, rows, decide_eq_true_eq] at few
        have nonzero : down ≠ 0 := fun none => filled item member array (none ▸ rows)
        have one : down = 1 := by omega
        exact ⟨array, one ▸ rows, across, width⟩
      have joined := (stackedShape_cols stacked).2
      obtain ⟨type, typed, _⟩ := List.any_eq_true.mp arrays
      obtain ⟨first, member, rfl⟩ := List.mem_map.mp typed
      obtain ⟨array, _, width, long⟩ := closed first member
      have same : cols = .known width := joined _ (List.mem_map_of_mem member) array width long
      refine ⟨width, same, fun item member => ?_⟩
      obtain ⟨array, rows, across, long⟩ := closed item member
      cases same.symm.trans (joined _ (List.mem_map_of_mem member) array across long)
      exact ⟨array, rows, long⟩
  have other : values.mapM Value.element? = none := by
    obtain ⟨type, typed, array⟩ := List.any_eq_true.mp arrays
    obtain ⟨item, member, rfl⟩ := List.mem_map.mp typed
    obtain ⟨value, given, allowed⟩ := exists_of_forall₂ allows member
    obtain ⟨matrix, rfl, _⟩ := allowed.matrix_of_array array
    exact mapM_eq_none given rfl
  refine assemble_rows other allows.length_eq (fun item value pair => ?_) (fun rows same => ?_) position
  · rcases known with excused | ⟨_, _, closed⟩
    · exact .inr excused
    · obtain ⟨array, one, _⟩ := closed item (List.of_mem_zip pair).1
      obtain ⟨matrix, rfl, describes⟩ := (List.forall₂_zip allows pair).matrix_of_array array
      exact .inl ⟨matrix, rfl, describes.rows 1 one⟩
  · subst same
    have describes : List.Forall₂ (fun type matrix => type.tag.isArrayLike → type.shape.Describes matrix)
        (items.map types) rows :=
      List.forall₂_map_left_iff.mpr ((List.forall₂_map_right_iff.mp allows).imp fun _ _ allowed => allowed.describes)
    cases done : Matrix.ofRows (rows.all Matrix.isIntegral) (rows.map fun row => row.row 0) with
    | ok matrix =>
      have shape := (stacked_describes stacked describes done).1
      rw [List.length_map] at shape
      exact Conforms.array shape
    | error fault =>
      rcases known with excused | ⟨width, _, closed⟩
      · exact excused _
      · have even : ∀ row ∈ rows.map fun row => row.row 0, row.length = width := by
          intro row taken
          obtain ⟨matrix, inside, rfl⟩ := List.mem_map.mp taken
          obtain ⟨_, typed, shape⟩ := exists_of_forall₂ describes.flip inside
          obtain ⟨item, member, rfl⟩ := List.mem_map.mp typed
          rw [Matrix.row, List.length_map, List.length_range]
          exact (shape (closed item member).1).cols width (closed item member).2.2
        obtain ⟨matrix, some⟩ := Matrix.ofRows_even width even
        cases done.symm.trans some

end

/-- A literal evaluates to a matrix of its type, or something is open about an element of it. -/
theorem arrayLiteral_allowed (literal : LiteralType (items.map types) type)
    (single : (items.map types).any (·.tag.isArrayLike) → (items.map types).any multiRow = false)
    (filled : (∃ item ∈ items, (types item).Open) ∨
      ∀ item ∈ items, (types item).tag.isArrayLike → (types item).shape.rows ≠ .known 0)
    (seen : items ≠ [] → (∃ item ∈ items, (types item).tag ≠ .unknown) ∨
      ∃ item ∈ items, ∀ matrix, operand item ≠ .ok (.matrix matrix))
    (opens : (∃ item ∈ items, (types item).Open) → ∀ fault, Allowed fault)
    (operands : ∀ item ∈ items, Evaluates Allowed (types item).Allows (operand item)) (position : Position) :
    Evaluates Allowed (Conforms type) (arrayLiteral tree operand position items) := by
  -- which value an operand gave is kept: `seen` speaks of operands, and a row is put together from values
  have each (item : ExprId) (member : item ∈ items) :
      Evaluates Allowed (fun value => operand item = .ok value ∧ (types item).Allows value) (operand item) := by
    have evaluates := operands item member
    cases outcome : operand item with
    | ok value =>
      rw [outcome] at evaluates
      exact ⟨rfl, evaluates⟩
    | error stop =>
      rw [outcome] at evaluates
      cases stop with
      | failed failure => exact evaluates
      | unfinished => exact evaluates
  rw [arrayLiteral_eq]
  refine (Evaluates.mapM each).bind fun values given => ?_
  have allows : List.Forall₂ (fun item value => (types item).Allows value) items values := given.imp fun _ _ => And.right
  cases literal with
  | empty none =>
    obtain rfl := List.map_eq_nil_iff.mp none
    cases given
    exact Conforms.array ⟨nofun, nofun, nofun, nofun⟩
  | row some row =>
    have some : items ≠ [] := fun none => some (none ▸ rfl)
    rw [List.length_map]
    refine assemble_row allows opens row some ((seen some).imp_right ?_) position
    rintro ⟨item, member, other⟩
    obtain ⟨value, inside, same, _⟩ := exists_of_forall₂ given member
    exact ⟨value, inside, fun matrix equal => other matrix (equal ▸ same)⟩
  | stacked arrays stacked =>
    rw [List.length_map]
    exact assemble_stack allows opens arrays stacked (single arrays) filled position

end Evaluation

namespace Typing

variable {tree : Tree} {items : List ExprId} {checker : Checker} {types : ExprId → StaticType}

theorem Reports.literalType (line : Nat) (table : StaticTypes) (types : List StaticType) :
    Reports (literalType tree line items table types) := by
  have reported (problem : Problem) (type : StaticType) :
      Reports (do Check.report line problem; return type : Check StaticType) :=
    .bind (.report line problem) fun _ => .pure type
  unfold Typing.literalType
  split
  · exact .pure _
  · split
    · split
      · exact reported _ _
      · split
        · exact .pure _
        · exact reported _ _
    · split
      · exact .pure _
      · exact reported _ _

theorem mapM_recorded (typed : ∀ item ∈ items, checker.types.get? item = some (types item)) (depth : Nat) :
    items.mapM (typeWithin tree depth) checker = (items.map types, checker) := by
  induction items with
  | nil => rfl
  | cons item rest ih =>
    rw [List.mapM_cons, Check.bind_apply, typeWithin_of_recorded (typed item List.mem_cons_self), Check.bind_apply,
      ih fun other member => typed other (List.mem_cons_of_mem _ member)]
    rfl

theorem typeOf_literal {id : ExprId} {span : Span} (node : tree.expr? id = some ⟨.array items, span⟩)
    (typed : ∀ item ∈ items, checker.types.get? item = some (types item)) (fresh : checker.types.get? id = none)
    (quiet : checker.Quiet (typeOf tree id checker).2) :
    LiteralType (items.map types) (typeOf tree id checker).1 ∧
      ((items.map types).any (·.tag.isArrayLike) → (items.map types).any multiRow = false) := by
  have answer : typeOf tree id checker =
      (literalType tree span.start.line items checker.types (items.map types) >>= Check.record id) checker := by
    rw [typeOf, typeWithin_of_fresh fresh node, Check.bind_apply, Check.bind_apply]
    have inferred : infer tree (typeWithin tree tree.exprs.size) ⟨.array items, span⟩ checker =
        literalType tree span.start.line items checker.types (items.map types) checker := by
      show inferArray tree (typeWithin tree tree.exprs.size) span.start.line items checker = _
      rw [inferArray_apply, mapM_recorded typed, Check.bind_apply, mapM_recorded typed]
    rw [inferred]
  have reports : Reports (literalType tree span.start.line items checker.types (items.map types)) :=
    .literalType _ _ _
  obtain ⟨more, same⟩ := reports checker
  rw [answer, Check.bind_apply, Check.record_apply] at quiet ⊢
  have held (type : StaticType) : ((literalType tree span.start.line items checker.types (items.map types)
      checker).2.types.record id type).1 = type := by
    rw [same]
    unfold StaticTypes.record
    rw [fresh]
  rw [held]
  exact literalType_inversion (List.length_map types).symm quiet

end Typing

/-- Checker and run agree about a literal: where nothing is found, it evaluates to a matrix of the type that is
recorded for it, or it fails and not all is known of the shape of some element. Neither an element without any row may
be among them, nor may all be arrays without the checker knowing it of one. -/
theorem literal_evaluates_as_checked {tree : Tree} {id : ExprId} {items : List ExprId} {span : Span}
    {checker : Checker} {operand : ExprId → Eval Value} (types : ExprId → StaticType) (values : ExprId → Value)
    (node : tree.expr? id = some ⟨.array items, span⟩)
    (typed : ∀ item ∈ items, checker.types.get? item = some (types item)) (fresh : checker.types.get? id = none)
    (quiet : checker.Quiet (typeOf tree id checker).2)
    (given : ∀ item ∈ items, operand item = .ok (values item) ∧ (types item).Allows (values item))
    (filled : (∃ item ∈ items, (types item).Open) ∨
      ∀ item ∈ items, (types item).tag.isArrayLike → (types item).shape.rows ≠ .known 0)
    (seen : items ≠ [] →
      (∃ item ∈ items, (types item).tag ≠ .unknown) ∨ ∃ item ∈ items, ∀ matrix, values item ≠ .matrix matrix)
    (read : String → Eval (Option Value)) :
    Evaluates (fun _ => ∃ item ∈ items, (types item).Open) (Conforms (known (typeOf tree id checker).2.types id))
      (Evaluation.node tree read operand ⟨.array items, span⟩) := by
  obtain ⟨literal, single⟩ := typeOf_literal node typed fresh quiet
  have recorded : known (typeOf tree id checker).2.types id = (typeOf tree id checker).1 := by
    rw [known, typeOf, typeWithin_held node]
    rfl
  rw [recorded]
  refine Evaluation.arrayLiteral_allowed literal single filled (fun some => (seen some).imp_right ?_)
    (fun some _ => some) (fun item member => ?_) _
  · rintro ⟨item, member, other⟩
    refine ⟨item, member, fun matrix same => other matrix ?_⟩
    rw [(given item member).1] at same
    exact Except.ok.inj same
  · rw [(given item member).1]
    exact (given item member).2

/-- A row beside one of which nothing is known. -/
theorem halfKnown_rows_evaluate_as_checked :
    let here : Span := ⟨⟨1, 1⟩, ⟨1, 1⟩⟩
    let tree : Tree := { exprs := #[⟨.name "a", here⟩, ⟨.name "b", here⟩, ⟨.array [⟨0⟩, ⟨1⟩], here⟩] }
    let row : StaticType := .array ⟨.known 1, .known 2, .int⟩
    let types (id : ExprId) : StaticType := if id = ⟨0⟩ then row else .unknown
    let checker : Checker := ⟨⟨#[some row, some .unknown, none]⟩, .start, #[], 0⟩
    let value : Value := .matrix ⟨1, 2, .ints #[4, 5]⟩
    known (typeOf tree ⟨2⟩ checker).2.types ⟨2⟩ = .array ⟨.known 2, .known 2, .unknown⟩ ∧
      Evaluates (fun _ => ∃ item ∈ [⟨0⟩, ⟨1⟩], (types item).Open) (Conforms (known (typeOf tree ⟨2⟩ checker).2.types ⟨2⟩))
        (Evaluation.node tree (fun _ => .ok none) (fun _ => .ok value) ⟨.array [⟨0⟩, ⟨1⟩], here⟩) := by
  intro here tree row types checker value
  have known (item : ExprId) (member : item ∈ [⟨0⟩, ⟨1⟩]) : item = ⟨0⟩ ∨ item = ⟨1⟩ := by simpa using member
  have quiet : checker.Quiet (typeOf tree ⟨2⟩ checker).2 := rfl
  refine ⟨by decide +kernel, literal_evaluates_as_checked types (fun _ => value) rfl ?_ rfl quiet ?_ ?_ ?_ _⟩
  · intro item member
    rcases known item member with rfl | rfl <;> rfl
  · intro item member
    rcases known item member with rfl | rfl
    · exact ⟨rfl, .inr (.array ⟨Dim.admits_known 1, Dim.admits_known 2, fun _ => rfl, nofun⟩)⟩
    · exact ⟨rfl, .inl rfl⟩
  · exact .inl ⟨⟨1⟩, List.mem_cons_of_mem _ List.mem_cons_self, .inl rfl⟩
  · exact fun _ => .inl ⟨⟨0⟩, List.mem_cons_self, by decide⟩

/-- Where they do not agree: on an element of no row at all, which is refused as a row, and on a row of which nothing is
known, which is taken for a number. -/
theorem literal_decisions_differ :
    let here : Span := ⟨⟨1, 1⟩, ⟨1, 1⟩⟩
    let tree : Tree := { exprs := #[⟨.name "a", here⟩, ⟨.array [⟨0⟩], here⟩] }
    let differ (type : StaticType) (value : Value) : Prop :=
      let checker : Checker := ⟨⟨#[some type, none]⟩, .start, #[], 0⟩
      checker.Quiet (typeOf tree ⟨1⟩ checker).2 ∧ type.Allows value ∧
        ¬Evaluates (fun _ => type.Open) (Conforms (known (typeOf tree ⟨1⟩ checker).2.types ⟨1⟩))
          (Evaluation.node tree (fun _ => .ok none) (fun _ => .ok value) ⟨.array [⟨0⟩], here⟩)
    differ (.array ⟨.known 0, .known 3, .int⟩) (.matrix ⟨0, 3, .ints #[]⟩) ∧
      differ .unknown (.matrix ⟨1, 3, .ints #[0, 0, 0]⟩) := by
  intro here tree differ
  refine ⟨⟨rfl, .inr (.array ⟨Dim.admits_known 0, Dim.admits_known 3, fun _ => rfl, nofun⟩), ?_⟩, rfl, .inl rfl, ?_⟩
  · rintro (unknown | ⟨_, none | none⟩)
    · cases unknown
    · cases none
    · cases none
  · intro evaluates
    have conforms : Conforms (.array ⟨.known 1, .known 1, .unknown⟩) (.matrix ⟨1, 3, .ints #[0, 0, 0]⟩) := evaluates
    cases (conforms.described _ rfl).cols 1 rfl

end MatrixScript
