import MatrixScript.Proofs.Evaluation.Preservation

/-! Assignments keep the memory in agreement with the types of what is declared. -/

set_option autoImplicit false

namespace MatrixScript

open Typing

section

variable {tree : Tree} {types : StaticTypes} {base : ExprId} {indices : List ExprId} {selectors : List Selector}
  {type : StaticType} {value replacement : Value}

theorem Fits.update {id : ExprId} {updated : Value} (fits : Fits types id value)
    (fitting : Fitting (known types id) updated) : Fits types id updated := by
  obtain ⟨type, typed, _⟩ := fits
  unfold known at fitting
  rw [typed] at fitting
  exact ⟨type, typed, fitting⟩

theorem numeric_result {op : Arith} {left right result : Tag} (clear : left ≠ .unknown) (clear' : right ≠ .unknown)
    (verdict : Compatibility.numeric op [.type left, .type right] = .type result) :
    (result = left ∨ result = right) ∧ result.isArrayLike = false := by
  cases op <;> cases left <;> cases right <;>
    first | exact absurd rfl clear | exact absurd rfl clear' | cases verdict <;> exact ⟨by decide, rfl⟩

theorem ne_text_of_arrayLike {tag : Tag} (array : tag.isArrayLike) : tag ≠ .text := by
  rintro rfl
  cases array

theorem Typing.IndexedType.text_iff (indexed : IndexedType tree types base indices type) :
    (known types base).tag = .text ↔ type.tag = .text := by
  have selected (elem : ElemType) (rowDim colDim : Option Dim) :
      (selectedType elem rowDim colDim).tag ≠ .text := by
    unfold selectedType
    split
    · cases elem <;> exact nofun
    · exact nofun
  cases indexed with
  | text text _ => exact ⟨fun _ => rfl, fun _ => text⟩
  | cell array _ _ _ _ _ =>
    exact ⟨fun text => absurd text (ne_text_of_arrayLike array), fun tag => absurd tag (selected _ _ _)⟩
  | flat array _ _ flat =>
    refine ⟨fun text => absurd text (ne_text_of_arrayLike array), fun tag => ?_⟩
    cases flat with
    | row _ _ | rows _ _ _ => exact absurd tag (selected _ _ _)
    | span _ _ | unclear _ => cases tag
  | unclear unknown =>
    refine ⟨fun text => ?_, nofun⟩
    cases text.symm.trans unknown

/-- Writing into a part of a value keeps its type. -/
theorem assignInto_fitting (indexed : IndexedType tree types base indices type) (nonempty : indices ≠ [])
    (whole : Fitting (known types base) value)
    (selects : List.Forall₂ (Evaluation.Selects tree (Valued tree types)) indices selectors)
    (text : (known types base).tag = .text → ∃ inserted, replacement = .text inserted)
    (part : (known types base).tag ≠ .text → ∃ part, replacement.part? = some part) :
    Checked Fault.Unforeseen (Fitting (known types base)) (value.assignInto selectors replacement) := by
  cases indexed with
  | text isText fit =>
    obtain ⟨inserted, rfl⟩ := text isText
    have tagged := whole.conforms.tagged
    rw [isText] at tagged
    cases tagged with
    | text content =>
      refine (assignInto_text (textSelectors_of_fit fit nonempty selects) content inserted).mono fun result good => ?_
      exact good.retag rfl isText
  | cell array two _ _ _ _ =>
    obtain ⟨grid, rfl, _⟩ := Value.matrix_of_arrayLike whole array
    obtain ⟨part, written⟩ := part (ne_text_of_arrayLike array)
    refine assignInto_matrix whole (.inr ?_) written
    rw [← selects.length_eq, two]
    rfl
  | flat array one _ _ =>
    obtain ⟨grid, rfl, _⟩ := Value.matrix_of_arrayLike whole array
    obtain ⟨part, written⟩ := part (ne_text_of_arrayLike array)
    refine assignInto_matrix whole (.inl ?_) written
    rw [← selects.length_eq, one]
    rfl
  | unclear unknown => exact absurd unknown whole.conforms.tag_ne_unknown

end

section

variable {type : StaticType} {value : Value} {left right : Tag}

def Tag.isWritable (tag : Tag) : Bool := tag.isNumber || tag.isArrayLike

theorem part_of_fitting (fitting : Fitting type value) (writable : type.tag.isWritable) :
    ∃ part, value.part? = some part := by
  have tagged := fitting.conforms.tagged
  generalize type.tag = tag at tagged writable
  cases tagged with
  | int number => exact ⟨.scalar (.int number), rfl⟩
  | float number => exact ⟨.scalar (.float number), rfl⟩
  | array matrix | tainted matrix => exact ⟨.matrix matrix, rfl⟩
  | text _ | bool _ => cases writable

theorem scalar_of_number {tag : Tag} (tagged : value.Tagged tag) (number : tag.isNumber) :
    ∃ element, value.part? = some (.scalar element) := by
  cases tagged with
  | int value => exact ⟨.int value, rfl⟩
  | float value => exact ⟨.float value, rfl⟩
  | text _ | bool _ | array _ | tainted _ => cases number

theorem plain_text (clear : right ≠ .unknown)
    (verdict : (Operator.assign .plain).verdict [.indexed, .type .text, .type right] = .bind) : right = .text := by
  cases right with
  | text => rfl
  | unknown => exact absurd rfl clear
  | int | float | bool | range | array | tainted => cases verdict

theorem plain_writable (clear : left ≠ .unknown) (clear' : right ≠ .unknown) (whole : left ≠ .text)
    (verdict : (Operator.assign .plain).verdict [.indexed, .type left, .type right] = .bind) : right.isWritable := by
  cases left with
  | int | float | array | tainted =>
    cases right with
    | int | float | array | tainted => rfl
    | unknown => exact absurd rfl clear'
    | text | bool | range => cases verdict
  | text => exact absurd rfl whole
  | unknown => exact absurd rfl clear
  | bool | range => cases verdict

theorem compound_numbers {op : Arith} (clear : left ≠ .unknown) (clear' : right ≠ .unknown)
    (verdict : (Operator.assign (.compound op)).verdict [.indexed, .type left, .type right] = .bind) :
    ∃ tag : Tag, Compatibility.numeric op [.type left, .type right] = .type tag ∧ tag.isNumber := by
  cases left with
  | int | float =>
    cases right with
    | int | float => exact ⟨_, rfl, rfl⟩
    | unknown => exact absurd rfl clear'
    | text | bool | range | array | tainted => cases verdict
  | unknown => exact absurd rfl clear
  | text | bool | range | array | tainted => cases verdict

end

section

variable {tree : Tree} {types : StaticTypes} {declared : Declarations ExprId} {target base value : ExprId}
  {indices : List ExprId} {name : String} {machine : Machine}

theorem target_indexed (targeted : Known tree types declared [target]) (reliable : Reliable tree types)
    (shows : Shows (Fits types) declared machine.memory) (node : tree.kind? target = some (.indexed base indices)) :
    indices ≠ [] ∧ IndexedType tree types base indices (known types target) ∧
      Evaluates Fault.Unforeseen (List.Forall₂ (Evaluation.Selects tree (Valued tree types)) indices)
        (Evaluation.selectors tree (evaluate tree machine.memory) indices) := by
  obtain ⟨lo, hi, understood, placed⟩ := targeted
  have place := placed target (List.mem_singleton_self _)
  obtain ⟨span, found⟩ := expr?_of_kind node
  obtain ⟨_, judged⟩ := understood.judged place.above place.below found
  obtain ⟨⟨selections, indexes⟩, indexed⟩ := judged.indexed_inversion
  refine ⟨(understood.nested target _ place.above place.below node).chosen base indices rfl, indexed, ?_⟩
  refine selectors_valued understood reliable.clear place node indexes fun child inside => ?_
  exact evaluate_valued understood reliable shows (inside.widen (Nat.le_refl _) (Nat.le_of_lt place.below))

theorem assignTo_indexed_agrees {replacement : Value} (targeted : Known tree types declared [target])
    (reliable : Reliable tree types) (agrees : Agrees (Fits types) declared machine.memory)
    (node : tree.kind? target = some (.indexed base indices)) (word : tree.kind? base = some (.name name))
    (text : (known types base).tag = .text → ∃ inserted, replacement = .text inserted)
    (part : (known types base).tag ≠ .text → ∃ part, replacement.part? = some part) :
    Ends Fault.Unforeseen (fun _ later => Agrees (Fits types) declared later.memory)
      (Execution.assignTo tree target replacement machine) := by
  obtain ⟨nonempty, indexed, selects⟩ := target_indexed targeted reliable agrees.shows node
  obtain ⟨producer, found, typed⟩ := targeted.base_declared node word
  obtain ⟨current, read, fits⟩ := agrees.shows name producer found
  have same : known types base = known types producer := known_of_typed typed
  refine Execution.assignTo_indexed node word read selects (fun selectors selected => ?_)
    fun updated good => agrees.rebind found good
  have whole := fits.fitting
  rw [← same] at whole
  refine (assignInto_fitting indexed nonempty whole selected text part).mono fun updated fitting => ?_
  rw [same] at fitting
  exact fits.update fitting

theorem arithmetic_of_fits {left right : ExprId} {current type : StaticType} {op : Arith} {result : Tag}
    (typed : types.get? left = some current) (typed' : types.get? right = some type)
    (verdict : Compatibility.numeric op [.type current.tag, .type type.tag] = .type result) {a b : Value}
    (first : Fits types left a) (second : Fits types right b) :
    Checked Fault.Unforeseen (Fitting (.ofTag result)) (Value.arithmetic op a b) := by
  have first := first.fitting
  have second := second.fitting
  rw [known_of_typed typed] at first
  rw [known_of_typed typed'] at second
  exact Value.arithmetic_fitting first.conforms.tagged second.conforms.tagged verdict

/-- An assignment leaves the memory in agreement with what is declared behind it. -/
theorem assigned_agrees {after : Declarations ExprId} {op : Assign} (reliable : Reliable tree types)
    (assigned : Assigned tree types declared target op value after)
    (agrees : Agrees (Fits types) declared machine.memory) :
    Ends Fault.Unforeseen (fun _ later => Agrees (Fits types) after later.memory)
      (Execution.assign tree target op value machine) := by
  have clear := reliable.clear
  have evaluates {id : ExprId} (known : Known tree types declared [id]) :=
    known_valued known reliable agrees.shows id (List.mem_singleton_self _)
  cases assigned with
  | @plain name _ _ node known _ =>
    refine Execution.assign_plain (evaluates known) fun result valued => ?_
    exact Execution.assignTo_name node (agrees.bind name valued.fits)
  | @compound name op _ producer current type result node known found typed valueTyped verdict =>
    obtain ⟨held, read, fits⟩ := agrees.shows name producer found
    have target : Evaluates Fault.Unforeseen (Fits types producer) (evaluate tree machine.memory target) := by
      rw [Execution.evaluate_name node read]
      exact fits
    obtain ⟨same, scalar⟩ := numeric_result (clear producer current typed) (clear value type valueTyped) verdict
    refine Execution.assign_compound (evaluates known) target
      (fun a b first second => arithmetic_of_fits typed valueTyped verdict first second.fits)
      fun combined good => Execution.assignTo_name node ?_
    -- the name is declared again when the result is of the type of the value, and keeps its type otherwise
    split
    · next changed => exact agrees.bind name ⟨type, valueTyped, good.retag scalar (same.resolve_left changed).symm⟩
    · next kept => exact agrees.rebind found ⟨current, typed, good.retag scalar (Decidable.not_not.mp kept).symm⟩
  | @indexed base _ indices name op type targetType baseType node word known targeted valueTyped targetTyped baseTyped
      writes =>
    obtain ⟨whole, verdict, _⟩ := writes
    obtain ⟨_, indexed, _⟩ := target_indexed targeted reliable agrees.shows node
    have isText := indexed.text_iff
    rw [known_of_typed targetTyped] at isText
    have clearTarget := clear target targetType targetTyped
    have clearValue := clear value type valueTyped
    cases op with
    | plain =>
      refine Execution.assign_plain (evaluates known) fun result valued => ?_
      have fitting := valued.fits.fitting
      rw [known_of_typed valueTyped] at fitting
      refine assignTo_indexed_agrees targeted reliable agrees node word (fun text => ?_) fun array => ?_
      · rw [isText.mp text] at verdict
        have tagged := fitting.conforms.tagged
        rw [plain_text clearValue verdict] at tagged
        cases tagged with
        | text inserted => exact ⟨inserted, rfl⟩
      · exact part_of_fitting fitting
          (plain_writable clearTarget clearValue (fun tag => array (isText.mpr tag)) verdict)
    | compound op =>
      obtain ⟨tag, numeric, number⟩ := compound_numbers clearTarget clearValue verdict
      refine Execution.assign_compound (evaluates known) (evaluates targeted)
        (fun a b first second => arithmetic_of_fits targetTyped valueTyped numeric first.fits second.fits)
        fun combined good => ?_
      -- a compound assignment is not made into a text
      refine assignTo_indexed_agrees targeted reliable agrees node word (fun text => ?_) fun _ => ?_
      · rw [known_of_typed baseTyped] at text
        exact absurd ⟨text, nofun⟩ whole
      · obtain ⟨element, written⟩ := scalar_of_number good.conforms.tagged number
        exact ⟨_, written⟩

end

end MatrixScript
