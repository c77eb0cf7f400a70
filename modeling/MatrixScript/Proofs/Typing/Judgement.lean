import MatrixScript.Proofs.Grammar.Layout
import MatrixScript.Proofs.Typing.Moves

/-! What a checked expression is known to be.

The nodes of an expression are typed one after the other, in the order in which they lie, and every node once. When
nothing is found, the finished table answers for every node as the checker did: the type of a node follows from the
types that the table has for its operands.
-/

set_option autoImplicit false

namespace MatrixScript.Typing

open Check

def ask (types : StaticTypes) (id : ExprId) : Check StaticType :=
  pure ((types.get? id).getD .unknown)

theorem mapM_ask (types : StaticTypes) (ids : List ExprId) (checker : Checker) :
    ids.mapM (ask types) checker = (ids.map fun id => (types.get? id).getD .unknown, checker) := by
  induction ids with
  | nil => rfl
  | cons id rest ih =>
    rw [List.mapM_cons, bind_apply, bind_apply]
    simp only [ask, pure_apply] at ih ⊢
    rw [ih]
    rfl

/-- A checker that has found nothing. Its own table is not asked for operands. -/
def silent (table : StaticTypes) (declared : Declarations ExprId) : Checker := ⟨table, declared, #[], 0⟩

/-- A node has a type by the types of its operands. -/
def Judged (tree : Tree) (types : StaticTypes) (declared : Declarations ExprId) (expr : Expr)
    (type : StaticType) : Prop :=
  ∃ table, infer tree (ask types) expr (silent table declared) = (type, silent table declared)

/-- A node has a type, and has it by its operands in every later table. -/
def Settled (tree : Tree) (types : StaticTypes) (declared : Declarations ExprId) (id : ExprId) : Prop :=
  ∃ expr type, tree.expr? id = some expr ∧ types.get? id = some type ∧
    ∀ later, types.Extends later → Judged tree later declared expr type

theorem Settled.extend {tree : Tree} {types later : StaticTypes} {declared : Declarations ExprId} {id : ExprId}
    (settled : Settled tree types declared id) (extended : types.Extends later) :
    Settled tree later declared id := by
  obtain ⟨expr, type, found, typed, judged⟩ := settled
  exact ⟨expr, type, found, extended id type typed, fun last further => judged last (extended.trans further)⟩

def Recorded (checker : Checker) : Prop :=
  ∀ name producer, checker.declared.lookup? name = some producer → (checker.types.get? producer).isSome

theorem Recorded.extend {before after : Checker} (recorded : Recorded before) (extended : before.Extends after) :
    Recorded after := by
  intro name producer found
  rw [extended.declared] at found
  exact extended.types.isSome (recorded name producer found)

def Fresh (lo hi : Nat) (checker : Checker) : Prop :=
  ∀ id : ExprId, lo ≤ id.index → id.index < hi → checker.types.get? id = none

section

variable (tree : Tree) {α : Type}

/-- An action types the nodes `[lo, hi)` and no others. -/
structure Fills (lo hi : Nat) (action : Check α) : Prop where
  extended : ∀ checker, Recorded checker → checker.Extends (action checker).2
  confined : ∀ checker, Recorded checker → ∀ id : ExprId, ¬(lo ≤ id.index ∧ id.index < hi) →
    (action checker).2.types.get? id = checker.types.get? id
  filled : ∀ checker, Recorded checker → Fresh lo hi checker →
    ∀ id : ExprId, lo ≤ id.index → id.index < hi → ((action checker).2.types.get? id).isSome
  settled : ∀ checker, Recorded checker → Fresh lo hi checker → checker.Quiet (action checker).2 →
    ∀ id : ExprId, lo ≤ id.index → id.index < hi → Settled tree (action checker).2.types checker.declared id

/-- When an action finds nothing, its mirror gives the same answer from every later table. -/
structure Mirrors (lo hi : Nat) (action : Check α) (mirror : StaticTypes → Check α) : Prop extends
    Fills tree lo hi action where
  mirrored : ∀ checker, Recorded checker → Fresh lo hi checker → checker.Quiet (action checker).2 →
    ∀ later, (action checker).2.types.Extends later → ∀ table,
      mirror later (silent table checker.declared) = ((action checker).1, silent table checker.declared)

end

section

variable {tree : Tree} {α β : Type} {lo mid hi : Nat}

theorem Fills.fresh {action : Check α} (fills : Fills tree lo mid action) {checker : Checker}
    (recorded : Recorded checker) (fresh : Fresh lo hi checker) (le : lo ≤ mid) :
    Fresh mid hi (action checker).2 := by
  intro id above below
  rw [fills.confined checker recorded id (by omega)]
  exact fresh id (by omega) below

theorem Fills.bind {action : Check α} {next : α → Check β} (first : Fills tree lo mid action)
    (second : ∀ value, Fills tree mid hi (next value)) (le : lo ≤ mid) (le' : mid ≤ hi) :
    Fills tree lo hi (action >>= next) where
  extended := by
    intro checker recorded
    have earlier := first.extended checker recorded
    exact earlier.trans ((second _).extended _ (recorded.extend earlier))
  confined := by
    intro checker recorded id outside
    have earlier := first.extended checker recorded
    rw [bind_apply, (second _).confined _ (recorded.extend earlier) id (by omega),
      first.confined checker recorded id (by omega)]
  filled := by
    intro checker recorded fresh id above below
    have earlier := first.extended checker recorded
    have later := (second (action checker).1).extended _ (recorded.extend earlier)
    -- what the first action has typed is kept by the second one
    by_cases within : id.index < mid
    · have typed := first.filled checker recorded (fun id above below => fresh id above (by omega)) id above within
      exact later.types.isSome typed
    · exact (second _).filled _ (recorded.extend earlier) (first.fresh recorded fresh le) id (by omega) below
  settled := by
    intro checker recorded fresh quiet id above below
    have earlier := first.extended checker recorded
    have later := (second (action checker).1).extended _ (recorded.extend earlier)
    obtain ⟨quiet, quiet'⟩ := quiet.split earlier.findings later.findings
    by_cases within : id.index < mid
    · have settled := first.settled checker recorded (fun id above below => fresh id above (by omega)) quiet id above
        within
      exact settled.extend later.types
    · have settled := (second _).settled _ (recorded.extend earlier) (first.fresh recorded fresh le) quiet' id
        (by omega) below
      rw [earlier.declared] at settled
      exact settled

theorem Mirrors.bind {action : Check α} {mirror : StaticTypes → Check α} {next : α → Check β}
    {nextMirror : α → StaticTypes → Check β} (first : Mirrors tree lo mid action mirror)
    (second : ∀ value, Mirrors tree mid hi (next value) (nextMirror value)) (le : lo ≤ mid) (le' : mid ≤ hi) :
    Mirrors tree lo hi (action >>= next) fun later => mirror later >>= fun value => nextMirror value later where
  toFills := first.toFills.bind (fun value => (second value).toFills) le le'
  mirrored := by
    intro checker recorded fresh quiet last extended table
    have earlier := first.extended checker recorded
    have later := (second (action checker).1).extended _ (recorded.extend earlier)
    obtain ⟨quiet, quiet'⟩ := quiet.split earlier.findings later.findings
    have here := first.mirrored checker recorded (fun id above below => fresh id above (by omega)) quiet last
      (later.types.trans extended) table
    have there := (second _).mirrored _ (recorded.extend earlier) (first.fresh recorded fresh le) quiet' last extended
      table
    rw [earlier.declared] at there
    rw [bind_apply, here]
    exact there

theorem Mirrors.pure (value : α) (mirror : StaticTypes → Check α)
    (same : ∀ later, mirror later = Pure.pure value) : Mirrors tree lo lo (Pure.pure value : Check α) mirror where
  extended := fun checker _ => .refl checker
  confined := fun _ _ _ _ => rfl
  filled := fun _ _ _ _ above below => absurd below (Nat.not_lt.mpr above)
  settled := fun _ _ _ _ _ above below => absurd below (Nat.not_lt.mpr above)
  mirrored := by
    intro checker _ _ _ later _ table
    rw [same]
    rfl

/-- A finding is never quiet, so nothing has to be mirrored. -/
theorem Mirrors.report (line : Nat) (problem : Problem) (mirror : StaticTypes → Check Unit) :
    Mirrors tree lo lo (Check.report line problem) mirror where
  extended := fun checker _ => .report checker line problem
  confined := fun _ _ _ _ => rfl
  filled := fun _ _ _ _ above below => absurd below (Nat.not_lt.mpr above)
  settled := fun _ _ _ _ _ above below => absurd below (Nat.not_lt.mpr above)
  mirrored := fun _ _ _ quiet => absurd quiet Checker.Quiet.not_report

def Steady (tree : Tree) (action : Check α) : Prop :=
  ∀ lo, Mirrors tree lo lo action fun _ => action

namespace Steady

theorem pure (value : α) : Steady tree (Pure.pure value : Check α) :=
  fun _ => .pure value _ fun _ => rfl

theorem bind {action : Check α} {next : α → Check β} (first : Steady tree action)
    (second : ∀ value, Steady tree (next value)) : Steady tree (action >>= next) :=
  fun lo => (first lo).bind (fun value => second value lo) (Nat.le_refl _) (Nat.le_refl _)

theorem reported (line : Nat) (problem : Problem) (value : α) :
    Steady tree (do Check.report line problem; return value) :=
  fun _ => (Mirrors.report line problem _).bind (fun _ => .pure value _ fun _ => rfl) (Nat.le_refl _) (Nat.le_refl _)

theorem report (line : Nat) (problem : Problem) : Steady tree (Check.report line problem) :=
  fun _ => .report line problem _

theorem forM {items : List α} {action : α → Check PUnit} (each : ∀ item, Steady tree (action item)) :
    Steady tree (items.forM action) := by
  induction items with
  | nil => exact .pure _
  | cons item rest ih => exact (each item).bind fun _ => ih

theorem selectAxis (line : Nat) (axis : Axis) (bound : Dim) (selection : Selection) :
    Steady tree (selectAxis line axis bound selection) := by
  unfold Typing.selectAxis
  exact (Steady.forM fun problem => .report line problem).bind fun _ => .pure _

theorem inferCell (line : Nat) (shape : Shape) (rows cols : Selection) :
    Steady tree (inferCell line shape rows cols) := by
  unfold Typing.inferCell
  refine (selectAxis line _ _ _).bind fun rowSize => (selectAxis line _ _ _).bind fun colSize => ?_
  split
  · exact .pure _
  · exact .pure _

theorem inferFlat (line : Nat) (shape : Shape) (index : Selection) : Steady tree (inferFlat line shape index) := by
  unfold Typing.inferFlat
  split
  · refine (selectAxis line _ _ _).bind fun size => ?_
    split
    · exact .pure _
    · exact .pure _
  · refine (selectAxis line _ _ _).bind fun size => ?_
    split
    · exact .pure _
    · exact .pure _
  · split
    · exact .pure _
    · exact .pure _

end Steady

theorem Mirrors.then {action : Check α} {mirror : StaticTypes → Check α} {next : α → Check β}
    (first : Mirrors tree lo hi action mirror) (rest : ∀ value, Steady tree (next value)) (le : lo ≤ hi) :
    Mirrors tree lo hi (action >>= next) fun later => mirror later >>= next :=
  first.bind (fun value => rest value hi) le (Nat.le_refl _)

end

section

variable {tree : Tree} {lo mid hi : Nat} {child : ExprId → Check StaticType}

theorem inferArith_mirrors {left right : ExprId} (first : Mirrors tree lo mid (child left) (ask · left))
    (second : Mirrors tree mid hi (child right) (ask · right)) (le : lo ≤ mid) (le' : mid ≤ hi) (line : Nat)
    (operator : Operator) (join : Shape → Shape → Bool × Shape) :
    Mirrors tree lo hi (inferArith child line operator join left right)
      fun later => inferArith (ask later) line operator join left right := by
  unfold inferArith
  refine first.bind (fun a => second.then (fun b => ?_) le') le le'
  split
  · split
    split
    · exact .reported _ _ _
    · exact .pure _
  · exact .pure _
  · exact .reported _ _ _

theorem inferCompare_mirrors {left right : ExprId} (first : Mirrors tree lo mid (child left) (ask · left))
    (second : Mirrors tree mid hi (child right) (ask · right)) (le : lo ≤ mid) (le' : mid ≤ hi) (line : Nat)
    (op : Compare) :
    Mirrors tree lo hi (inferCompare child line op left right)
      fun later => inferCompare (ask later) line op left right := by
  unfold inferCompare
  refine first.bind (fun a => second.then (fun b => ?_) le') le le'
  split
  · exact .reported _ _ _
  · exact .pure _

theorem inferDimension_mirrors {id : ExprId} (first : Mirrors tree lo hi (child id) (ask · id)) (le : lo ≤ hi)
    (line : Nat) (function : Builtin) :
    Mirrors tree lo hi (inferDimension tree child line function id)
      fun later => inferDimension tree (ask later) line function id := by
  unfold inferDimension
  refine first.then (fun type => ?_) le
  split
  · exact .pure _
  · exact .pure _
  · exact .pure _
  · exact .reported _ _ _

theorem checkBound_mirrors {id : ExprId} (first : Mirrors tree lo hi (child id) (ask · id)) (le : lo ≤ hi)
    (line : Nat) (bound : Bound) :
    Mirrors tree lo hi (checkBound child line bound id) fun later => checkBound (ask later) line bound id := by
  unfold checkBound
  refine first.then (fun type => ?_) le
  dsimp only
  split
  · exact .pure _
  · exact .report _ _

theorem checkIndex_mirrors {id : ExprId} (first : Mirrors tree lo hi (child id) (ask · id)) (le : lo ≤ hi)
    (line : Nat) :
    Mirrors tree lo hi (checkIndex tree child line id) fun later => checkIndex tree (ask later) line id := by
  unfold checkIndex
  refine first.then (fun type => ?_) le
  split
  · split
    · exact .pure _
    · exact .pure _
  · exact .pure _
  · exact .pure _
  · exact .pure _
  · exact .reported _ _ _

theorem mapM_mirrors {α β : Type} {lies : Nat → Nat → ExprId → α → Prop} {ids : List ExprId} {xs : List α}
    (stretch : Grammar.Stretch lies lo hi ids xs) (action : ExprId → Check β)
    (mirror : StaticTypes → ExprId → Check β)
    (rising : ∀ first last id x, lies first last id x → first < last)
    (each : ∀ first last id x, last ≤ hi → lies first last id x →
      Mirrors tree first last (action id) (mirror · id)) :
    Mirrors tree lo hi (ids.mapM action) fun later => ids.mapM (mirror later) := by
  induction stretch with
  | nil => exact .pure [] _ fun _ => rfl
  | @cons first second last id ids x xs item rest ih =>
    have inside := rest.le (fun n => n) fun _ _ _ _ _ => rising _ _ _ _
    simp only [List.mapM_cons]
    refine (each _ _ _ _ inside item).bind (fun value => ?_) (Nat.le_of_lt (rising _ _ _ _ item)) inside
    exact (ih each).then (fun values => .pure _) inside

theorem inferBuiltin_mirrors {lies : Nat → Nat → ExprId → Grammar.Term → Prop} {ids : List ExprId}
    {terms : List Grammar.Term} (stretch : Grammar.Stretch lies lo hi ids terms)
    (rising : ∀ first last id x, lies first last id x → first < last)
    (each : ∀ first last id x, last ≤ hi → lies first last id x → Mirrors tree first last (child id) (ask · id))
    (line : Nat) (function : Builtin) :
    Mirrors tree lo hi (inferBuiltin tree child line function ids)
      fun later => inferBuiltin tree (ask later) line function ids := by
  have total := stretch.le (fun n => n) fun _ _ _ _ _ => rising _ _ _ _
  have all := mapM_mirrors stretch child ask rising each
  unfold inferBuiltin
  cases stretch with
  | nil => exact all.then (fun _ => .reported _ _ _) total
  | @cons _ middle _ _ _ _ _ first rest =>
    have below := rest.le (fun n => n) fun _ _ _ _ _ => rising _ _ _ _
    have above := Nat.le_of_lt (rising _ _ _ _ first)
    have one := inferDimension_mirrors (each _ _ _ _ below first) above line function
    cases rest with
    | nil => exact one.then (fun dim => .pure _) total
    | cons second rest =>
      cases rest with
      | nil =>
        have two := inferDimension_mirrors (each _ _ _ _ (Nat.le_refl _) second) below line function
        exact one.bind (fun rowDim => two.then (fun colDim => .pure _) below) above below
      | cons _ _ => exact all.then (fun _ => .reported _ _ _) total

theorem inferIndexed_mirrors {lies : Nat → Nat → ExprId → Grammar.Component Grammar.Term → Prop} {base : ExprId}
    {ids : List ExprId} {indices : List (Grammar.Component Grammar.Term)}
    (first : Mirrors tree lo mid (child base) (ask · base)) (le : lo ≤ mid)
    (stretch : Grammar.Stretch lies mid hi ids indices)
    (rising : ∀ first last id x, lies first last id x → first < last)
    (each : ∀ first last id x, last ≤ hi → lies first last id x → Mirrors tree first last (child id) (ask · id))
    (line : Nat) :
    Mirrors tree lo hi (inferIndexed tree child line base ids)
      fun later => inferIndexed tree (ask later) line base ids := by
  have total := stretch.le (fun n => n) fun _ _ _ _ _ => rising _ _ _ _
  have all := mapM_mirrors stretch (checkIndex tree child line) (fun later => checkIndex tree (ask later) line) rising
    fun _ _ _ _ inside item => checkIndex_mirrors (each _ _ _ _ inside item) (Nat.le_of_lt (rising _ _ _ _ item)) line
  unfold inferIndexed
  refine first.bind (fun type => all.then (fun selections => ?_) total) le total
  split
  · split
    · exact .pure _
    · exact .reported _ _ _
  · exact .pure _
  · split
    · exact .inferCell _ _ _ _
    · exact .inferFlat _ _ _
    · exact .reported _ _ _
  · split
    · exact .inferCell _ _ _ _
    · exact .inferFlat _ _ _
    · exact .reported _ _ _
  · exact .reported _ _ _

def literalType (tree : Tree) (line : Nat) (items : List ExprId) (table : StaticTypes) (types : List StaticType) :
    Check StaticType := do
  if types.isEmpty then
    return .array .unknown
  else if types.any (·.tag.isArrayLike) then
    if items.any (nestedLiteral tree table) || types.any multiRow then
      report line .tooDeep
      return .tainted .unknown
    else
      match stackedShape types .unknown none with
      | .ok (cols, elem) => return .array ⟨.known items.length, cols, elem⟩
      | .error problem =>
        report line problem
        return .tainted ⟨.known items.length, .unknown, .unknown⟩
  else
    match rowElem types none false with
    | .ok elem => return .array ⟨.known 1, .known types.length, elem⟩
    | .error problem =>
      report line problem
      return .tainted ⟨.known 1, .known types.length, .unknown⟩

theorem Steady.literalType (line : Nat) (items : List ExprId) (table : StaticTypes) (types : List StaticType) :
    Steady tree (literalType tree line items table types) := by
  unfold Typing.literalType
  split
  · exact .pure _
  · split
    · split
      · exact .reported _ _ _
      · split
        · exact .pure _
        · exact .reported _ _ _
    · split
      · exact .pure _
      · exact .reported _ _ _

theorem inferArray_apply (line : Nat) (items : List ExprId) (checker : Checker) :
    inferArray tree child line items checker =
      (items.mapM child >>= literalType tree line items (items.mapM child checker).2.types) checker := by
  unfold inferArray literalType
  simp only [bind_apply]
  generalize items.mapM child checker = typed
  split
  · rfl
  · split
    · rfl
    · rfl

/-- A literal is mirrored with the table of the moment when its elements have been typed. -/
theorem inferArray_fills {items : List ExprId} (le : lo ≤ hi)
    (all : Mirrors tree lo hi (items.mapM child) fun later => items.mapM (ask later)) (line : Nat) :
    Fills tree lo hi (inferArray tree child line items) where
  extended := by
    intro checker
    rw [inferArray_apply]
    exact (all.then (fun types => .literalType line items _ types) le).extended checker
  confined := by
    intro checker
    rw [inferArray_apply]
    exact (all.then (fun types => .literalType line items _ types) le).confined checker
  filled := by
    intro checker
    rw [inferArray_apply]
    exact (all.then (fun types => .literalType line items _ types) le).filled checker
  settled := by
    intro checker
    rw [inferArray_apply]
    exact (all.then (fun types => .literalType line items _ types) le).settled checker

theorem inferArray_mirrored {items : List ExprId} (le : lo ≤ hi)
    (all : Mirrors tree lo hi (items.mapM child) fun later => items.mapM (ask later)) (line : Nat)
    {checker : Checker} (recorded : Recorded checker) (fresh : Fresh lo hi checker)
    (quiet : checker.Quiet (inferArray tree child line items checker).2) {later : StaticTypes}
    (extended : (inferArray tree child line items checker).2.types.Extends later) :
    ∃ table, inferArray tree (ask later) line items (silent table checker.declared) =
      ((inferArray tree child line items checker).1, silent table checker.declared) := by
  rw [inferArray_apply] at quiet extended ⊢
  generalize (items.mapM child checker).2.types = table at quiet extended ⊢
  have mirrors := (all.then (fun types => Steady.literalType line items table types) le).mirrored checker recorded fresh
    quiet later extended table
  refine ⟨table, ?_⟩
  rw [inferArray_apply, mapM_ask]
  exact mirrors

end

theorem typeWithin_of_recorded {tree : Tree} {id : ExprId} {type : StaticType} {checker : Checker}
    (typed : checker.types.get? id = some type) (depth : Nat) :
    typeWithin tree depth id checker = (type, checker) := by
  cases depth with
  | zero =>
    rw [typeWithin, bind_apply, recorded?_apply, typed]
    rfl
  | succ depth =>
    rw [typeWithin, bind_apply, recorded?_apply, typed]
    rfl

theorem typeWithin_of_fresh {tree : Tree} {id : ExprId} {expr : Expr} {checker : Checker}
    (fresh : checker.types.get? id = none) (found : tree.expr? id = some expr) (depth : Nat) :
    typeWithin tree (depth + 1) id checker = (infer tree (typeWithin tree depth) expr >>= record id) checker := by
  rw [typeWithin, bind_apply, recorded?_apply, fresh]
  simp only [found]

theorem typeWithin_held {tree : Tree} {id : ExprId} {expr : Expr} (found : tree.expr? id = some expr) (depth : Nat)
    (checker : Checker) :
    (typeWithin tree (depth + 1) id checker).2.types.get? id = some (typeWithin tree (depth + 1) id checker).1 := by
  cases typed : checker.types.get? id with
  | some type =>
    rw [typeWithin_of_recorded typed]
    exact typed
  | none =>
    rw [typeWithin_of_fresh typed found, bind_apply, record_apply]
    simp only [StaticTypes.get?_record, if_true]

section

variable {tree : Tree} {lo hi depth : Nat} {expr : Expr}

theorem node_fills (le : lo ≤ hi) (found : tree.expr? ⟨hi⟩ = some expr)
    (fills : Fills tree lo hi (infer tree (typeWithin tree depth) expr)) {checker : Checker}
    (recorded : Recorded checker) :
    checker.Extends (typeWithin tree (depth + 1) ⟨hi⟩ checker).2 ∧
      ∀ id : ExprId, ¬(lo ≤ id.index ∧ id.index < hi + 1) →
        (typeWithin tree (depth + 1) ⟨hi⟩ checker).2.types.get? id = checker.types.get? id := by
  cases typed : checker.types.get? ⟨hi⟩ with
  | some type =>
    rw [typeWithin_of_recorded typed]
    exact ⟨.refl _, fun _ _ => rfl⟩
  | none =>
    rw [typeWithin_of_fresh typed found, bind_apply]
    have earlier := fills.extended checker recorded
    refine ⟨earlier.trans (.record _ _ _), fun id outside => ?_⟩
    have other : id ≠ ⟨hi⟩ := by
      rintro rfl
      exact outside ⟨le, Nat.lt_succ_self _⟩
    rw [record_apply]
    simp only [StaticTypes.get?_record, if_neg other]
    exact fills.confined checker recorded id (by omega)

theorem node_mirrors (le : lo ≤ hi) (found : tree.expr? ⟨hi⟩ = some expr)
    (fills : Fills tree lo hi (infer tree (typeWithin tree depth) expr))
    (judged : ∀ checker, Recorded checker → Fresh lo hi checker →
      checker.Quiet (infer tree (typeWithin tree depth) expr checker).2 →
      ∀ later, (infer tree (typeWithin tree depth) expr checker).2.types.Extends later →
        Judged tree later checker.declared expr (infer tree (typeWithin tree depth) expr checker).1) :
    Mirrors tree lo (hi + 1) (typeWithin tree (depth + 1) ⟨hi⟩) (ask · ⟨hi⟩) := by
  -- what a quiet run on fresh nodes leaves behind
  have after (checker : Checker) (recorded : Recorded checker) (fresh : Fresh lo (hi + 1) checker)
      (quiet : checker.Quiet (typeWithin tree (depth + 1) ⟨hi⟩ checker).2) :
      let inner := infer tree (typeWithin tree depth) expr checker
      checker.Quiet inner.2 ∧ inner.2.types.Extends (typeWithin tree (depth + 1) ⟨hi⟩ checker).2.types ∧
        (typeWithin tree (depth + 1) ⟨hi⟩ checker).1 = inner.1 ∧
        (typeWithin tree (depth + 1) ⟨hi⟩ checker).2.types.get? ⟨hi⟩ = some inner.1 := by
    have unknown := fresh ⟨hi⟩ le (Nat.lt_succ_self _)
    rw [typeWithin_of_fresh unknown found, bind_apply] at quiet ⊢
    intro inner
    have earlier := fills.extended checker recorded
    have still : inner.2.types.get? ⟨hi⟩ = none := by
      rw [fills.confined checker recorded ⟨hi⟩ (fun within => Nat.lt_irrefl _ within.2)]
      exact unknown
    have last := Checker.Extends.record inner.2 ⟨hi⟩ inner.1
    have held : (inner.2.types.record ⟨hi⟩ inner.1).1 = inner.1 := by
      unfold StaticTypes.record
      rw [still]
    refine ⟨(quiet.split earlier.findings last.findings).1, last.types, held, ?_⟩
    rw [record_apply]
    simp only [StaticTypes.get?_record, if_true]
    exact congrArg some held
  refine ⟨⟨?_, ?_, ?_, ?_⟩, ?_⟩
  · exact fun checker recorded => (node_fills le found fills recorded).1
  · exact fun checker recorded => (node_fills le found fills recorded).2
  · intro checker recorded fresh id above below
    have unknown := fresh ⟨hi⟩ le (Nat.lt_succ_self _)
    rw [typeWithin_of_fresh unknown found, bind_apply]
    by_cases root : id.index = hi
    · obtain rfl : id = ⟨hi⟩ := congrArg ExprId.mk root
      simp [record_apply, StaticTypes.get?_record]
    · have inside : Fresh lo hi checker := fun id above below => fresh id above (Nat.lt_succ_of_lt below)
      exact (Checker.Extends.record _ _ _).types.isSome (fills.filled checker recorded inside id above (by omega))
  · intro checker recorded fresh quiet id above below
    have inside : Fresh lo hi checker := fun id above below => fresh id above (Nat.lt_succ_of_lt below)
    obtain ⟨quiet, extended, _, typed⟩ := after checker recorded fresh quiet
    by_cases root : id.index = hi
    · obtain rfl : id = ⟨hi⟩ := congrArg ExprId.mk root
      exact ⟨expr, _, found, typed, fun later further =>
        judged checker recorded inside quiet later (extended.trans further)⟩
    · exact (fills.settled checker recorded inside quiet id above (by omega)).extend extended
  · intro checker recorded fresh quiet later further table
    obtain ⟨_, _, same, typed⟩ := after checker recorded fresh quiet
    rw [ask, further _ _ typed, same]
    rfl

theorem node_of_mirrors (le : lo ≤ hi) (found : tree.expr? ⟨hi⟩ = some expr)
    (mirrors : Mirrors tree lo hi (infer tree (typeWithin tree depth) expr) fun later => infer tree (ask later) expr) :
    Mirrors tree lo (hi + 1) (typeWithin tree (depth + 1) ⟨hi⟩) (ask · ⟨hi⟩) :=
  node_mirrors le found mirrors.toFills fun checker recorded fresh quiet later extended =>
    ⟨checker.types, mirrors.mirrored checker recorded fresh quiet later extended checker.types⟩

end

theorem expr?_of_kind {tree : Tree} {id : ExprId} {kind : ExprKind} (found : tree.kind? id = some kind) :
    ∃ span, tree.expr? id = some ⟨kind, span⟩ := by
  simp only [Tree.kind?, Option.map_eq_some_iff] at found
  obtain ⟨expr, found, rfl⟩ := found
  exact ⟨expr.span, found⟩

theorem name_mirrors {tree : Tree} (lo depth : Nat) (name : String) (span : Span) :
    Mirrors tree lo lo (infer tree (typeWithin tree depth) ⟨.name name, span⟩)
      fun later => infer tree (ask later) ⟨.name name, span⟩ := by
  -- what a name stands for has its type by now, so that nothing is typed here
  have declared (checker : Checker) (recorded : Recorded checker) {producer : ExprId}
      (found : checker.declared.lookup? name = some producer) :
      ∃ type, checker.types.get? producer = some type ∧
        infer tree (typeWithin tree depth) ⟨.name name, span⟩ checker = (type, checker) := by
    obtain ⟨type, typed⟩ := Option.isSome_iff_exists.mp (recorded name producer found)
    refine ⟨type, typed, ?_⟩
    simp only [infer, bind_apply, declared?_apply, found]
    exact typeWithin_of_recorded typed depth
  have undeclared (checker : Checker) (found : checker.declared.lookup? name = none) :
      infer tree (typeWithin tree depth) ⟨.name name, span⟩ checker =
        (.unknown, (report span.start.line (.undeclared name) checker).2) := by
    simp only [infer, bind_apply, declared?_apply, found]
    rfl
  refine ⟨⟨?_, ?_, fun _ _ _ _ above below => absurd below (Nat.not_lt.mpr above),
    fun _ _ _ _ _ above below => absurd below (Nat.not_lt.mpr above)⟩, ?_⟩
  · intro checker recorded
    cases found : checker.declared.lookup? name with
    | none =>
      rw [undeclared checker found]
      exact .report checker _ _
    | some producer =>
      obtain ⟨type, _, same⟩ := declared checker recorded found
      rw [same]
      exact .refl checker
  · intro checker recorded id _
    cases found : checker.declared.lookup? name with
    | none =>
      rw [undeclared checker found]
      rfl
    | some producer =>
      obtain ⟨type, _, same⟩ := declared checker recorded found
      rw [same]
  · intro checker recorded _ quiet later extended table
    cases found : checker.declared.lookup? name with
    | none =>
      rw [undeclared checker found] at quiet
      exact absurd quiet Checker.Quiet.not_report
    | some producer =>
      obtain ⟨type, typed, same⟩ := declared checker recorded found
      rw [same] at extended ⊢
      simp only [infer, bind_apply, declared?_apply, silent, found, ask, extended _ _ typed]
      rfl

open Grammar

/-- An expression or an index whose nodes end at `hi` is typed with the nodes that lie there. -/
def Typed (tree : Tree) (hi : Nat) : Prop :=
  (∀ lo id term, ExprLayout tree lo hi id term → ∀ depth, hi ≤ depth →
    Mirrors tree lo hi (typeWithin tree depth id) (ask · id)) ∧
  ∀ lo id index, IndexLayout tree lo hi id index → ∀ depth, hi ≤ depth →
    Mirrors tree lo hi (typeWithin tree depth id) (ask · id)

theorem operands_mirror {tree : Tree} {lo mid hi bound depth : Nat} {left right : ExprId} {a b : Term}
    (ih : ∀ last, last < bound → Typed tree last) (below : hi < bound) (first : ExprLayout tree lo mid left a)
    (second : ExprLayout tree mid hi right b) (room : hi ≤ depth) :
    lo ≤ mid ∧ mid ≤ hi ∧ Mirrors tree lo mid (typeWithin tree depth left) (ask · left) ∧
      Mirrors tree mid hi (typeWithin tree depth right) (ask · right) := by
  have le := Nat.le_of_lt first.lt
  have le' := Nat.le_of_lt second.lt
  exact ⟨le, le', (ih mid (Nat.lt_of_le_of_lt le' below)).1 lo left a first depth (Nat.le_trans le' room),
    (ih hi below).1 mid right b second depth room⟩

theorem range_mirrors {tree : Tree} {lo mid hi depth : Nat} {start stop : ExprId} {a b : Term}
    (ih : ∀ last, last < hi + 1 → Typed tree last) (first : ExprLayout tree lo mid start a)
    (second : ExprLayout tree mid hi stop b) (node : tree.kind? ⟨hi⟩ = some (.range start stop)) (room : hi ≤ depth) :
    Mirrors tree lo (hi + 1) (typeWithin tree (depth + 1) ⟨hi⟩) (ask · ⟨hi⟩) := by
  obtain ⟨span, found⟩ := expr?_of_kind node
  obtain ⟨le, le', one, two⟩ := operands_mirror ih (Nat.lt_succ_self hi) first second room
  refine node_of_mirrors (Nat.le_trans le le') found ?_
  exact (checkBound_mirrors one le _ .start).bind
    (fun _ => (checkBound_mirrors two le' _ .stop).then (fun _ => .pure _) le') le le'

theorem expr_mirrors {tree : Tree} {lo hi depth : Nat} {id : ExprId} {term : Term}
    (ih : ∀ last, last < hi → Typed tree last) (layout : ExprLayout tree lo hi id term) (room : hi ≤ depth) :
    Mirrors tree lo hi (typeWithin tree depth id) (ask · id) := by
  obtain ⟨depth, rfl⟩ : ∃ smaller, depth = smaller + 1 := ⟨depth - 1, by have := layout.lt; omega⟩
  cases layout with
  | int _ node | float _ node | text node =>
    obtain ⟨span, found⟩ := expr?_of_kind node
    exact node_of_mirrors (Nat.le_refl _) found (.pure _ _ fun _ => rfl)
  | name node =>
    obtain ⟨span, found⟩ := expr?_of_kind node
    exact node_of_mirrors (Nat.le_refl _) found (name_mirrors _ _ _ _)
  | @array _ hi ids items stretch node =>
    obtain ⟨span, found⟩ := expr?_of_kind node
    have le := ExprLayout.stretch_le stretch
    have all := mapM_mirrors stretch (typeWithin tree depth) ask (fun _ _ _ _ => ExprLayout.lt)
      fun first last id x inside item => (ih last (Nat.lt_succ_of_le inside)).1 first id x item depth (by omega)
    exact node_mirrors le found (inferArray_fills le all _) fun checker recorded fresh quiet later extended =>
      inferArray_mirrored le all _ recorded fresh quiet extended
  | @indexed _ hi base ids indices name _ stretch node =>
    obtain ⟨span, found⟩ := expr?_of_kind node
    have le := stretch.le (fun n => n) fun _ _ _ _ _ => IndexLayout.lt
    have one := (ih (lo + 1) (by omega)).1 lo ⟨lo⟩ base.term (Base.lies name) depth (by omega)
    refine node_of_mirrors (by omega) found
      (inferIndexed_mirrors one (Nat.le_succ _) stretch (fun _ _ _ _ => IndexLayout.lt) ?_ _)
    exact fun first last id x inside item =>
      (ih last (Nat.lt_succ_of_le inside)).2 first id x item depth (by omega)
  | @linear _ mid hi left right op a b first second node =>
    obtain ⟨span, found⟩ := expr?_of_kind node
    obtain ⟨le, le', one, two⟩ := operands_mirror ih (Nat.lt_succ_self hi) first second (Nat.le_of_succ_le_succ room)
    exact node_of_mirrors (Nat.le_trans le le') found
      (inferArith_mirrors one two le le' span.start.line (.linear op) productShape)
  | @elementwise _ mid hi left right op a b first second node =>
    obtain ⟨span, found⟩ := expr?_of_kind node
    obtain ⟨le, le', one, two⟩ := operands_mirror ih (Nat.lt_succ_self hi) first second (Nat.le_of_succ_le_succ room)
    exact node_of_mirrors (Nat.le_trans le le') found
      (inferArith_mirrors one two le le' span.start.line (.elementwise op) cellwiseShape)
  | @compare _ mid hi left right op a b first second node =>
    obtain ⟨span, found⟩ := expr?_of_kind node
    obtain ⟨le, le', one, two⟩ := operands_mirror ih (Nat.lt_succ_self hi) first second (Nat.le_of_succ_le_succ room)
    exact node_of_mirrors (Nat.le_trans le le') found (inferCompare_mirrors one two le le' _ _)
  | @negate _ hi operand term inner node =>
    obtain ⟨span, found⟩ := expr?_of_kind node
    have le := Nat.le_of_lt inner.lt
    have one := (ih hi (by omega)).1 lo operand term inner depth (by omega)
    refine node_of_mirrors le found (one.then (fun type => ?_) le)
    -- the type is handed on or refused, and nothing more is typed
    split
    iterate 5 exact .pure _
    exact .reported _ _ _
  | @transpose _ hi operand term inner node =>
    obtain ⟨span, found⟩ := expr?_of_kind node
    have le := Nat.le_of_lt inner.lt
    have one := (ih hi (by omega)).1 lo operand term inner depth (by omega)
    refine node_of_mirrors le found (one.then (fun type => ?_) le)
    split
    iterate 3 exact .pure _
    exact .reported _ _ _
  | @builtin _ hi function ids arguments stretch node =>
    obtain ⟨span, found⟩ := expr?_of_kind node
    have le := ExprLayout.stretch_le stretch
    refine node_of_mirrors le found (inferBuiltin_mirrors stretch (fun _ _ _ _ => ExprLayout.lt) ?_ _ _)
    exact fun first last id x inside item =>
      (ih last (Nat.lt_succ_of_le inside)).1 first id x item depth (by omega)

theorem typed (tree : Tree) (hi : Nat) : Typed tree hi := by
  induction hi using Nat.strongRecOn with
  | ind hi ih =>
    have exprs (lo : Nat) (id : ExprId) (term : Term) (layout : ExprLayout tree lo hi id term) (depth : Nat)
        (room : hi ≤ depth) : Mirrors tree lo hi (typeWithin tree depth id) (ask · id) :=
      expr_mirrors ih layout room
    refine ⟨exprs, fun lo id index layout depth room => ?_⟩
    cases layout with
    | point inner => exact exprs lo id _ inner depth room
    | span first second node =>
      obtain ⟨depth, rfl⟩ : ∃ smaller, depth = smaller + 1 := ⟨depth - 1, by omega⟩
      exact range_mirrors ih first second node (by omega)

theorem kind?_lt {tree : Tree} {id : ExprId} {kind : ExprKind} (found : tree.kind? id = some kind) :
    id.index < tree.exprs.size := by
  obtain ⟨span, found⟩ := expr?_of_kind found
  exact (Array.getElem?_eq_some_iff.mp found).1

theorem typeOf_mirrors {tree : Tree} {lo hi : Nat} {id : ExprId} {term : Term}
    (layout : ExprLayout tree lo hi id term) : Mirrors tree lo hi (typeOf tree id) (ask · id) := by
  refine (typed tree hi).1 lo id term layout _ ?_
  obtain ⟨kind, node⟩ := layout.node
  have inside := kind?_lt node
  rw [layout.root]
  omega

theorem typeOf_held {tree : Tree} {id : ExprId} {kind : ExprKind} (node : tree.kind? id = some kind)
    (checker : Checker) : (typeOf tree id checker).2.types.get? id = some (typeOf tree id checker).1 := by
  obtain ⟨span, found⟩ := expr?_of_kind node
  exact typeWithin_held found _ checker

theorem typeOf_range_mirrors {tree : Tree} {lo mid hi : Nat} {start stop : ExprId} {a b : Term}
    (first : ExprLayout tree lo mid start a) (second : ExprLayout tree mid hi stop b)
    (node : tree.kind? ⟨hi⟩ = some (.range start stop)) :
    Mirrors tree lo (hi + 1) (typeOf tree ⟨hi⟩) (ask · ⟨hi⟩) := by
  refine (typed tree (hi + 1)).2 lo ⟨hi⟩ _ (.span first second node) _ ?_
  have inside : hi < tree.exprs.size := kind?_lt node
  omega

end MatrixScript.Typing
