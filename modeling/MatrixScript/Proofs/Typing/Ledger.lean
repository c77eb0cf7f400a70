import MatrixScript.Proofs.Typing.Judgement
import MatrixScript.Proofs.Typing.Walk

/-! The checker as a ledger.

Expressions, statements and whole programs can be checked in any order and again and again. What has been recorded and
reported stays, and the table is in order after every request: exactly the arrays are recorded with a shape, a comparison
is recorded as a condition, and an array is recorded as tainted only when something has been reported.
-/

set_option autoImplicit false

namespace MatrixScript

open Typing

structure Checker.Grows (before after : Checker) : Prop where
  types : before.types.Extends after.types
  findings : before.findings.toList <+: after.findings.toList

namespace Checker.Grows

theorem refl (checker : Checker) : checker.Grows checker := ⟨.refl _, List.prefix_refl _⟩

theorem trans {first second third : Checker} (earlier : first.Grows second) (later : second.Grows third) :
    first.Grows third :=
  ⟨earlier.types.trans later.types, earlier.findings.trans later.findings⟩

theorem found {before after : Checker} (grows : before.Grows after) (found : before.findings ≠ #[]) :
    after.findings ≠ #[] := by
  intro none
  have reach := grows.findings
  rw [none, List.prefix_nil] at reach
  exact found (Array.toList_eq_nil_iff.mp reach)

end Checker.Grows

theorem Checker.Extends.grows {before after : Checker} (extended : before.Extends after) : before.Grows after :=
  ⟨extended.types, extended.findings⟩

namespace StaticType

/-- Exactly an array has a shape. -/
def Shaped (type : StaticType) : Prop := type.shape?.isSome ↔ type.tag.isArrayLike

theorem shaped_ofTag (tag : Tag) : (ofTag tag).Shaped := by
  simp [Shaped, ofTag, ofTagWith]

theorem shaped_array (shape : Shape) : (array shape).Shaped := ⟨fun _ => rfl, fun _ => rfl⟩

theorem shaped_tainted (shape : Shape) : (tainted shape).Shaped := ⟨fun _ => rfl, fun _ => rfl⟩

end StaticType

/-- A type that may be recorded. A tainted array has been reported. -/
structure Checker.Backs (checker : Checker) (type : StaticType) : Prop where
  shaped : type.Shaped
  reported : type.tag = .tainted → checker.findings ≠ #[]

theorem Checker.Backs.grow {before after : Checker} {type : StaticType} (backs : before.Backs type)
    (grows : before.Grows after) : after.Backs type :=
  ⟨backs.shaped, fun tainted => grows.found (backs.reported tainted)⟩

def ExprKind.isCompare : ExprKind → Bool
  | .compare _ _ _ => true
  | _ => false

structure Checker.Fits (tree : Tree) (checker : Checker) (id : ExprId) (type : StaticType) : Prop where
  backed : checker.Backs type
  compared : ∀ kind, tree.kind? id = some kind → kind.isCompare → type = .bool

theorem Checker.Fits.grow {tree : Tree} {before after : Checker} {id : ExprId} {type : StaticType}
    (fits : before.Fits tree id type) (grows : before.Grows after) : after.Fits tree id type :=
  ⟨fits.backed.grow grows, fits.compared⟩

def Checker.InOrder (tree : Tree) (checker : Checker) : Prop :=
  ∀ id type, checker.types.get? id = some type → checker.Fits tree id type

theorem Checker.InOrder.start (tree : Tree) : (Checker.start tree).InOrder tree := by
  intro id type typed
  cases (StaticTypes.get?_ofSize _ id).symm.trans typed

namespace Typing

/-- An action that starts with `before` adds to the ledger, leaves it in order and ends with `after`. -/
structure Orderly {α : Type} (tree : Tree) (before : Checker → Prop) (action : Check α)
    (after : α → Checker → Prop) : Prop where
  grows : ∀ checker : Checker, checker.Grows (action checker).2
  inOrder : ∀ checker, checker.InOrder tree → before checker → (action checker).2.InOrder tree
  ends : ∀ checker, checker.InOrder tree → before checker → after (action checker).1 (action checker).2

abbrev Plain {α : Type} (tree : Tree) (action : Check α) : Prop := Orderly tree (fun _ => True) action fun _ _ => True

abbrev Replies (tree : Tree) (action : Check StaticType) : Prop :=
  Orderly tree (fun _ => True) action fun type checker => checker.Backs type

section

variable {α β : Type} {tree : Tree} {before before' : Checker → Prop} {after after' : α → Checker → Prop}
  {action : Check α}

theorem Orderly.weaken (orderly : Orderly tree before action after)
    (known : ∀ checker, before' checker → before checker) : Orderly tree before' action after where
  grows := orderly.grows
  inOrder checker sound start := orderly.inOrder checker sound (known checker start)
  ends checker sound start := orderly.ends checker sound (known checker start)

theorem Orderly.map (orderly : Orderly tree before action after)
    (known : ∀ value checker, after value checker → after' value checker) : Orderly tree before action after' where
  grows := orderly.grows
  inOrder := orderly.inOrder
  ends checker sound start := known _ _ (orderly.ends checker sound start)

theorem Orderly.plain (orderly : Orderly tree (fun _ => True) action after) : Plain tree action where
  grows := orderly.grows
  inOrder := orderly.inOrder
  ends _ _ _ := trivial

theorem Orderly.bind {next : α → Check β} {last : β → Checker → Prop}
    (first : Orderly tree before action after) (second : ∀ value, Orderly tree (after value) (next value) last) :
    Orderly tree before (action >>= next) last where
  grows checker := (first.grows checker).trans ((second _).grows _)
  inOrder checker sound start :=
    (second _).inOrder _ (first.inOrder checker sound start) (first.ends checker sound start)
  ends checker sound start := (second _).ends _ (first.inOrder checker sound start) (first.ends checker sound start)

theorem Orderly.then {next : α → Check β} {last : β → Checker → Prop}
    (first : Orderly tree before action after)
    (second : ∀ value, Orderly tree (fun _ => True) (next value) last) : Orderly tree before (action >>= next) last :=
  first.bind fun value => (second value).weaken fun _ _ => trivial

theorem Orderly.pure {value : α} (known : ∀ checker, before checker → after value checker) :
    Orderly tree before (Pure.pure value) after where
  grows := .refl
  inOrder _ sound _ := sound
  ends checker _ start := known checker start

end

namespace Plain

variable {α : Type} {tree : Tree}

theorem of_eq {action : Check α} (types : ∀ checker, (action checker).2.types = checker.types)
    (findings : ∀ checker, (action checker).2.findings = checker.findings) : Plain tree action where
  grows checker := by
    constructor
    · rw [types]
      exact .refl _
    · exact (findings checker).symm ▸ List.prefix_refl _
  inOrder checker sound _ := by
    intro id type typed
    rw [types] at typed
    obtain ⟨backed, compared⟩ := sound id type typed
    refine ⟨⟨backed.shaped, ?_⟩, compared⟩
    rw [findings]
    exact backed.reported
  ends _ _ _ := trivial

theorem pure (value : α) : Plain tree (Pure.pure value) := Orderly.pure fun _ _ => trivial

theorem get : Plain tree MonadState.get := .of_eq (fun _ => rfl) fun _ => rfl

theorem declared? (name : String) : Plain tree (Check.declared? name) := .of_eq (fun _ => rfl) fun _ => rfl

theorem declare (name : String) (producer : ExprId) : Plain tree (Check.declare name producer) :=
  .of_eq (fun _ => rfl) fun _ => rfl

theorem report (line : Nat) (problem : Problem) : Plain tree (Check.report line problem) where
  grows checker := (Checker.Extends.report checker line problem).grows
  inOrder checker sound _ := by
    intro id type typed
    exact (sound id type typed).grow (Checker.Extends.report checker line problem).grows
  ends _ _ _ := trivial

theorem closed : Closed fun {α} (action : Check α) => Plain tree action where
  pure := pure
  bind := fun first second => first.then second
  get := get
  declared? := declared?
  declare := declare
  report line _ _ := report line _

end Plain

namespace Replies

variable {tree : Tree} {type : StaticType}

theorem pure (shaped : type.Shaped) (clean : type.tag ≠ .tainted) : Replies tree (Pure.pure type) :=
  Orderly.pure fun _ _ => ⟨shaped, fun tainted => absurd tainted clean⟩

theorem ofTag {tag : Tag} (clean : tag ≠ .tainted) : Replies tree (Pure.pure (.ofTag tag)) :=
  .pure (StaticType.shaped_ofTag tag) clean

theorem array (shape : Shape) : Replies tree (Pure.pure (.array shape)) := .pure (StaticType.shaped_array shape) nofun

theorem reported (line : Nat) (problem : Problem) (shaped : type.Shaped) :
    Replies tree (do Check.report line problem; return type) where
  grows := (Plain.report line problem : Plain tree _).grows
  inOrder := (Plain.report line problem : Plain tree _).inOrder
  ends checker _ _ := by
    refine ⟨shaped, fun _ => ?_⟩
    simp

theorem refused (line : Nat) (problem : Problem) (tag : Tag) :
    Replies tree (do Check.report line problem; return .ofTag tag) :=
  .reported line problem (StaticType.shaped_ofTag tag)

theorem taints (line : Nat) (problem : Problem) (shape : Shape) :
    Replies tree (do Check.report line problem; return .tainted shape) :=
  .reported line problem (StaticType.shaped_tainted shape)

end Replies

section

variable {tree : Tree} (line : Nat)

theorem elem_clean (elem : ElemType) : elem.tag ≠ .tainted := by
  cases elem with
  | int | float | unknown => exact nofun

theorem inferCell_replies (shape : Shape) (rows cols : Selection) : Replies tree (inferCell line shape rows cols) := by
  refine (selectAxis_walk Plain.closed line _ _ _).then fun rowSize => ?_
  refine (selectAxis_walk Plain.closed line _ _ _).then fun colSize => ?_
  split
  · exact Replies.ofTag (elem_clean _)
  · exact Replies.array _

theorem inferFlat_replies (shape : Shape) (index : Selection) : Replies tree (inferFlat line shape index) := by
  unfold inferFlat
  split
  · refine (selectAxis_walk Plain.closed line _ _ _).then fun size => ?_
    cases size with
    | none => exact Replies.ofTag (elem_clean _)
    | some cols => exact Replies.array _
  · refine (selectAxis_walk Plain.closed line _ _ _).then fun size => ?_
    cases size with
    | none | some _ => exact Replies.array _
  · cases index with
    | span _ => exact Replies.array _
    | point _ | invalid => exact Replies.ofTag nofun

end

section

open Compatibility

theorem numeric_clean (op : Arith) (keys : List Key) : numeric op keys ≠ .type .tainted := by
  unfold numeric intRow floatRow textRow
  grind

theorem arrayRow_clean (keys : List Key) : arrayRow keys ≠ .type .tainted := by
  unfold arrayRow
  grind

theorem unknownRow_clean {verdict : Verdict} (clean : verdict ≠ .type .tainted) (keys : List Key) :
    unknownRow verdict keys ≠ .type .tainted := by
  unfold unknownRow
  grind

theorem linear_clean (op : Arith) (keys : List Key) : linear op keys ≠ .type .tainted := by
  unfold linear
  grind [numeric_clean, arrayRow_clean, unknownRow_clean]

theorem elementwise_clean (keys : List Key) : elementwise keys ≠ .type .tainted := by
  unfold elementwise
  grind [arrayRow_clean, unknownRow_clean]

end

section

variable {tree : Tree} {child : ExprId → Check StaticType} (each : ∀ id, Replies tree (child id)) (line : Nat)
include each

theorem inferIndexed_replies (base : ExprId) (indices : List ExprId) :
    Replies tree (inferIndexed tree child line base indices) := by
  have index (id : ExprId) : Plain tree (checkIndex tree child line id) :=
    checkIndex_walk Plain.closed (fun id => (each id).plain) line id
  refine (each base).then fun type => (Plain.closed.mapM index indices).then fun selections => ?_
  cases type.tag with
  | text =>
    dsimp only
    split
    · exact Replies.ofTag nofun
    · exact Replies.refused line _ _
  | unknown => exact Replies.ofTag nofun
  | array | tainted =>
    dsimp only
    split
    · exact inferCell_replies line _ _ _
    · exact inferFlat_replies line _ _
    · exact Replies.refused line _ _
  | int | float | bool | range => exact Replies.refused line _ _

/-- An array is answered as tainted after a report of its shapes only. -/
theorem inferArith_replies (operator : Operator) (clean : ∀ keys, operator.verdict keys ≠ .type .tainted)
    (join : Shape → Shape → Bool × Shape) (left right : ExprId) :
    Replies tree (inferArith child line operator join left right) := by
  refine (each left).then fun a => (each right).then fun b => ?_
  split
  · dsimp only
    split
    · exact Replies.taints line _ _
    · exact Replies.array _
  · next verdict =>
    refine Replies.ofTag ?_
    rintro rfl
    exact clean _ verdict
  · exact Replies.refused line _ _

theorem inferCompare_replies (op : Compare) (left right : ExprId) :
    Replies tree (inferCompare child line op left right) := by
  refine (each left).then fun a => (each right).then fun b => ?_
  split
  · exact Replies.refused line _ _
  · exact Replies.ofTag nofun

theorem inferArray_replies (items : List ExprId) : Replies tree (inferArray tree child line items) := by
  refine (Plain.closed.mapM (fun id => (each id).plain) items).then fun types => ?_
  split
  · exact Replies.array _
  · split
    · refine Plain.get.then fun checker => ?_
      dsimp only
      split
      · exact Replies.taints line _ _
      · split
        · exact Replies.array _
        · exact Replies.taints line _ _
    · split
      · exact Replies.array _
      · exact Replies.taints line _ _

theorem inferBuiltin_replies (function : Builtin) (arguments : List ExprId) :
    Replies tree (inferBuiltin tree child line function arguments) := by
  have dimension (id : ExprId) : Plain tree (inferDimension tree child line function id) :=
    inferDimension_walk Plain.closed (fun id => (each id).plain) line function id
  unfold inferBuiltin
  split
  · exact (dimension _).then fun _ => Replies.array _
  · exact (dimension _).then fun _ => (dimension _).then fun _ => Replies.array _
  · refine (Plain.closed.mapM (fun id => (each id).plain) arguments).then fun _ => ?_
    exact Replies.reported line _ (StaticType.shaped_array _)

omit line in
theorem infer_replies (expr : Expr) : Replies tree (infer tree child expr) := by
  obtain ⟨kind, span⟩ := expr
  cases kind with
  | int _ | float _ | text _ => exact Replies.ofTag nofun
  | name name =>
    refine (Plain.declared? name).then fun found => ?_
    cases found with
    | some producer => exact each producer
    | none => exact Replies.refused _ _ _
  | array items => exact inferArray_replies each _ items
  | indexed base indices => exact inferIndexed_replies each _ base indices
  | linear left op right => exact inferArith_replies each _ (.linear op) (linear_clean op) productShape left right
  | elementwise left op right =>
    exact inferArith_replies each _ (.elementwise op) elementwise_clean cellwiseShape left right
  | compare left op right => exact inferCompare_replies each _ op left right
  | negate operand =>
    -- the type of the operand is handed on, tainted or not
    refine (each operand).bind fun type => ?_
    cases type.tag with
    | int | float | unknown | array | tainted => exact Orderly.pure fun _ backs => backs
    | text | bool | range => exact (Replies.refused _ _ _).weaken fun _ _ => trivial
  | transpose operand =>
    refine (each operand).bind fun type => ?_
    cases tag : type.tag with
    | array => exact (Replies.array _).weaken fun _ _ => trivial
    | tainted => exact Orderly.pure fun _ backs => ⟨StaticType.shaped_tainted _, fun _ => backs.reported tag⟩
    | unknown => exact Orderly.pure fun _ backs => backs
    | int | float | text | bool | range => exact (Replies.refused _ _ _).weaken fun _ _ => trivial
  | builtin function arguments => exact inferBuiltin_replies each _ function arguments
  | range start stop =>
    have bounded (bound : Bound) (id : ExprId) : Plain tree (checkBound child span.start.line bound id) :=
      checkBound_walk Plain.closed (fun id => (each id).plain) _ bound id
    exact (bounded .start start).then fun _ => (bounded .stop stop).then fun _ => Replies.ofTag nofun

end

theorem infer_compared {tree : Tree} {child : ExprId → Check StaticType} {expr : Expr} (compare : expr.kind.isCompare)
    (checker : Checker) : (infer tree child expr checker).1 = .bool := by
  obtain ⟨kind, span⟩ := expr
  cases kind with
  | compare left op right =>
    simp only [infer, inferCompare, Check.bind_apply]
    split <;> rfl
  | _ => cases compare

section

variable {tree : Tree} {id : ExprId}

theorem infer_fits {child : ExprId → Check StaticType} (each : ∀ id, Replies tree (child id)) {expr : Expr}
    (found : tree.expr? id = some expr) :
    Orderly tree (fun _ => True) (infer tree child expr) fun type checker => checker.Fits tree id type where
  grows := (infer_replies each expr).grows
  inOrder := (infer_replies each expr).inOrder
  ends checker sound start := by
    refine ⟨(infer_replies each expr).ends checker sound start, fun kind node compare => ?_⟩
    rw [Tree.kind?, found] at node
    cases node
    exact infer_compared compare checker

theorem recorded?_fits :
    Orderly tree (fun _ => True) (Check.recorded? id) fun found checker =>
      ∀ type ∈ found, checker.Fits tree id type where
  grows := .refl
  inOrder _ sound _ := sound
  ends _ sound _ := sound id

/-- What the table holds after recording is a type that was there or the new one, and both fit. -/
theorem record_fits (type : StaticType) :
    Orderly tree (fun checker => checker.Fits tree id type) (Check.record id type) fun held checker =>
      checker.Fits tree id held := by
  have grows (checker : Checker) := (Checker.Extends.record checker id type).grows
  have held (checker : Checker) (sound : checker.InOrder tree) (fits : checker.Fits tree id type) :
      checker.Fits tree id (checker.types.record id type).1 := by
    unfold StaticTypes.record
    split
    · next known typed => exact sound id known typed
    · exact fits
  -- the entries beside the recorded one are as they were, and they fit a checker that has only grown
  refine ⟨grows, fun checker sound fits other known typed => ?_, fun checker sound fits => ?_⟩
  · rw [Check.record_apply, StaticTypes.get?_record] at typed
    split at typed
    · next same =>
      cases typed
      rw [same]
      exact (held checker sound fits).grow (grows checker)
    · exact (sound other known typed).grow (grows checker)
  · exact (held checker sound fits).grow (grows checker)

end

theorem typeWithin_replies (tree : Tree) (depth : Nat) (id : ExprId) : Replies tree (typeWithin tree depth id) := by
  induction depth generalizing id with
  | zero =>
    refine recorded?_fits.bind fun known => Orderly.pure fun checker fits => ?_
    cases known with
    | some type => exact (fits type rfl).backed
    | none => exact ⟨StaticType.shaped_ofTag _, nofun⟩
  | succ depth ih =>
    refine recorded?_fits.bind fun known => ?_
    cases known with
    | some type => exact Orderly.pure fun checker fits => (fits type rfl).backed
    | none =>
      -- only an expression without a type is inferred, and what is known of the table before that is not needed
      refine Orderly.weaken ?_ fun _ _ => trivial
      dsimp only
      cases found : tree.expr? id with
      | none => exact Replies.ofTag nofun
      | some expr => exact (infer_fits ih found).bind fun type => (record_fits type).map fun _ _ fits => fits.backed

theorem typeOf_orderly (tree : Tree) (id : ExprId) : Plain tree (typeOf tree id) := (typeWithin_replies tree _ id).plain

namespace Plain

variable {tree : Tree}

theorem modify {change : Checker → Checker} (types : ∀ checker, (change checker).types = checker.types)
    (findings : ∀ checker, (change checker).findings = checker.findings) :
    Plain tree (modify change : Check Unit) :=
  .of_eq types findings

theorem inScope {body : Check Unit} (plain : Plain tree body) (label : String) :
    Plain tree (Check.inScope label body) := by
  refine (Plain.modify ?_ ?_).then fun _ => plain.then fun _ => Plain.modify ?_ ?_
  all_goals exact fun _ => rfl

theorem inLoop {body : Check Unit} (plain : Plain tree body) : Plain tree (Check.inLoop body) := by
  apply Plain.inScope
  refine (Plain.modify ?_ ?_).then fun _ => plain.then fun _ => Plain.modify ?_ ?_
  all_goals exact fun _ => rfl

end Plain

section

variable {tree : Tree}

theorem signal_orderly (line : Nat) (problem : Problem) :
    Plain tree (do if (← get).loopDepth = 0 then Check.report line problem) := by
  refine Plain.get.then fun checker => ?_
  split
  · exact Plain.report line problem
  · exact Plain.pure _

theorem checkNode_orderly {statement : StmtId → Check Unit} (each : ∀ id, Plain tree (statement id)) (stmt : Stmt) :
    Plain tree (checkNode tree statement stmt) := by
  have tested := checkCondition_walk Plain.closed (typeOf_orderly tree)
  obtain ⟨kind, span⟩ := stmt
  cases kind with
  | block body => exact Plain.closed.forM fun id _ => each id
  | assign target op value => exact checkAssignment_walk Plain.closed (typeOf_orderly tree) _ target op value
  | forRange name range body =>
    refine (typeOf_orderly tree range).then fun _ => Plain.inLoop ?_
    exact (declareCounter_walk Plain.closed _ name range).then fun _ => each body
  | whileLoop condition body => exact (tested condition).then fun _ => (each body).inLoop
  | branch condition thenBody elseBody =>
    refine (tested condition).then fun _ => ((each thenBody).inScope "if").then fun _ => ?_
    cases elseBody with
    | none => exact Plain.pure _
    | some body => exact (each body).inScope "else"
  | breakLoop => exact signal_orderly _ _
  | continueLoop => exact signal_orderly _ _
  | giveBack values | print values =>
    exact Plain.closed.forM fun id _ => (typeOf_orderly tree id).then fun _ => Plain.pure _

theorem checkWithin_orderly (depth : Nat) (id : StmtId) : Plain tree (checkWithin tree depth id) := by
  induction depth generalizing id with
  | zero => exact .pure _
  | succ depth ih =>
    unfold checkWithin
    cases tree.stmt? id with
    | none => exact .pure _
    | some stmt => exact checkNode_orderly ih stmt

end

end Typing

inductive Request where
  | expression (id : ExprId)
  | statement (id : StmtId)
  | program
  deriving DecidableEq, Repr

def Request.serve (tree : Tree) : Request → Check Unit
  | .expression id => discard (typeOf tree id)
  | .statement id => checkStatement tree id
  | .program => checkProgram tree

/-- A new checker after some requests. -/
def Checker.after (tree : Tree) (requests : List Request) : Checker :=
  (requests.forM (Request.serve tree) (.start tree)).2

theorem Request.serve_orderly (tree : Tree) (request : Request) : Plain tree (request.serve tree) := by
  cases request with
  | expression id => exact (typeOf_orderly tree id).then fun _ => Plain.pure _
  | statement id => exact checkWithin_orderly _ id
  | program => exact Plain.closed.forM fun top _ => checkWithin_orderly _ top

section

variable (tree : Tree) (earlier later : List Request)

theorem Checker.after_inOrder : (Checker.after tree earlier).InOrder tree :=
  (Plain.closed.forM fun request _ => Request.serve_orderly tree request).inOrder _ (.start tree) trivial

theorem Checker.after_append :
    Checker.after tree (earlier ++ later) = (later.forM (Request.serve tree) (Checker.after tree earlier)).2 := by
  have apart : (earlier ++ later).forM (Request.serve tree) =
      earlier.forM (Request.serve tree) >>= fun _ => later.forM (Request.serve tree) :=
    List.forM_append
  unfold Checker.after
  rw [apart]
  rfl

theorem Checker.after_grows : (Checker.after tree earlier).Grows (Checker.after tree (earlier ++ later)) := by
  rw [Checker.after_append]
  exact (Plain.closed.forM fun request _ => Request.serve_orderly tree request).grows _

/-- Whatever a checker is asked and however often: a type that it has recorded never changes and is given back without
any effect, its findings are only added to, exactly the arrays have a shape, and a tainted array is recorded only when
something has been found. -/
theorem Checker.after_keeps_ledger :
    (∀ id type, (Checker.after tree earlier).types.get? id = some type →
      (Checker.after tree (earlier ++ later)).types.get? id = some type ∧
      typeOf tree id (Checker.after tree earlier) = (type, Checker.after tree earlier) ∧
      (type.shape?.isSome ↔ type.tag = .array ∨ type.tag = .tainted)) ∧
    (Checker.after tree earlier).findings.toList <+: (Checker.after tree (earlier ++ later)).findings.toList ∧
    ((∃ id type, (Checker.after tree earlier).types.get? id = some type ∧ type.tag = .tainted) →
      (Checker.after tree earlier).findings ≠ #[]) := by
  have grows := Checker.after_grows tree earlier later
  have sound := Checker.after_inOrder tree earlier
  refine ⟨fun id type typed => ⟨grows.types id type typed, typeWithin_of_recorded typed _, ?shapes⟩, grows.findings,
    ?tainted⟩
  case shapes =>
    rw [← Tag.isArrayLike_iff]
    exact (sound id type typed).backed.shaped
  case tainted =>
    rintro ⟨id, type, typed, tainted⟩
    exact (sound id type typed).backed.reported tainted

end

end MatrixScript
