import MatrixScript.Proofs.Grammar.Lines
import MatrixScript.Proofs.Typing.Judgement

/-! The order in which an expression is looked through.

The checker goes through the parts of an expression from left to right, and what it finds about the expression as a
whole it reports for the line on which the expression starts. Only such a report can come behind one for a later line,
and only when the expression goes over several lines. A name is not looked through again.
-/

set_option autoImplicit false

namespace MatrixScript

/-- Why something in a line may be found after something in a line below it: it is about an expression, an assignment or
a loop that starts there, and was found when the parts below had been looked through; or it is in the target of an
assignment, whose value had been looked through before. -/
inductive Tree.Belated (tree : Tree) (line below : Nat) : Prop where
  | part {id : ExprId} {expr : Expr} :
      tree.expr? id = some expr → expr.span.start.line = line → expr.span.HasLine below → Belated tree line below
  | assigned {id : StmtId} {stmt : Stmt} {target value : ExprId} {op : Assign} :
      tree.stmt? id = some stmt → stmt.kind = .assign target op value → stmt.span.start.line = line →
        (tree.exprSpan target).HasLine below ∨ (tree.exprSpan value).HasLine below → Belated tree line below
  | target {id : StmtId} {target value : ExprId} {op : Assign} :
      tree.stmtKind? id = some (.assign target op value) → (tree.exprSpan target).HasLine line →
        (tree.exprSpan value).HasLine below → Belated tree line below
  | counter {id : StmtId} {stmt : Stmt} {name : String} {range : ExprId} {body : StmtId} :
      tree.stmt? id = some stmt → stmt.kind = .forRange name range body → stmt.span.start.line = line →
        (tree.exprSpan range).HasLine below → Belated tree line below

def Tree.Orders (tree : Tree) (earlier later : Nat) : Prop :=
  earlier ≤ later ∨ tree.Belated later earlier

namespace Typing

open Check MatrixScript.Tree

/-- What was found between two states of the checker is in order and lies on certain lines. -/
def Told (tree : Tree) (on : Nat → Prop) (before after : Checker) : Prop :=
  ∃ added : List Finding, after.findings.toList = before.findings.toList ++ added ∧
    (∀ finding ∈ added, on finding.line) ∧
    added.Pairwise fun earlier later => tree.Orders earlier.line later.line

section

variable {tree : Tree} {on on' : Nat → Prop} {first second third : Checker}

namespace Told

theorem of_quiet (quiet : first.Quiet second) : Told tree on first second :=
  ⟨[], by rw [show second.findings = first.findings from quiet, List.append_nil], List.forall_mem_nil _, .nil⟩

theorem mono (told : Told tree on first second) (lines : ∀ line, on line → on' line) : Told tree on' first second := by
  obtain ⟨added, same, inside, ordered⟩ := told
  exact ⟨added, same, fun finding member => lines _ (inside finding member), ordered⟩

theorem trans (earlier : Told tree on first second) (later : Told tree on' second third)
    (orders : ∀ line below, on line → on' below → tree.Orders line below) :
    Told tree (fun line => on line ∨ on' line) first third := by
  obtain ⟨added, same, inside, ordered⟩ := earlier
  obtain ⟨added', same', inside', ordered'⟩ := later
  refine ⟨added ++ added', by rw [same', same, List.append_assoc], fun finding member => ?_, ?_⟩
  · exact (List.mem_append.mp member).imp (inside finding) (inside' finding)
  · exact List.pairwise_append.mpr ⟨ordered, ordered',
      fun one member two member' => orders _ _ (inside one member) (inside' two member')⟩

theorem report {line : Nat} (here : on line) (problem : Problem) (checker : Checker) :
    Told tree on checker (Check.report line problem checker).2 := by
  refine ⟨[⟨line, problem⟩], by simp, fun finding member => ?_, List.pairwise_singleton _ _⟩
  rw [List.mem_singleton.mp member]
  exact here

end Told

end

def Among (spans : List Span) (line : Nat) : Prop := ∃ span ∈ spans, span.HasLine line

def Around (line : Nat) (spans : List Span) (other : Nat) : Prop := other = line ∨ Among spans other

section

variable {outer : Span} {spans : List Span} {line : Nat}

theorem Among.hasLine (holds : outer.HoldsLines spans) (among : Among spans line) : outer.HasLine line := by
  obtain ⟨span, member, inside⟩ := among
  have within := holds.inside span member
  exact ⟨Nat.le_trans within.1 inside.1, Nat.le_trans inside.2 within.2⟩

theorem Around.hasLine (holds : outer.HoldsLines spans) (around : Around outer.start.line spans line) :
    outer.HasLine line := by
  rcases around with rfl | among
  · exact ⟨Nat.le_refl _, holds.forward⟩
  · exact Among.hasLine holds among

end

/-- Parts that are looked through one after the other, with reports for one line before, between and behind them. -/
structure Arranges (tree : Tree) (line : Nat) (spans : List Span) : Prop where
  ahead : ∀ span ∈ spans, ∀ other, span.HasLine other → tree.Orders line other
  behind : ∀ span ∈ spans, ∀ other, span.HasLine other → tree.Orders other line
  ordered : spans.Pairwise fun first second =>
    ∀ line other, first.HasLine line → second.HasLine other → tree.Orders line other

section

variable {tree : Tree} {line : Nat} {span : Span} {spans : List Span}

namespace Arranges

theorem none : Arranges tree line [] := ⟨List.forall_mem_nil _, List.forall_mem_nil _, .nil⟩

theorem single (arranges : Arranges tree line spans) (member : span ∈ spans) : Arranges tree line [span] where
  ahead := List.forall_mem_singleton.mpr (arranges.ahead span member)
  behind := List.forall_mem_singleton.mpr (arranges.behind span member)
  ordered := List.pairwise_singleton _ _

theorem tail (arranges : Arranges tree line (span :: spans)) : Arranges tree line spans where
  ahead other member := arranges.ahead other (List.mem_cons_of_mem _ member)
  behind other member := arranges.behind other (List.mem_cons_of_mem _ member)
  ordered := (List.pairwise_cons.mp arranges.ordered).2

end Arranges

theorem Told.join {first second third : Checker} (earlier : Told tree (Around line [span]) first second)
    (later : Told tree (Around line spans) second third) (arranges : Arranges tree line (span :: spans)) :
    Told tree (Around line (span :: spans)) first third := by
  have orders : ∀ one two, Around line [span] one → Around line spans two → tree.Orders one two := by
    intro one two here there
    rcases here with rfl | ⟨_, self, inside⟩
    · rcases there with rfl | ⟨other, member, inside'⟩
      · exact .inl (Nat.le_refl _)
      · exact arranges.ahead other (List.mem_cons_of_mem _ member) two inside'
    · cases List.mem_singleton.mp self
      rcases there with rfl | ⟨other, member, inside'⟩
      · exact arranges.behind _ List.mem_cons_self one inside
      · exact (List.pairwise_cons.mp arranges.ordered).1 other member one two inside inside'
  refine (earlier.trans later orders).mono fun other here => ?_
  rcases here with (same | ⟨_, self, inside⟩) | same | ⟨other, member, inside⟩
  · exact .inl same
  · exact .inr ⟨_, List.mem_singleton.mp self ▸ List.mem_cons_self, inside⟩
  · exact .inl same
  · exact .inr ⟨other, List.mem_cons_of_mem _ member, inside⟩

theorem Told.whole {first second third : Checker} (earlier : Told tree (Around line spans) first second)
    (later : Told tree (Around line []) second third) (arranges : Arranges tree line spans) :
    Told tree (Around line spans) first third := by
  have orders : ∀ one two, Around line spans one → Around line [] two → tree.Orders one two := by
    rintro one two here (rfl | ⟨_, member, _⟩)
    · rcases here with rfl | ⟨span, member, inside⟩
      · exact .inl (Nat.le_refl _)
      · exact arranges.behind span member one inside
    · cases member
  refine (earlier.trans later orders).mono fun other here => ?_
  rcases here with here | same | ⟨_, member, _⟩
  · exact here
  · exact .inl same
  · cases member

theorem arranges_children (nest : tree.LinesNest) {id : ExprId} {expr : Expr} (found : tree.expr? id = some expr) :
    Arranges tree expr.span.start.line (expr.kind.children.map tree.exprSpan) := by
  have holds := nest.exprs id expr found
  refine ⟨fun span member other inside => ?_, fun span member other inside => ?_, ?_⟩
  · exact .inl (Nat.le_trans (holds.inside span member).1 inside.1)
  · exact .inr (.part found rfl (Among.hasLine holds ⟨span, member, inside⟩))
  · refine holds.ordered.imp fun {first second} above line other inside inside' => .inl ?_
    exact Nat.le_trans inside.2 (Nat.le_trans above inside'.1)

end

/-- An action that types expressions, and what it finds on the way. -/
def Tells {α : Type} (tree : Tree) (on : Nat → Prop) (action : Check α) : Prop :=
  ∀ checker, Recorded checker → checker.Extends (action checker).2 ∧ Told tree on checker (action checker).2

section

variable {α β : Type} {tree : Tree} {on on' : Nat → Prop} {line : Nat} {spans : List Span}
  {action : Check α} {next : α → Check β}

namespace Tells

theorem pure (value : α) : Tells tree on (Pure.pure value : Check α) :=
  fun checker _ => ⟨.refl checker, .of_quiet rfl⟩

theorem mono (tells : Tells tree on action) (lines : ∀ line, on line → on' line) : Tells tree on' action :=
  fun checker recorded => ⟨(tells checker recorded).1, (tells checker recorded).2.mono lines⟩

theorem report (here : on line) (problem : Problem) : Tells tree on (Check.report line problem) :=
  fun checker _ => ⟨.report checker line problem, .report here problem checker⟩

theorem join {span : Span} (first : Tells tree (Around line [span]) action)
    (second : ∀ value, Tells tree (Around line spans) (next value)) (arranges : Arranges tree line (span :: spans)) :
    Tells tree (Around line (span :: spans)) (action >>= next) := by
  intro checker recorded
  obtain ⟨extended, told⟩ := first checker recorded
  obtain ⟨extended', told'⟩ := second (action checker).1 _ (recorded.extend extended)
  exact ⟨extended.trans extended', told.join told' arranges⟩

theorem whole (first : Tells tree (Around line spans) action)
    (second : ∀ value, Tells tree (Around line []) (next value)) (arranges : Arranges tree line spans) :
    Tells tree (Around line spans) (action >>= next) := by
  intro checker recorded
  obtain ⟨extended, told⟩ := first checker recorded
  obtain ⟨extended', told'⟩ := second (action checker).1 _ (recorded.extend extended)
  exact ⟨extended.trans extended', told.whole told' arranges⟩

theorem reported (problem : Problem) (value : α) :
    Tells tree (Around line []) (do Check.report line problem; return value) :=
  (Tells.report (.inl rfl) problem).whole (fun _ => .pure value) .none

theorem mapM {ι : Type} {span : ι → Span} {each : ι → Check β} {items : List ι}
    (tells : ∀ item, Arranges tree line [span item] → Tells tree (Around line [span item]) (each item))
    (arranges : Arranges tree line (items.map span)) : Tells tree (Around line (items.map span)) (items.mapM each) := by
  induction items with
  | nil => exact .pure _
  | cons item rest ih =>
    rw [List.mapM_cons]
    refine (tells item (arranges.single List.mem_cons_self)).join (fun value => ?_) arranges
    exact (ih arranges.tail).whole (fun values => .pure _) arranges.tail

theorem forM {items : List α} {each : α → Check PUnit} (tells : ∀ item, Tells tree (Around line []) (each item)) :
    Tells tree (Around line []) (items.forM each) := by
  induction items with
  | nil => exact .pure _
  | cons item rest ih => exact (tells item).whole (fun _ => ih) .none

theorem selectAxis (axis : Axis) (bound : Dim) (selection : Selection) :
    Tells tree (Around line []) (selectAxis line axis bound selection) :=
  (forM fun problem => .report (.inl rfl) problem).whole (fun _ => .pure _) .none

theorem inferCell (shape : Shape) (rows cols : Selection) :
    Tells tree (Around line []) (inferCell line shape rows cols) := by
  refine (selectAxis _ _ _).whole (fun rowSize => (selectAxis _ _ _).whole (fun colSize => ?_) .none) .none
  split
  · exact .pure _
  · exact .pure _

theorem inferFlat (shape : Shape) (index : Selection) : Tells tree (Around line []) (inferFlat line shape index) := by
  unfold Typing.inferFlat
  split
  · refine (selectAxis _ _ _).whole (fun size => ?_) .none
    cases size with
    | none => exact .pure _
    | some cols => exact .pure _
  · refine (selectAxis _ _ _).whole (fun size => ?_) .none
    cases size with
    | none => exact .pure _
    | some rows => exact .pure _
  · split
    · exact .pure _
    · exact .pure _

theorem literalType (items : List ExprId) (table : StaticTypes) (types : List StaticType) :
    Tells tree (Around line []) (literalType tree line items table types) := by
  unfold Typing.literalType
  split
  · exact .pure _
  · split
    · split
      · exact .reported _ _
      · split
        · exact .pure _
        · exact .reported _ _
    · split
      · exact .pure _
      · exact .reported _ _

end Tells

end

section

variable {tree : Tree} {child : ExprId → Check StaticType} {line : Nat}
  (each : ∀ id, Tells tree (tree.exprSpan id).HasLine (child id))
include each

theorem child_tells (id : ExprId) : Tells tree (Around line [tree.exprSpan id]) (child id) :=
  (each id).mono fun _ inside => .inr ⟨_, List.mem_singleton_self _, inside⟩

theorem checkIndex_tells {id : ExprId} (arranges : Arranges tree line [tree.exprSpan id]) :
    Tells tree (Around line [tree.exprSpan id]) (checkIndex tree child line id) := by
  refine (child_tells each id).whole (fun type => ?_) arranges
  split
  · split
    · exact .pure _
    · exact .pure _
  · exact .pure _
  · exact .pure _
  · exact .pure _
  · exact .reported _ _

theorem inferIndexed_tells {base : ExprId} {indices : List ExprId}
    (arranges : Arranges tree line ((base :: indices).map tree.exprSpan)) :
    Tells tree (Around line ((base :: indices).map tree.exprSpan)) (inferIndexed tree child line base indices) := by
  have all : Tells tree (Around line (indices.map tree.exprSpan)) (indices.mapM (checkIndex tree child line)) :=
    .mapM (fun index => checkIndex_tells each) arranges.tail
  refine (child_tells each base).join (fun type => all.whole (fun selections => ?_) arranges.tail) arranges
  split
  · split
    · exact .pure _
    · exact .reported _ _
  · exact .pure _
  · split
    · exact .inferCell _ _ _
    · exact .inferFlat _ _
    · exact .reported _ _
  · split
    · exact .inferCell _ _ _
    · exact .inferFlat _ _
    · exact .reported _ _
  · exact .reported _ _

theorem inferArith_tells (operator : Operator) (join : Shape → Shape → Bool × Shape) {left right : ExprId}
    (arranges : Arranges tree line [tree.exprSpan left, tree.exprSpan right]) :
    Tells tree (Around line [tree.exprSpan left, tree.exprSpan right])
      (inferArith child line operator join left right) := by
  refine (child_tells each left).join (fun a => (child_tells each right).whole (fun b => ?_) arranges.tail) arranges
  split
  · dsimp only
    split
    · exact .reported _ _
    · exact .pure _
  · exact .pure _
  · exact .reported _ _

theorem inferCompare_tells (op : Compare) {left right : ExprId}
    (arranges : Arranges tree line [tree.exprSpan left, tree.exprSpan right]) :
    Tells tree (Around line [tree.exprSpan left, tree.exprSpan right]) (inferCompare child line op left right) := by
  refine (child_tells each left).join (fun a => (child_tells each right).whole (fun b => ?_) arranges.tail) arranges
  split
  · exact .reported _ _
  · exact .pure _

theorem inferArray_tells {items : List ExprId} (arranges : Arranges tree line (items.map tree.exprSpan)) :
    Tells tree (Around line (items.map tree.exprSpan)) (inferArray tree child line items) := by
  intro checker
  have all : Tells tree (Around line (items.map tree.exprSpan)) (items.mapM child) :=
    .mapM (fun item _ => child_tells each item) arranges
  rw [inferArray_apply]
  exact all.whole (fun types => .literalType items _ types) arranges checker

theorem inferDimension_tells (function : Builtin) {id : ExprId} (arranges : Arranges tree line [tree.exprSpan id]) :
    Tells tree (Around line [tree.exprSpan id]) (inferDimension tree child line function id) := by
  refine (child_tells each id).whole (fun type => ?_) arranges
  split
  · exact .pure _
  · exact .pure _
  · exact .pure _
  · exact .reported _ _

theorem inferBuiltin_tells (function : Builtin) {arguments : List ExprId}
    (arranges : Arranges tree line (arguments.map tree.exprSpan)) :
    Tells tree (Around line (arguments.map tree.exprSpan)) (inferBuiltin tree child line function arguments) := by
  unfold inferBuiltin
  split
  · exact (inferDimension_tells each function arranges).whole (fun _ => .pure _) arranges
  · next rows cols =>
    have second := inferDimension_tells each function arranges.tail
    refine (inferDimension_tells each function (arranges.single List.mem_cons_self)).join (fun _ => ?_) arranges
    exact second.whole (fun _ => .pure _) arranges.tail
  · have all : Tells tree (Around line (arguments.map tree.exprSpan)) (arguments.mapM child) :=
      .mapM (fun item _ => child_tells each item) arranges
    exact all.whole (fun _ => .reported _ _) arranges

theorem checkBound_tells (bound : Bound) {id : ExprId} (arranges : Arranges tree line [tree.exprSpan id]) :
    Tells tree (Around line [tree.exprSpan id]) (checkBound child line bound id) := by
  refine (child_tells each id).whole (fun type => ?_) arranges
  dsimp only
  split
  · exact .pure _
  · exact .report (.inl rfl) _

/-- A node is looked through part by part. A name has no parts: what it stands for has its type already. -/
theorem infer_tells (asked : ∀ id type checker, checker.types.get? id = some type → child id checker = (type, checker))
    {expr : Expr} (arranges : Arranges tree expr.span.start.line (expr.kind.children.map tree.exprSpan)) :
    Tells tree (Around expr.span.start.line (expr.kind.children.map tree.exprSpan)) (infer tree child expr) := by
  obtain ⟨kind, span⟩ := expr
  cases kind with
  | int _ | float _ | text _ => exact .pure _
  | name name =>
    intro checker recorded
    cases found : checker.declared.lookup? name with
    | none =>
      have undeclared : infer tree child ⟨.name name, span⟩ checker =
          (.unknown, (Check.report span.start.line (.undeclared name) checker).2) := by
        simp only [infer, bind_apply, declared?_apply, found]
        rfl
      rw [undeclared]
      exact Tells.report (.inl rfl) _ checker recorded
    | some producer =>
      -- the lines of the producer may be anywhere, but it has its type, and nothing more is found there
      obtain ⟨type, typed⟩ := Option.isSome_iff_exists.mp (recorded name producer found)
      have declared : infer tree child ⟨.name name, span⟩ checker = (type, checker) := by
        simp only [infer, bind_apply, declared?_apply, found]
        exact asked producer type checker typed
      rw [declared]
      exact ⟨.refl checker, .of_quiet rfl⟩
  | array items =>
    rw [show (ExprKind.array items).children = items from List.append_nil items] at arranges ⊢
    exact inferArray_tells each arranges
  | indexed base indices => exact inferIndexed_tells each arranges
  | linear left op right => exact inferArith_tells each (.linear op) productShape arranges
  | elementwise left op right => exact inferArith_tells each (.elementwise op) cellwiseShape arranges
  | compare left op right => exact inferCompare_tells each op arranges
  | negate operand =>
    refine (child_tells each operand).whole (fun type => ?_) arranges
    cases type.tag with
    | int | float | unknown | array | tainted => exact .pure _
    | text | bool | range => exact .reported _ _
  | transpose operand =>
    refine (child_tells each operand).whole (fun type => ?_) arranges
    cases type.tag with
    | array | tainted | unknown => exact .pure _
    | int | float | text | bool | range => exact .reported _ _
  | builtin function arguments =>
    rw [show (ExprKind.builtin function arguments).children = arguments from List.append_nil arguments] at arranges ⊢
    exact inferBuiltin_tells each function arranges
  | range start stop =>
    refine (checkBound_tells each .start (arranges.single List.mem_cons_self)).join (fun _ => ?_) arranges
    exact (checkBound_tells each .stop arranges.tail).whole (fun _ => .pure _) arranges.tail

end

theorem typeWithin_tells {tree : Tree} (nest : tree.LinesNest) (depth : Nat) (id : ExprId) :
    Tells tree (tree.exprSpan id).HasLine (typeWithin tree depth id) := by
  -- the lines of the children are those of the node, so what is known of them by induction is known of it
  induction depth generalizing id with
  | zero => exact fun checker _ => ⟨.refl checker, .of_quiet rfl⟩
  | succ depth ih =>
    intro checker recorded
    cases typed : checker.types.get? id with
    | some type =>
      rw [typeWithin_of_recorded typed]
      exact ⟨.refl checker, .of_quiet rfl⟩
    | none =>
      cases found : tree.expr? id with
      | none =>
        rw [typeWithin, bind_apply, recorded?_apply, typed]
        simp only [found]
        exact ⟨.refl checker, .of_quiet rfl⟩
      | some expr =>
        rw [typeWithin_of_fresh typed found, exprSpan_eq found]
        have parts := infer_tells ih (fun id type checker known => typeWithin_of_recorded known depth)
          (arranges_children nest found)
        obtain ⟨extended, told⟩ := parts checker recorded
        exact ⟨extended.trans (.record _ id _), told.mono fun _ => Around.hasLine (nest.exprs id expr found)⟩

end Typing

end MatrixScript
