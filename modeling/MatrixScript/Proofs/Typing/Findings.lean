import MatrixScript.Proofs.Typing.Order
import MatrixScript.Proofs.Typing.Source

/-! The order of the findings.

The checker comes to the statements of a program from the first to the last, so what it finds in different statements is
in the order of the source. Within an expression, an assignment or the head of a loop that goes over several lines it
is not always: a report about the whole comes behind those about the parts, and the value of an assignment is looked
through before the target. Where nothing goes over several lines, the findings come in the order of the lines.
-/

set_option autoImplicit false

namespace MatrixScript

namespace Typing

open Check Grammar MatrixScript.Tree

section

variable {tree : Tree} {on : Nat → Prop} {first second third : Checker} {span : Span} {spans : List Span}
  {label : String} {loops : Nat}

theorem Told.entered (told : Told tree on (enter label loops first) second) : Told tree on first second := told

theorem Told.left (told : Told tree on first second) : Told tree on first (leave loops second) := told

theorem Told.cons (earlier : Told tree span.HasLine first second) (later : Told tree (Among spans) second third)
    (above : ∀ other ∈ spans, span.Above other) : Told tree (Among (span :: spans)) first third := by
  have orders : ∀ line other, span.HasLine line → Among spans other → tree.Orders line other := by
    rintro line other here ⟨below, member, there⟩
    exact .inl (Nat.le_trans here.2 (Nat.le_trans (above below member) there.1))
  refine (earlier.trans later orders).mono fun line here => ?_
  rcases here with here | ⟨below, member, there⟩
  · exact ⟨span, List.mem_cons_self, here⟩
  · exact ⟨below, List.mem_cons_of_mem _ member, there⟩

theorem Told.headed {outer body : Span} (earlier : Told tree (Around outer.start.line [span]) first second)
    (later : Told tree body.HasLine second third) (holds : outer.HoldsLines [span, body]) :
    Told tree outer.HasLine first third := by
  have above : span.Above body := List.pairwise_pair.mp holds.ordered
  have member : body ∈ [span, body] := List.mem_cons_of_mem _ (List.mem_singleton_self _)
  have orders : ∀ line other, Around outer.start.line [span] line → body.HasLine other → tree.Orders line other := by
    rintro line other (rfl | ⟨_, self, inside⟩) there
    · exact .inl (Nat.le_trans (holds.inside body member).1 there.1)
    · cases List.mem_singleton.mp self
      exact .inl (Nat.le_trans inside.2 (Nat.le_trans above there.1))
  refine (earlier.trans later orders).mono fun line here => Around.hasLine holds ?_
  rcases here with (same | ⟨_, self, inside⟩) | inside
  · exact .inl same
  · exact .inr ⟨span, List.mem_cons_self, List.mem_singleton.mp self ▸ inside⟩
  · exact .inr ⟨body, member, inside⟩

theorem Told.last (told : Told tree span.HasLine first second) : Told tree (Among [span]) first second :=
  told.mono fun _ inside => ⟨span, List.mem_singleton_self _, inside⟩

end

section

variable {tree : Tree} {line : Nat} {checker : Checker}

theorem typeOf_part (nest : tree.LinesNest) (id : ExprId) :
    Tells tree (Around line [tree.exprSpan id]) (typeOf tree id) :=
  child_tells (typeWithin_tells nest _) id

theorem arranges_condition (condition : ExprId) :
    Arranges tree (tree.exprSpan condition).start.line [tree.exprSpan condition] where
  ahead := List.forall_mem_singleton.mpr fun _ inside => .inl inside.1
  behind := List.forall_mem_singleton.mpr fun other inside => by
    cases found : tree.expr? condition with
    | none =>
      rw [exprSpan, found] at inside ⊢
      exact .inl inside.2
    | some expr =>
      rw [exprSpan_eq found] at inside ⊢
      exact .inr (.part found rfl inside)
  ordered := List.pairwise_singleton _ _

theorem checkCondition_told (nest : tree.LinesNest) (recorded : Recorded checker) (condition : ExprId) :
    Told tree (tree.exprSpan condition).HasLine checker (checkCondition tree condition checker).2 := by
  have tells : Tells tree (Around (tree.exprSpan condition).start.line [tree.exprSpan condition])
      (checkCondition tree condition) := by
    refine (typeOf_part nest condition).whole (fun type => ?_) (arranges_condition condition)
    dsimp only
    split
    · exact .pure _
    · exact .report (.inl rfl) _
  refine (tells checker recorded).2.mono fun line around => ?_
  rcases around with rfl | ⟨_, self, inside⟩
  · exact ⟨Nat.le_refl _, nest.exprSpan_forward condition⟩
  · cases List.mem_singleton.mp self
    exact inside

theorem arranges_loopRange (nest : tree.LinesNest) {id : StmtId} {name : String} {range : ExprId} {body : StmtId}
    {span : Span} (found : tree.stmt? id = some ⟨.forRange name range body, span⟩) :
    Arranges tree span.start.line [tree.exprSpan range] where
  ahead := List.forall_mem_singleton.mpr fun _ inside =>
    .inl (Nat.le_trans ((nest.stmts id _ found).inside _ List.mem_cons_self).1 inside.1)
  behind := List.forall_mem_singleton.mpr fun _ inside => .inr (.counter found rfl rfl inside)
  ordered := List.pairwise_singleton _ _

theorem declareCounter_told {range start stop : ExprId} (node : tree.kind? range = some (.range start stop))
    (name : String) : Told tree (Around line []) checker (declareCounter tree line name range checker).2 := by
  rw [declareCounter_apply node]
  split
  · exact .report (.inl rfl) _ _
  · exact .of_quiet rfl

theorem loopRange_told (nest : tree.LinesNest) (recorded : Recorded checker) {id : StmtId} {name : String}
    {range start stop : ExprId} {body : StmtId} {span : Span}
    (found : tree.stmt? id = some ⟨.forRange name range body, span⟩)
    (node : tree.kind? range = some (.range start stop)) :
    Told tree (Around span.start.line [tree.exprSpan range]) checker
      (declareCounter tree span.start.line name range (enter "loop" 1 (typeOf tree range checker).2)).2 :=
  (typeOf_part nest range checker recorded).2.whole (declareCounter_told node name).entered
    (arranges_loopRange nest found)

theorem stray_told (problem : Problem) :
    Told tree (Around line []) checker
      ((do if (← get).loopDepth = 0 then report line problem : Check Unit) checker).2 := by
  rw [stray_apply]
  split
  · exact .report (.inl rfl) _ _
  · exact .of_quiet rfl

theorem values_told (nest : tree.LinesNest) (recorded : Recorded checker) {ids : List ExprId}
    (ordered : (ids.map tree.exprSpan).Pairwise Span.Above) :
    Told tree (Among (ids.map tree.exprSpan)) checker
      (ids.forM (fun id => discard (typeOf tree id)) checker).2 := by
  induction ids generalizing checker with
  | nil => exact .of_quiet rfl
  | cons id rest ih =>
    obtain ⟨extended, told⟩ := typeWithin_tells nest (tree.exprs.size + 1) id checker recorded
    obtain ⟨above, ordered⟩ := List.pairwise_cons.mp ordered
    exact told.cons (ih (recorded.extend extended) ordered) above

end

section

variable {tree : Tree} {line lo mid hi : Nat} {target value : ExprId} {a b : Term} {op : Assign} {checker : Checker}

/-- The parts of an assignment in the order in which they are looked through, which is not that of the source. -/
theorem arranges_assignment (nest : tree.LinesNest) {id : StmtId} {span : Span}
    (found : tree.stmt? id = some ⟨.assign target op value, span⟩) :
    Arranges tree span.start.line [tree.exprSpan value, tree.exprSpan target] := by
  have holds := nest.stmts id _ found
  have node := stmtKind?_of_stmt? found
  have valueInside := holds.inside (tree.exprSpan value) (by simp [StmtKind.exprs])
  have targetInside := holds.inside (tree.exprSpan target) (by simp [StmtKind.exprs])
  refine ⟨?_, ?_, ?_⟩
  · refine List.forall_mem_cons.mpr ⟨fun other inside => ?_, List.forall_mem_singleton.mpr fun other inside => ?_⟩
    · exact .inl (Nat.le_trans valueInside.1 inside.1)
    · exact .inl (Nat.le_trans targetInside.1 inside.1)
  · refine List.forall_mem_cons.mpr ⟨fun other inside => ?_, List.forall_mem_singleton.mpr fun other inside => ?_⟩
    · exact .inr (.assigned found rfl rfl (.inr inside))
    · exact .inr (.assigned found rfl rfl (.inl inside))
  · exact List.pairwise_pair.mpr fun line other inside inside' => .inr (.target node inside' inside)

theorem assignName_told (recorded : Recorded checker) (name : String) (tag : Tag) :
    Told tree (Around line []) checker (assignName tree line name op value tag checker).2 :=
  assignName_cases (motive := fun result => Told tree (Around line []) checker result.2) recorded
    (fun problem => .report (.inl rfl) problem _) (.of_quiet rfl) (.of_quiet rfl)

theorem indexedFinding_tells (valueType target base : StaticType) :
    Tells tree (Around line []) (indexedFinding line op valueType target base) := by
  unfold indexedFinding
  split
  · exact .report (.inl rfl) _
  · split
    · split
      · split
        · exact .report (.inl rfl) _
        · exact .pure _
      · exact .pure _
    · split
      · split
        · exact .report (.inl rfl) _
        · exact .pure _
      · exact .pure _
    · exact .report (.inl rfl) _
    · exact .report (.inl rfl) _
    · exact .report (.inl rfl) _

theorem assigned_told (nest : tree.LinesNest) (first : ExprLayout tree lo mid target a)
    (second : ExprLayout tree mid hi value b) (arranges : Arranges tree line [tree.exprSpan target])
    (ready : Ready lo checker) :
    Told tree (Around line [tree.exprSpan target]) (typeOf tree value checker).2
      (checkAssignment tree line target op value checker).2 := by
  have alone {first second : Checker} (told : Told tree (Around line []) first second) :
      Told tree (Around line [tree.exprSpan target]) first second :=
    told.mono fun _ here => here.imp_right fun ⟨_, member, _⟩ => nomatch member
  obtain ⟨ready', _⟩ := valued_ready first second ready
  refine checkAssignment_cases
    (motive := fun result => Told tree (Around line [tree.exprSpan target]) (typeOf tree value checker).2 result.2)
    first second ready ?name ?text ?indexed ?other
  -- a name that is written is not looked through
  case name => exact fun name _ => alone (assignName_told ready'.recorded name _)
  case text => exact fun _ _ _ _ _ => alone (.report (.inl rfl) _ _)
  case indexed =>
    intro _ _ _ baseType _ _ _
    have finding (type : StaticType) : Tells tree (Around line [])
        (indexedFinding line op (typeOf tree value checker).1 type baseType) := indexedFinding_tells _ _ _
    exact ((typeOf_part nest target).whole finding arranges _ ready'.recorded).2
  case other =>
    exact fun _ _ _ => ((typeOf_part nest target).whole (fun _ => .report (.inl rfl) _) arranges _ ready'.recorded).2

theorem checkAssignment_told (nest : tree.LinesNest) (first : ExprLayout tree lo mid target a)
    (second : ExprLayout tree mid hi value b)
    (arranges : Arranges tree line [tree.exprSpan value, tree.exprSpan target]) (ready : Ready lo checker) :
    Told tree (Around line [tree.exprSpan value, tree.exprSpan target]) checker
      (checkAssignment tree line target op value checker).2 :=
  (typeOf_part nest value checker ready.recorded).2.join (assigned_told nest first second arranges.tail ready) arranges

end

section

variable {tree : Tree}

/-- What is found in a statement lies on its lines, and statements that lie one below the other are looked through in
this order. -/
theorem told_inherited (nest : tree.LinesNest) : Inherited tree
    (fun _ _ id before after => Told tree (tree.stmtSpan id).HasLine before after)
    fun _ _ ids before after => (ids.map tree.stmtSpan).Pairwise Span.Above →
      Told tree (Among (ids.map tree.stmtSpan)) before after where
  nil _ := .of_quiet rfl
  cons first others _ _ ordered := by
    obtain ⟨above, ordered⟩ := List.pairwise_cons.mp ordered
    exact first.cons (others ordered) above
  block {_ _ ids span _ _} found items := by
    rw [stmtSpan_eq found]
    have holds : span.HoldsLines (ids.map tree.stmtSpan) := nest.stmts _ _ found
    exact (items holds.ordered).mono fun _ => Among.hasLine holds
  assign {_ _ _ _ target value _ _ _ span _} first second found ready := by
    rw [stmtSpan_eq found]
    have holds : span.HoldsLines [tree.exprSpan target, tree.exprSpan value] := nest.stmts _ _ found
    refine (checkAssignment_told nest first second (arranges_assignment nest found) ready).mono fun line around =>
      Around.hasLine holds (around.imp_right ?_)
    -- the statement has its target in front
    rintro ⟨part, member, inside⟩
    exact ⟨part, (List.Perm.swap _ _ _).mem_iff.mp member, inside⟩
  forRange {_ _ hi _ _ _ _ _ body _ _ span _ _ _} _ _ range found ready entered repeated _ := by
    subst entered
    rw [stmtSpan_eq found]
    have holds : span.HoldsLines [tree.exprSpan ⟨hi⟩, tree.stmtSpan body] := nest.stmts _ _ found
    exact ((loopRange_told nest ready.recorded found range).headed repeated holds).left
  guarded {_ _ _ _ condition body _ _ span _ _ _ _} _ known found ready inside _ := by
    rw [stmtSpan_eq found]
    have holds : span.HoldsLines [tree.exprSpan condition, tree.stmtSpan body] := by
      rcases known with rfl | rfl
      · exact nest.stmts _ _ found
      · exact nest.stmts _ _ found
    obtain ⟨above, _⟩ := List.pairwise_cons.mp holds.ordered
    have head := checkCondition_told nest ready.recorded condition
    exact ((head.cons inside.entered.last above).mono fun _ => Among.hasLine holds).left
  branchElse {_ _ _ _ _ condition thenBody elseBody _ span _ _ _} _ found ready taken skipped _ _ := by
    rw [stmtSpan_eq found]
    have holds : span.HoldsLines [tree.exprSpan condition, tree.stmtSpan thenBody, tree.stmtSpan elseBody] :=
      nest.stmts _ _ found
    obtain ⟨above, ordered⟩ := List.pairwise_cons.mp holds.ordered
    obtain ⟨above', _⟩ := List.pairwise_cons.mp ordered
    have head := checkCondition_told nest ready.recorded condition
    have bodies := taken.entered.left.cons skipped.entered.last above'
    exact ((head.cons bodies above).mono fun _ => Among.hasLine holds).left
  signal {_ _ span _ _} known found := by
    rw [stmtSpan_eq found]
    have holds : span.HoldsLines [] := by
      rcases known with rfl | rfl
      · exact nest.stmts _ _ found
      · exact nest.stmts _ _ found
    exact (stray_told _).mono fun _ => Around.hasLine holds
  values {_ _ _ ids _ _ span _} _ known found ready := by
    rw [stmtSpan_eq found]
    have holds : span.HoldsLines (ids.map tree.exprSpan ++ []) := by
      rcases known with rfl | rfl
      · exact nest.stmts _ _ found
      · exact nest.stmts _ _ found
    rw [List.append_nil] at holds
    exact (values_told nest ready.recorded holds.ordered).mono fun _ => Among.hasLine holds

end

end Typing

open Typing Grammar

section

variable {source : String} {tree : Tree}

theorem findings_ordered (read : Tree.ofSource source = .ok tree) :
    (check tree).findings.Pairwise fun earlier later => tree.Orders earlier.line later.line := by
  obtain ⟨tokens, scanned, parsed⟩ := Tree.ofSource_eq_ok read
  obtain ⟨body, represents, _⟩ := parse_represents parsed
  have nest := lines_nest scanned parsed
  obtain ⟨added, same, _, ordered⟩ := (told_inherited nest).program represents nest.body
  rw [show (check tree).findings = added from same]
  exact ordered

/-- The findings for which a source is refused come in the order of its lines, except that one for an earlier line
stands behind one for a later line where it is about an expression, an assignment or a loop that goes over both lines
and whose parts had been looked through, or is in the target of an assignment whose value had been. -/
theorem findings_in_order_unless_belated {findings : List Finding}
    (refused : Program.ofSource source = .error (.static findings)) :
    ∃ tree, Tree.ofSource source = .ok tree ∧ (check tree).findings = findings ∧
      findings.Pairwise fun earlier later => earlier.line ≤ later.line ∨ tree.Belated later.line earlier.line := by
  obtain ⟨tree, read, rfl, _⟩ := ofSource_eq_static.mp refused
  exact ⟨tree, read, rfl, findings_ordered read⟩

/-- What is found in the target comes behind what is found in the value, although the value goes on in the next line. -/
theorem wrappedValue_in_order_unless_belated :
    ∃ (tree : Tree) (findings : List Finding),
      Program.ofSource "while (a)\n  b[c] = d -\n    e;\nbreak;" = .error (.static findings) ∧
      Tree.ofSource "while (a)\n  b[c] = d -\n    e;\nbreak;" = .ok tree ∧
      findings.map Finding.line = [1, 2, 3, 2, 2, 4] ∧
      findings.Pairwise fun earlier later => earlier.line ≤ later.line ∨ tree.Belated later.line earlier.line := by
  have found : (Tree.ofSource "while (a)\n  b[c] = d -\n    e;\nbreak;").toOption.any fun tree =>
      decide ((check tree).findings.map Finding.line = [1, 2, 3, 2, 2, 4]) := by
    decide +kernel
  obtain ⟨tree, read, passes⟩ := exists_ok found
  have lines := of_decide_eq_true passes
  have some : (check tree).findings ≠ [] := fun none => by rw [none] at lines; cases lines
  have refused := ofSource_eq_static.mpr ⟨tree, read, rfl, some⟩
  obtain ⟨tree', read', _, ordered⟩ := findings_in_order_unless_belated refused
  exact ⟨tree', _, refused, read', lines, ordered⟩

/-- The target stands in the first line and the value in the second. -/
theorem valueBelow_found_first :
    ∃ findings, Program.ofSource "A[b] =\nc;" = .error (.static findings) ∧
      findings = [⟨2, .undeclared "c"⟩, ⟨1, .undeclared "A"⟩, ⟨1, .undeclared "b"⟩] ∧
      ¬(findings.map Finding.line).Pairwise (· ≤ ·) := by
  have found : (Tree.ofSource "A[b] =\nc;").toOption.any fun tree => decide ((check tree).findings =
      [⟨2, .undeclared "c"⟩, ⟨1, .undeclared "A"⟩, ⟨1, .undeclared "b"⟩]) := by
    decide +kernel
  obtain ⟨tree, read, passes⟩ := exists_ok found
  have same := of_decide_eq_true passes
  exact ⟨_, ofSource_eq_static.mpr ⟨tree, read, same, List.cons_ne_nil _ _⟩, rfl, by decide⟩

/-- Every expression and every assignment stays on one line, and the range of a loop on the line of its name. -/
structure Tree.Unwrapped (tree : Tree) : Prop where
  exprs : ∀ id expr, tree.expr? id = some expr → expr.span.stop.line ≤ expr.span.start.line
  assigned : ∀ id stmt target op value, tree.stmt? id = some stmt → stmt.kind = .assign target op value →
    stmt.span.stop.line ≤ stmt.span.start.line
  ranges : ∀ id stmt name range body, tree.stmt? id = some stmt → stmt.kind = .forRange name range body →
    (tree.exprSpan range).stop.line ≤ stmt.span.start.line

theorem Tree.Unwrapped.le_of_belated (unwrapped : tree.Unwrapped) (nest : tree.LinesNest) {line below : Nat}
    (belated : tree.Belated line below) : below ≤ line := by
  -- the sides of an assignment lie on its lines
  have sides {id : StmtId} {span : Span} {target value : ExprId} {op : Assign}
      (found : tree.stmt? id = some ⟨.assign target op value, span⟩) :
      span.start.line ≤ (tree.exprSpan target).start.line ∧ (tree.exprSpan target).stop.line ≤ span.start.line ∧
        (tree.exprSpan value).stop.line ≤ span.start.line := by
    have holds : span.HoldsLines [tree.exprSpan target, tree.exprSpan value] := nest.stmts id _ found
    obtain ⟨first, rest⟩ := List.forall_mem_cons.mp holds.inside
    have second := List.forall_mem_singleton.mp rest
    have flat := unwrapped.assigned id _ target op value found rfl
    exact ⟨first.1, Nat.le_trans first.2 flat, Nat.le_trans second.2 flat⟩
  cases belated with
  | part found start inside => exact start ▸ Nat.le_trans inside.2 (unwrapped.exprs _ _ found)
  | @assigned _ stmt _ _ _ found known start inside =>
    obtain ⟨kind, span⟩ := stmt
    cases known
    cases start
    obtain ⟨_, target, value⟩ := sides found
    exact inside.elim (fun inside => Nat.le_trans inside.2 target) fun inside => Nat.le_trans inside.2 value
  | target node inside inside' =>
    obtain ⟨span, found⟩ := stmt?_of_kind node
    obtain ⟨start, _, value⟩ := sides found
    exact Nat.le_trans inside'.2 (Nat.le_trans value (Nat.le_trans start inside.1))
  | counter found known start inside =>
    exact start ▸ Nat.le_trans inside.2 (unwrapped.ranges _ _ _ _ _ found known)

theorem findings_sorted_of_unwrapped (read : Tree.ofSource source = .ok tree) (unwrapped : tree.Unwrapped) :
    ((check tree).findings.map Finding.line).Pairwise (· ≤ ·) := by
  obtain ⟨tokens, scanned, parsed⟩ := Tree.ofSource_eq_ok read
  have nest := lines_nest scanned parsed
  refine List.pairwise_map.mpr ((findings_ordered read).imp fun orders => ?_)
  exact orders.elim id (unwrapped.le_of_belated nest)

end

end MatrixScript
