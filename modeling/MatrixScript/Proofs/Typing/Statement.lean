import MatrixScript.Program
import MatrixScript.Proofs.Typing.Visits

/-! Checking a whole program, seen from each of its statements.

The checker comes to a statement before any of its expressions has a type and leaves it when all of them have been
looked at. In an accepted program nothing is found on the way, and the types stay as they are until the end.
-/

set_option autoImplicit false

namespace MatrixScript.Typing

open Check Grammar

section

variable {tree : Tree}

theorem stmt?_of_kind {id : StmtId} {kind : StmtKind} (found : tree.stmtKind? id = some kind) :
    ∃ span, tree.stmt? id = some ⟨kind, span⟩ := by
  simp only [Tree.stmtKind?, Option.map_eq_some_iff] at found
  obtain ⟨stmt, found, rfl⟩ := found
  exact ⟨stmt.span, found⟩

theorem declareCounter_apply {range start stop : ExprId} (node : tree.kind? range = some (.range start stop))
    (line : Nat) (name : String) (checker : Checker) :
    declareCounter tree line name range checker =
      match checker.declared.lookup? name with
      | some _ => report line (.counterDeclared name) checker
      | none => declare name start checker := by
  rw [declareCounter, bind_apply, declared?_apply]
  cases checker.declared.lookup? name with
  | some _ => rfl
  | none => simp only [node]

theorem Ready.declareCounter {place : Nat} {checker : Checker} (ready : Ready place checker)
    {range start stop : ExprId} (node : tree.kind? range = some (.range start stop))
    (typed : (checker.types.get? start).isSome) (line : Nat) (name : String) :
    Advances checker (declareCounter tree line name range checker).2 ∧
      Ready place (declareCounter tree line name range checker).2 := by
  rw [declareCounter_apply node]
  split
  · exact ready.report _ _
  · exact ready.declare typed

theorem typeOf_range_ready {lo mid hi : Nat} {start stop : ExprId} {a b : Term}
    (first : ExprLayout tree lo mid start a) (second : ExprLayout tree mid hi stop b)
    (node : tree.kind? ⟨hi⟩ = some (.range start stop)) {checker : Checker} (ready : Ready lo checker) :
    Advances checker (typeOf tree ⟨hi⟩ checker).2 ∧ Ready (hi + 1) (typeOf tree ⟨hi⟩ checker).2 ∧
      ((typeOf tree ⟨hi⟩ checker).2.types.get? start).isSome := by
  have typing := (typeOf_range_mirrors first second node).toFills
  have below := first.lt
  have above := second.lt
  have root := first.root
  obtain ⟨advances, ready'⟩ := (typing.carries (Nat.le_refl _)).lower (by omega) checker ready
  refine ⟨advances, ready', typing.filled checker ready.recorded ?_ start (by omega) (by omega)⟩
  exact fun id above _ => ready.fresh id above

theorem values_fills {lo hi : Nat} {ids : List ExprId} {terms : List Term}
    (stretch : Stretch (ExprLayout tree) lo hi ids terms) :
    Fills tree lo hi (ids.forM fun id => discard (typeOf tree id)) := by
  induction stretch with
  | nil => exact (Mirrors.pure PUnit.unit _ fun _ => rfl).toFills
  | cons item rest ih =>
    have le := Nat.le_of_lt item.lt
    have typing := (typeOf_mirrors item).toFills
    have first := typing.bind (fun _ => (Mirrors.pure PUnit.unit _ fun _ => rfl).toFills) le (Nat.le_refl _)
    exact first.bind (fun _ => ih) le (ExprLayout.stretch_le rest)

theorem values_carries {lo hi : Nat} {ids : List ExprId} {terms : List Term}
    (stretch : Stretch (ExprLayout tree) lo hi ids terms) :
    Carries lo hi (ids.forM fun id => discard (typeOf tree id)) :=
  ((values_fills stretch).carries (Nat.le_refl _)).lower (ExprLayout.stretch_le stretch)

theorem stray_apply (line : Nat) (problem : Problem) (checker : Checker) :
    (do if (← get).loopDepth = 0 then report line problem : Check Unit) checker =
      if checker.loopDepth = 0 then report line problem checker else ((), checker) := by
  rw [bind_apply, get_apply]
  split
  · rfl
  · rfl

theorem stray_carries (place line : Nat) (problem : Problem) :
    Carries place place (do if (← get).loopDepth = 0 then report line problem) := by
  intro checker ready
  rw [stray_apply]
  split
  · exact ready.report _ _
  · exact ⟨.refl _, ready⟩

theorem stray_declared (line : Nat) (problem : Problem) (checker : Checker) :
    ((do if (← get).loopDepth = 0 then report line problem : Check Unit) checker).2.declared = checker.declared := by
  rw [stray_apply]
  split
  · rfl
  · rfl

theorem stray_types (line : Nat) (problem : Problem) (checker : Checker) :
    ((do if (← get).loopDepth = 0 then report line problem : Check Unit) checker).2.types = checker.types := by
  rw [stray_apply]
  split
  · rfl
  · rfl

theorem Carries.scoped {lo hi : Nat} {body : Check Unit} (carries : Carries lo hi body) (label : String)
    (loops : Nat) {checker : Checker} (ready : Ready lo checker) :
    Advances checker (leave loops (body (enter label loops checker)).2) ∧
      Ready hi (leave loops (body (enter label loops checker)).2) := by
  obtain ⟨inside, ready⟩ := carries _ (ready.enter label loops)
  exact inside.leave ready

end

/-- Relations between the checker in front of a statement and behind it, and likewise of several statements. A statement
is related when its bodies are, where the checker is in front of a body after it has entered its scope, and behind it
before it leaves that. -/
structure Inherited (tree : Tree) (Single : Mark → Mark → StmtId → Checker → Checker → Prop)
    (Several : Mark → Mark → List StmtId → Checker → Checker → Prop) : Prop where
  nil {place : Mark} {checker : Checker} : Several place place [] checker checker
  cons {lo mid hi : Mark} {id : StmtId} {rest : List StmtId} {first second third : Checker} :
    Single lo mid id first second → Several mid hi rest second third → Advances first second → Advances second third →
      Several lo hi (id :: rest) first third
  block {lo last : Mark} {ids : List StmtId} {span : Span} {before after : Checker} :
    tree.stmt? ⟨last.stmts⟩ = some ⟨.block ids, span⟩ → Several lo last ids before after →
      Single lo ⟨last.exprs, last.stmts + 1⟩ ⟨last.stmts⟩ before after
  assign {lo mid hi place : Nat} {target value : ExprId} {op : Assign} {a b : Term} {span : Span} {checker : Checker} :
    ExprLayout tree lo mid target a → ExprLayout tree mid hi value b →
      tree.stmt? ⟨place⟩ = some ⟨.assign target op value, span⟩ → Ready lo checker →
        Single ⟨lo, place⟩ ⟨hi, place + 1⟩ ⟨place⟩ checker
          (checkAssignment tree span.start.line target op value checker).2
  forRange {lo mid hi place : Nat} {last : Mark} {counter : String} {start stop : ExprId} {body : StmtId} {a b : Term}
      {span : Span} {checker before after : Checker} :
    ExprLayout tree lo mid start a → ExprLayout tree mid hi stop b → tree.kind? ⟨hi⟩ = some (.range start stop) →
      tree.stmt? ⟨last.stmts⟩ = some ⟨.forRange counter ⟨hi⟩ body, span⟩ → Ready lo checker →
        (declareCounter tree span.start.line counter ⟨hi⟩ (enter "loop" 1 (typeOf tree ⟨hi⟩ checker).2)).2 = before →
          Single ⟨hi + 1, place⟩ last body before after → Advances before after →
            Single ⟨lo, place⟩ ⟨last.exprs, last.stmts + 1⟩ ⟨last.stmts⟩ checker (leave 1 after)
  /-- The body of a loop or of a branch stands behind a condition. -/
  guarded {lo hi place : Nat} {last : Mark} {condition : ExprId} {body : StmtId} {a : Term} {kind : StmtKind}
      {span : Span} {label : String} {loops : Nat} {checker after : Checker} :
    ExprLayout tree lo hi condition a →
      kind = .whileLoop condition body ∨ kind = .branch condition body none →
      tree.stmt? ⟨last.stmts⟩ = some ⟨kind, span⟩ → Ready lo checker →
        Single ⟨hi, place⟩ last body (enter label loops (checkCondition tree condition checker).2) after →
          Advances (checkCondition tree condition checker).2 (leave loops after) →
            Single ⟨lo, place⟩ ⟨last.exprs, last.stmts + 1⟩ ⟨last.stmts⟩ checker (leave loops after)
  branchElse {lo hi place : Nat} {middle last : Mark} {condition : ExprId} {thenBody elseBody : StmtId} {a : Term}
      {span : Span} {checker taken skipped : Checker} :
    ExprLayout tree lo hi condition a →
      tree.stmt? ⟨last.stmts⟩ = some ⟨.branch condition thenBody (some elseBody), span⟩ → Ready lo checker →
        Single ⟨hi, place⟩ middle thenBody (enter "if" 0 (checkCondition tree condition checker).2) taken →
          Single middle last elseBody (enter "else" 0 (leave 0 taken)) skipped →
            Advances (checkCondition tree condition checker).2 (leave 0 taken) →
              Advances (leave 0 taken) (leave 0 skipped) →
                Single ⟨lo, place⟩ ⟨last.exprs, last.stmts + 1⟩ ⟨last.stmts⟩ checker (leave 0 skipped)
  signal {place : Mark} {kind : StmtKind} {span : Span} {problem : Problem} {checker : Checker} :
    kind = .breakLoop ∨ kind = .continueLoop → tree.stmt? ⟨place.stmts⟩ = some ⟨kind, span⟩ →
      Single place ⟨place.exprs, place.stmts + 1⟩ ⟨place.stmts⟩ checker
        ((do if (← get).loopDepth = 0 then report span.start.line problem : Check Unit) checker).2
  values {lo hi place : Nat} {ids : List ExprId} {terms : List Term} {kind : StmtKind} {span : Span}
      {checker : Checker} :
    Stretch (ExprLayout tree) lo hi ids terms → kind = .giveBack ids ∨ kind = .print ids →
      tree.stmt? ⟨place⟩ = some ⟨kind, span⟩ → Ready lo checker →
        Single ⟨lo, place⟩ ⟨hi, place + 1⟩ ⟨place⟩ checker (ids.forM (fun id => discard (typeOf tree id)) checker).2

/-- An action goes from nodes at `lo` to nodes at `hi`, and the checker behind it is related to that in front. -/
def Passes (Relates : Checker → Checker → Prop) (lo hi : Nat) (action : Check Unit) : Prop :=
  ∀ checker, Ready lo checker →
    Advances checker (action checker).2 ∧ Ready hi (action checker).2 ∧ Relates checker (action checker).2

theorem Passes.carries {Relates : Checker → Checker → Prop} {lo hi : Nat} {action : Check Unit}
    (passes : Passes Relates lo hi action) : Carries lo hi action := by
  intro checker ready
  obtain ⟨advances, ready, _⟩ := passes checker ready
  exact ⟨advances, ready⟩

theorem Passes.scoped {Relates : Checker → Checker → Prop} {lo hi : Nat} {body : Check Unit}
    (passes : Passes Relates lo hi body) (label : String) (loops : Nat) {checker : Checker}
    (ready : Ready lo checker) :
    Advances checker (leave loops (body (enter label loops checker)).2) ∧
      Ready hi (leave loops (body (enter label loops checker)).2) ∧
      Relates (enter label loops checker) (body (enter label loops checker)).2 := by
  obtain ⟨advances, outside⟩ := passes.carries.scoped label loops ready
  obtain ⟨_, _, related⟩ := passes _ (ready.enter label loops)
  exact ⟨advances, outside, related⟩

namespace Inherited

variable {tree : Tree} {Single : Mark → Mark → StmtId → Checker → Checker → Prop}
  {Several : Mark → Mark → List StmtId → Checker → Checker → Prop} (inherited : Inherited tree Single Several)
include inherited

theorem forM {lo hi : Mark} {ids : List StmtId} {phrases : List Phrase} {statement : StmtId → Check Unit}
    (stretch : Stretch (StmtLayout tree) lo hi ids phrases)
    (each : ∀ first last id phrase, last.stmts ≤ hi.stmts → StmtLayout tree first last id phrase →
      Passes (Single first last id) first.exprs last.exprs (statement id)) :
    Passes (Several lo hi ids) lo.exprs hi.exprs (ids.forM statement) := by
  induction stretch with
  | nil => exact fun checker ready => ⟨.refl checker, ready, inherited.nil⟩
  | cons item rest ih =>
    have inside := rest.le Mark.stmts fun _ _ _ _ _ => StmtLayout.lt
    intro checker ready
    obtain ⟨earlier, ready, one⟩ := each _ _ _ _ inside item checker ready
    obtain ⟨later, ready, others⟩ := ih each _ ready
    exact ⟨earlier.trans later, ready, inherited.cons one others earlier later⟩

/-- Checking a statement takes the checker from in front of its expressions to behind them. -/
theorem passes {lo hi : Mark} {id : StmtId} {phrase : Phrase} {depth : Nat}
    (layout : StmtLayout tree lo hi id phrase) (deep : id.index < depth) :
    Passes (Single lo hi id) lo.exprs hi.exprs (checkWithin tree depth id) := by
  induction depth generalizing lo hi id phrase with
  | zero => exact absurd deep (Nat.not_lt_zero _)
  | succ depth ih =>
    -- a body has a smaller number than the statement around it, so the depth that is left is enough for it
    have within {first last : Mark} {inner : StmtId} {phrase : Phrase} (le : last.stmts ≤ id.index)
        (layout : StmtLayout tree first last inner phrase) :
        Passes (Single first last inner) first.exprs last.exprs (checkWithin tree depth inner) := by
      have root := layout.root
      exact ih layout (by omega)
    cases layout with
    | block items node =>
      obtain ⟨span, found⟩ := stmt?_of_kind node
      rw [checkWithin_apply found]
      intro checker ready
      obtain ⟨advances, ready, related⟩ := inherited.forM items (fun _ _ _ _ => within) checker ready
      exact ⟨advances, ready, inherited.block found related⟩
    | assign target value node =>
      obtain ⟨span, found⟩ := stmt?_of_kind node
      rw [checkWithin_apply found]
      intro checker ready
      obtain ⟨advances, ready'⟩ := checkAssignment_carries target value checker ready
      exact ⟨advances, ready', inherited.assign target value found ready⟩
    | forRange start stop range inner node =>
      obtain ⟨span, found⟩ := stmt?_of_kind node
      rw [checkWithin_apply found]
      intro checker ready
      rw [checkNode_forRange]
      obtain ⟨earlier, ready', typed⟩ := typeOf_range_ready start stop range ready
      obtain ⟨declared, ready'⟩ := (ready'.enter "loop" 1).declareCounter range typed span.start.line _
      obtain ⟨inside, ready', repeated⟩ := within (Nat.le_refl _) inner _ ready'
      obtain ⟨later, ready'⟩ := (declared.trans inside).leave ready'
      exact ⟨earlier.trans later, ready', inherited.forRange start stop range found ready rfl repeated inside⟩
    | whileLoop condition inner node =>
      obtain ⟨span, found⟩ := stmt?_of_kind node
      rw [checkWithin_apply found]
      intro checker ready
      rw [checkNode_whileLoop]
      obtain ⟨earlier, ready'⟩ := checkCondition_carries condition checker ready
      obtain ⟨later, ready', repeated⟩ := (within (Nat.le_refl _) inner).scoped "loop" 1 ready'
      exact ⟨earlier.trans later, ready', inherited.guarded condition (.inl rfl) found ready repeated later⟩
    | branch condition inner node =>
      obtain ⟨span, found⟩ := stmt?_of_kind node
      rw [checkWithin_apply found]
      intro checker ready
      rw [checkNode_branch]
      obtain ⟨earlier, ready'⟩ := checkCondition_carries condition checker ready
      obtain ⟨later, ready', taken⟩ := (within (Nat.le_refl _) inner).scoped "if" 0 ready'
      exact ⟨earlier.trans later, ready', inherited.guarded condition (.inr rfl) found ready taken later⟩
    | branchElse condition first second node =>
      obtain ⟨span, found⟩ := stmt?_of_kind node
      rw [checkWithin_apply found]
      intro checker ready
      rw [checkNode_branchElse]
      obtain ⟨earlier, ready'⟩ := checkCondition_carries condition checker ready
      obtain ⟨between, ready', taken⟩ := (within (Nat.le_of_lt second.lt) first).scoped "if" 0 ready'
      obtain ⟨later, ready', skipped⟩ := (within (Nat.le_refl _) second).scoped "else" 0 ready'
      exact ⟨(earlier.trans between).trans later, ready',
        inherited.branchElse condition found ready taken skipped between later⟩
    | breakLoop node =>
      obtain ⟨span, found⟩ := stmt?_of_kind node
      rw [checkWithin_apply found]
      intro checker ready
      obtain ⟨advances, ready⟩ := stray_carries _ _ _ checker ready
      exact ⟨advances, ready, inherited.signal (.inl rfl) found⟩
    | continueLoop node =>
      obtain ⟨span, found⟩ := stmt?_of_kind node
      rw [checkWithin_apply found]
      intro checker ready
      obtain ⟨advances, ready⟩ := stray_carries _ _ _ checker ready
      exact ⟨advances, ready, inherited.signal (.inr rfl) found⟩
    | giveBack values node =>
      obtain ⟨span, found⟩ := stmt?_of_kind node
      rw [checkWithin_apply found]
      intro checker ready
      obtain ⟨advances, ready'⟩ := values_carries values checker ready
      exact ⟨advances, ready', inherited.values values (.inl rfl) found ready⟩
    | print values node =>
      obtain ⟨span, found⟩ := stmt?_of_kind node
      rw [checkWithin_apply found]
      intro checker ready
      obtain ⟨advances, ready'⟩ := values_carries values checker ready
      exact ⟨advances, ready', inherited.values values (.inr rfl) found ready⟩

end Inherited

section

variable {tree : Tree}

theorem Inherited.trivial : Inherited tree (fun _ _ _ _ _ => True) fun _ _ _ _ _ => True := by
  constructor
  all_goals
    intros
    trivial

theorem forM_carries {lo hi : Mark} {ids : List StmtId} {phrases : List Phrase} {statement : StmtId → Check Unit}
    (stretch : Stretch (StmtLayout tree) lo hi ids phrases)
    (each : ∀ first last id phrase, last.stmts ≤ hi.stmts → StmtLayout tree first last id phrase →
      Carries first.exprs last.exprs (statement id)) : Carries lo.exprs hi.exprs (ids.forM statement) := by
  induction stretch with
  | nil => exact .pure _
  | cons item rest ih =>
    have inside := rest.le Mark.stmts fun _ _ _ _ _ => StmtLayout.lt
    exact (each _ _ _ _ inside item).bind fun _ => ih each

theorem checkWithin_carries {lo hi : Mark} {id : StmtId} {phrase : Phrase} {depth : Nat}
    (layout : StmtLayout tree lo hi id phrase) (deep : id.index < depth) :
    Carries lo.exprs hi.exprs (checkWithin tree depth id) :=
  (Inherited.trivial.passes layout deep).carries

end

/-- A statement of an accepted program, in the state in which the checker comes to it. -/
structure Sits (tree : Tree) (types : StaticTypes) (lo hi : Mark) (depth : Nat) (id : StmtId)
    (checker : Checker) : Prop where
  layout : ∃ phrase, StmtLayout tree lo hi id phrase
  deep : id.index < depth
  ready : Ready lo.exprs checker
  quiet : checker.Quiet (checkWithin tree depth id checker).2
  kept : (checkWithin tree depth id checker).2.types.Extends types

section

variable {tree : Tree} {types : StaticTypes} {lo hi : Mark} {depth : Nat} {id : StmtId} {checker : Checker}

theorem Sits.deeper (sits : Sits tree types lo hi depth id checker) : ∃ less, depth = less + 1 :=
  ⟨depth - 1, by have := sits.deep; omega⟩

theorem Sits.found (sits : Sits tree types lo hi depth id checker) : ∃ stmt, tree.stmt? id = some stmt := by
  obtain ⟨phrase, layout⟩ := sits.layout
  obtain ⟨kind, node⟩ := layout.node
  obtain ⟨span, found⟩ := stmt?_of_kind node
  exact ⟨_, found⟩

theorem Sits.parts (sits : Sits tree types lo hi depth id checker) {stmt : Stmt} (found : tree.stmt? id = some stmt) :
    Parts tree lo ⟨hi.exprs, id.index⟩ stmt.kind := by
  obtain ⟨phrase, layout⟩ := sits.layout
  exact layout.parts (Tree.stmtKind?_of_stmt? found)

theorem sits_inside {first last : Mark} {body : StmtId} {phrase : Phrase}
    (layout : StmtLayout tree first last body phrase) (deep : body.index < depth) {before after : Checker}
    (ready : Ready first.exprs before) (quiet : checker.Quiet after)
    (earlier : checker.findings.toList <+: before.findings.toList)
    (later : (checkWithin tree depth body before).2.findings.toList <+: after.findings.toList)
    (grown : (checkWithin tree depth body before).2.types.Extends after.types) (kept : after.types.Extends types) :
    Sits tree types first last depth body before := by
  have inside := (checkWithin_carries layout deep before ready).1
  have quiet := (quiet.split earlier (inside.findings.trans later)).2
  exact ⟨⟨phrase, layout⟩, deep, ready, (quiet.split inside.findings later).1, grown.trans kept⟩

theorem sits_of_stretch {before after : List StmtId} {next : StmtId} {phrases : List Phrase}
    (stretch : Stretch (StmtLayout tree) lo hi (before ++ next :: after) phrases) (deep : hi.stmts ≤ depth)
    (ready : Ready lo.exprs checker)
    (quiet : checker.Quiet ((before ++ next :: after).forM (checkWithin tree depth) checker).2)
    (kept : ((before ++ next :: after).forM (checkWithin tree depth) checker).2.types.Extends types) :
    ∃ first second, Sits tree types first second depth next (before.forM (checkWithin tree depth) checker).2 := by
  obtain ⟨first, second, phrase, front, back, earlier, here, later⟩ := stretch.split
  have end_le := later.le Mark.stmts fun _ _ _ _ _ => StmtLayout.lt
  have rising := here.lt
  have root := here.root
  have each {first last : Mark} {id : StmtId} {phrase : Phrase} (inside : last.stmts ≤ hi.stmts)
      (item : StmtLayout tree first last id phrase) :
      Carries first.exprs last.exprs (checkWithin tree depth id) :=
    checkWithin_carries item (by have := item.root; omega)
  rw [forM_append, forM_cons] at quiet kept
  obtain ⟨start, ready⟩ := forM_carries earlier (fun _ _ _ _ inside => each (by omega)) checker ready
  obtain ⟨_, ready'⟩ := each end_le here _ ready
  obtain ⟨finish, _⟩ := forM_carries later (fun _ _ _ _ inside => each inside) _ ready'
  exact ⟨first, second, sits_inside here (by omega) ready quiet start.findings finish.findings finish.types kept⟩

theorem sits_guarded {mid : Nat} {last : Mark} {condition : ExprId} {body : StmtId} {a : Term} {phrase : Phrase}
    {label : String} {loops : Nat} (test : ExprLayout tree lo.exprs mid condition a)
    (layout : StmtLayout tree ⟨mid, lo.stmts⟩ last body phrase) (deep : body.index < depth)
    (ready : Ready lo.exprs checker)
    (quiet : checker.Quiet
      (leave loops (checkWithin tree depth body (enter label loops (checkCondition tree condition checker).2)).2))
    (kept : (leave loops (checkWithin tree depth body
      (enter label loops (checkCondition tree condition checker).2)).2).types.Extends types) :
    Sits tree types ⟨mid, lo.stmts⟩ last depth body (enter label loops (checkCondition tree condition checker).2) := by
  obtain ⟨typing, ready⟩ := checkCondition_carries test checker ready
  exact sits_inside layout deep (ready.enter label loops) quiet typing.findings (List.prefix_refl _) (.refl _) kept

/-- The two bodies of a branch. The checker comes to the second after it has left the scope of the first. -/
theorem Sits.branchElse (sits : Sits tree types lo hi (depth + 1) id checker) {span : Span} {condition : ExprId}
    {thenBody elseBody : StmtId}
    (found : tree.stmt? id = some ⟨.branch condition thenBody (some elseBody), span⟩) :
    (∃ first last, Sits tree types first last depth thenBody
      (enter "if" 0 (checkCondition tree condition checker).2)) ∧
    ∃ first last, Sits tree types first last depth elseBody (enter "else" 0 (leave 0
      (checkWithin tree depth thenBody (enter "if" 0 (checkCondition tree condition checker).2)).2)) := by
  have quiet := sits.quiet
  have kept := sits.kept
  have deep := sits.deep
  rw [checkWithin_apply found, checkNode_branchElse] at quiet kept
  obtain ⟨last, middle, a, phrase, phrase', test, first, second⟩ := sits.parts found
  have root := first.root
  have root' : id.index = elseBody.index + 1 := second.root
  have above := second.le_root
  have inside : thenBody.index < depth := by omega
  have inside' : elseBody.index < depth := by omega
  obtain ⟨typing, ready⟩ := checkCondition_carries test checker sits.ready
  obtain ⟨between, ready'⟩ := (checkWithin_carries first inside).scoped "if" 0 ready
  obtain ⟨later, _⟩ := (checkWithin_carries second inside').scoped "else" 0 ready'
  have taken := sits_inside first inside (ready.enter "if" 0) quiet typing.findings later.findings later.types kept
  have skipped := sits_inside second inside' (ready'.enter "else" 0) quiet
    (typing.findings.trans between.findings) (List.prefix_refl _) (.refl _) kept
  exact ⟨⟨_, _, taken⟩, _, _, skipped⟩

theorem Enters.sits (sits : Sits tree types lo hi (depth + 1) id checker) {stmt : Stmt}
    (found : tree.stmt? id = some stmt) {next : StmtId} {later : Checker}
    (enters : Enters tree depth stmt checker next later) :
    ∃ first last, Sits tree types first last depth next later := by
  have parts := sits.parts found
  have deep : id.index ≤ depth := Nat.le_of_lt_succ sits.deep
  have quiet := sits.quiet
  have kept := sits.kept
  rw [checkWithin_apply found] at quiet kept
  obtain ⟨kind, span⟩ := stmt
  cases enters with
  | block known =>
    simp only at known parts
    subst known
    obtain ⟨body, stretch⟩ := parts
    exact sits_of_stretch stretch deep sits.ready quiet kept
  | @forRange name _ _ known =>
    simp only at known parts
    subst known
    obtain ⟨mid, last, start, stop, a, b, phrase, first, second, rfl, range, body⟩ := parts
    rw [checkNode_forRange] at quiet kept
    have root : id.index = next.index + 1 := body.root
    -- the body is entered after the range has been typed and the counter declared
    obtain ⟨typing, ready, typed⟩ := typeOf_range_ready first second range sits.ready
    obtain ⟨declared, ready⟩ := (ready.enter "loop" 1).declareCounter range typed span.start.line name
    have earlier := typing.findings.trans declared.findings
    exact ⟨_, _, sits_inside body (by omega) ready quiet earlier (List.prefix_refl _) (.refl _) kept⟩
  | whileLoop known =>
    simp only at known parts
    subst known
    obtain ⟨last, a, phrase, test, body⟩ := parts
    rw [checkNode_whileLoop] at quiet kept
    have root : id.index = next.index + 1 := body.root
    exact ⟨_, _, sits_guarded test body (by omega) sits.ready quiet kept⟩
  | @thenBody _ _ elseBody known =>
    simp only at known parts
    subst known
    cases elseBody with
    | none =>
      obtain ⟨last, a, phrase, test, body⟩ := parts
      rw [checkNode_branch] at quiet kept
      have root : id.index = next.index + 1 := body.root
      exact ⟨_, _, sits_guarded test body (by omega) sits.ready quiet kept⟩
    | some elseBody => exact (sits.branchElse found).1
  | @elseBody _ thenBody _ known =>
    simp only at known
    subst known
    exact (sits.branchElse found).2

end

section

variable {tree : Tree} {types : StaticTypes} {lo hi : Mark} {depth : Nat} {id : StmtId} {checker : Checker}
  {span : Span}

theorem Sits.counter_declared {name : String} {range start stop : ExprId} {body : StmtId}
    (sits : Sits tree types lo hi depth id checker)
    (found : tree.stmt? id = some ⟨.forRange name range body, span⟩)
    (node : tree.kind? range = some (.range start stop)) (new : checker.declared.lookup? name = none) (line : Nat) :
    (declareCounter tree line name range (enter "loop" 1 (typeOf tree range checker).2)).2.declared =
      (checker.declared.push "loop").declare name start := by
  obtain ⟨mid, last, _, _, a, b, phrase, first, second, rfl, range, _⟩ := sits.parts found
  cases node.symm.trans range
  have extended := (typeOf_range_mirrors first second range).extended checker sits.ready.recorded
  rw [declareCounter_apply node]
  have absent : (enter "loop" 1 (typeOf tree ⟨last⟩ checker).2).declared.lookup? name = none := by
    show (typeOf tree ⟨last⟩ checker).2.declared.lookup? name = none
    rw [extended.declared]
    exact new
  rw [absent]
  show ((typeOf tree ⟨last⟩ checker).2.declared.push "loop").declare name start = _
  rw [extended.declared]

theorem Sits.while_declared {condition : ExprId} {body : StmtId} (sits : Sits tree types lo hi depth id checker)
    (found : tree.stmt? id = some ⟨.whileLoop condition body, span⟩) :
    (checkCondition tree condition checker).2.declared = checker.declared := by
  obtain ⟨last, a, phrase, layout, _⟩ := sits.parts found
  exact ((checkCondition_mirrors layout).extended checker sits.ready.recorded).declared

theorem Sits.branch_declared {condition : ExprId} {thenBody : StmtId} {elseBody : Option StmtId}
    (sits : Sits tree types lo hi depth id checker)
    (found : tree.stmt? id = some ⟨.branch condition thenBody elseBody, span⟩) :
    (checkCondition tree condition checker).2.declared = checker.declared := by
  have parts := sits.parts found
  cases elseBody with
  | none =>
    obtain ⟨last, a, phrase, layout, _⟩ := parts
    exact ((checkCondition_mirrors layout).extended checker sits.ready.recorded).declared
  | some elseBody =>
    obtain ⟨last, middle, a, _, _, layout, _⟩ := parts
    exact ((checkCondition_mirrors layout).extended checker sits.ready.recorded).declared

theorem Sits.values_declared {values : List ExprId} {kind : StmtKind} (sits : Sits tree types lo hi depth id checker)
    (found : tree.stmt? id = some ⟨kind, span⟩) (known : kind = .giveBack values ∨ kind = .print values) :
    (values.forM (fun id => discard (typeOf tree id)) checker).2.declared = checker.declared := by
  have parts := sits.parts found
  rcases known with rfl | rfl
  · obtain ⟨terms, stretch⟩ := parts
    exact ((values_fills stretch).extended checker sits.ready.recorded).declared
  · obtain ⟨terms, stretch⟩ := parts
    exact ((values_fills stretch).extended checker sits.ready.recorded).declared

end

end MatrixScript.Typing

namespace MatrixScript

open Typing Grammar

/-- The tree of the program stands for a program text, nothing was found in it, and its types are those that the
checker ends with. -/
structure Accepted (program : Program) : Prop where
  represents : ∃ body, program.tree.Represents body
  quiet : (Checker.start program.tree).Quiet (checkProgram program.tree (.start program.tree)).2
  types : program.types = (checkProgram program.tree (.start program.tree)).2.types

theorem accepted_of_check {tree : Tree} {body : List Phrase} (represents : tree.Represents body)
    (clean : (check tree).hasFindings = false) : Accepted ⟨tree, (check tree).types⟩ := by
  refine ⟨⟨body, represents⟩, ?_, rfl⟩
  rw [CheckResult.hasFindings, Bool.not_eq_false', List.isEmpty_iff] at clean
  exact Array.toList_eq_nil_iff.mp clean

theorem Ready.start (tree : Tree) : Ready 0 (.start tree) :=
  ⟨fun _ _ found => (nomatch found), fun id _ => StaticTypes.get?_ofSize _ id⟩

theorem Typing.Inherited.program {tree : Tree} {Single : Mark → Mark → StmtId → Checker → Checker → Prop}
    {Several : Mark → Mark → List StmtId → Checker → Checker → Prop} (inherited : Inherited tree Single Several)
    {body : List Phrase} (represents : tree.Represents body) :
    Several ⟨0, 0⟩ tree.mark tree.body (.start tree) (checkProgram tree (.start tree)).2 := by
  have all : Passes (Several ⟨0, 0⟩ tree.mark tree.body) 0 tree.exprs.size (checkProgram tree) := by
    refine inherited.forM represents fun first last id phrase inside item => inherited.passes item ?_
    have root := item.root
    have count : last.stmts ≤ tree.stmts.size := inside
    omega
  exact (all _ (Ready.start tree)).2.2

theorem Accepted.sits {program : Program} (accepted : Accepted program) {depth : Nat} {id : StmtId}
    {checker : Checker} (visited : Visited program.tree depth id checker) :
    ∃ lo hi, Sits program.tree program.types lo hi depth id checker := by
  induction visited with
  | @program before after next split =>
    obtain ⟨body, represents⟩ := accepted.represents
    have quiet := accepted.quiet
    have kept : (checkProgram program.tree (.start program.tree)).2.types.Extends program.types := by
      rw [accepted.types]
      exact .refl _
    unfold Tree.Represents at represents
    unfold checkProgram at quiet kept
    rw [split] at represents quiet kept
    exact sits_of_stretch represents (Nat.le_succ _) (Ready.start _) quiet kept
  | inside _ found enters ih =>
    obtain ⟨lo, hi, sits⟩ := ih
    exact enters.sits sits found

end MatrixScript
