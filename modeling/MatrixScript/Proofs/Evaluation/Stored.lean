import MatrixScript.Proofs.Evaluation.Steps
import MatrixScript.Proofs.Evaluation.Walk
import MatrixScript.Proofs.Scope.Contents
import MatrixScript.Proofs.Typing.Source
import MatrixScript.Proofs.Typing.Stored
import MatrixScript.Proofs.Value.Shape

/-! Truth values are never stored.

Only a comparison makes a truth value. A memory without any gives none to the other expressions, and the other ways to
change a memory write numbers, texts and matrices. So it is enough that no name is bound to a comparison as it is, which
the checker refuses whatever it believes about the types of the names.
-/

set_option autoImplicit false

namespace MatrixScript

def Gets {ε α : Type} (Good : α → Prop) (outcome : Except ε α) : Prop := ∀ value, outcome = .ok value → Good value

namespace Gets

variable {ε α β : Type} {Good : β → Prop}

theorem ok {value : β} (good : Good value) : Gets Good (.ok value : Except ε β) := by
  intro result done
  cases done
  exact good

theorem error (failure : ε) : Gets Good (.error failure) := nofun

theorem after {outcome : Except ε α} {next : α → Except ε β} (last : ∀ value, Gets Good (next value)) :
    Gets Good (outcome >>= next) := by
  intro result done
  obtain ⟨value, _, done⟩ := Except.bind_eq_ok done
  exact last value result done

theorem map {outcome : Except ε α} {f : α → β} (good : ∀ value, Good (f value)) : Gets Good (outcome.map f) := by
  cases outcome with
  | ok value => exact ok (good value)
  | error failure => exact error failure

theorem ite {choice : Prop} [Decidable choice] {first second : Except ε β} (yes : Gets Good first)
    (no : Gets Good second) : Gets Good (if choice then first else second) := by
  split
  · exact yes
  · exact no

theorem locate {outcome : Except Fault β} (gets : Gets Good outcome) (position : Position) :
    Gets Good (locate position outcome : Eval β) := by
  cases outcome with
  | ok value => exact ok (gets value rfl)
  | error fault => exact error _

end Gets

namespace Value

def Storable (value : Value) : Prop := ∀ truth, value ≠ .bool truth

theorem arithmetic_gets (op : Arith) (left right : Value) : Gets Storable (arithmetic op left right) := by
  unfold arithmetic
  split
  · exact .map fun _ => nofun
  · exact .map fun _ => nofun
  · exact .map fun _ => nofun
  · exact .map fun _ => nofun
  · exact .ite (.ok nofun) (.error _)
  · exact .ite (.map fun _ => nofun) (.error _)
  · exact .ite (.map fun _ => nofun) (.error _)
  · exact .map fun _ => nofun
  · split
    · exact .after fun _ => .ok nofun
    · exact .error _
  · split
    · exact .after fun _ => .ok nofun
    · exact .error _
  · exact .error _

theorem linear_gets (op : Arith) (left right : Value) : Gets Storable (linear op left right) := by
  unfold linear
  split
  · split
    · exact .ok nofun
    · exact .error _
  · exact arithmetic_gets op left right

theorem negate_gets (value : Value) : Gets Storable value.negate := by
  cases value with
  | int _ | matrix _ => exact .map fun _ => nofun
  | float _ => exact .ok nofun
  | text _ | bool _ => exact .error _

theorem transpose_gets (value : Value) : Gets Storable value.transpose := by
  cases value with
  | int _ | float _ | matrix _ => exact .ok nofun
  | text _ | bool _ => exact .error _

theorem ofPart_storable (part : Part) : (ofPart part).Storable := by
  cases part with
  | scalar element => cases element <;> exact nofun
  | matrix value => exact nofun

theorem index_gets (base : Value) (selectors : List Selector) : Gets Storable (base.index selectors) := by
  cases base with
  | text content => exact .after fun _ => .ok nofun
  | matrix grid => exact .after fun _ => .after fun part => .ok (ofPart_storable part)
  | int _ | float _ | bool _ => exact .error _

theorem assignInto_gets (current : Value) (selectors : List Selector) (replacement : Value) :
    Gets Storable (current.assignInto selectors replacement) := by
  cases current with
  | text content =>
    cases replacement with
    | text inserted =>
      rw [assignInto_text_eq]
      exact .after fun _ => .ok nofun
    | int _ | float _ | bool _ | matrix _ => exact .error _
  | matrix grid =>
    rw [assignInto_matrix_eq]
    refine .after fun chosen => ?_
    split
    · exact .map fun _ => nofun
    · exact .error _
  | int _ | float _ | bool _ => exact .error _

end Value

section

variable {tree : Tree} {memory : Memory Value} (holds : memory.Holds Value.Storable)
include holds

namespace Evaluation

/-- From a memory without truth values, only a comparison gets one. -/
theorem node_gets (operand : ExprId → Eval Value) {expr : Expr} (other : ¬expr.kind.isCompare) :
    Gets Value.Storable (node tree (fetch memory) operand expr) := by
  obtain ⟨kind, span⟩ := expr
  cases kind with
  | int _ | float _ | text _ => exact .ok nofun
  | array items =>
    refine .after fun values => ?_
    split
    · exact .after fun _ => .ok nofun
    · exact .after fun rows => .after fun _ => .ok nofun
  | name name =>
    cases read : memory.read? name with
    | some value =>
      rw [node_name rfl read operand]
      exact .ok (holds.of_read? read)
    | none =>
      have undefined : node tree (fetch memory) operand ⟨.name name, span⟩ =
          .error (.failed ⟨.undefined name, span.start⟩) := by
        simp only [node, fetch, read]
        rfl
      rw [undefined]
      exact .error _
  | indexed base indices =>
    exact .after fun value => .after fun selected => (Value.index_gets value selected).locate _
  | linear left op right => exact .after fun a => .after fun b => (Value.linear_gets op a b).locate _
  | elementwise left op right => exact .after fun a => .after fun b => (Value.arithmetic_gets op a b).locate _
  | compare left op right => exact absurd rfl other
  | negate inner => exact .after fun value => (Value.negate_gets value).locate _
  | transpose inner => exact .after fun value => (Value.transpose_gets value).locate _
  | builtin function arguments =>
    refine .after fun dims => ?_
    split
    · exact .after fun _ => .ok nofun
    · exact .after fun _ => .ok nofun
    · exact .error _
  | range start stop => exact .error _

theorem evaluateWithin_gets (depth : Nat) {id : ExprId}
    (other : ∀ kind, tree.kind? id = some kind → ¬kind.isCompare) :
    Gets Value.Storable (evaluateWithin tree memory depth id) := by
  -- no induction: whatever the operands are, the node itself makes the result
  unfold evaluateWithin
  cases depth with
  | zero => exact .error _
  | succ depth =>
    unfold valueWithin
    cases found : tree.expr? id with
    | none => exact .error _
    | some expr =>
      have node : tree.kind? id = some expr.kind := by rw [Tree.kind?, found, Option.map_some]
      exact node_gets holds _ (other _ node)

end Evaluation

end

/-- No name is bound to a truth value, in any scope. -/
def Machine.Plain (machine : Machine) : Prop := machine.memory.Holds Value.Storable

def Machine.StaysPlain (before after : Machine) : Prop := before.Plain → after.Plain

instance : Std.Refl Machine.StaysPlain := ⟨fun _ plain => plain⟩

instance : IsTrans Machine Machine.StaysPlain := ⟨fun _ _ _ earlier later plain => later (earlier plain)⟩

namespace Execution

theorem bind_staysPlain (name : String) {value : Value} (storable : value.Storable) :
    Keeps Machine.StaysPlain (Execution.bind name value) :=
  fun _ plain => plain.bind name storable

theorem changeAt_staysPlain (position : Position) (name : String) (selectors : List Selector) (replacement : Value) :
    Keeps Machine.StaysPlain (changeAt position name (Value.writeInto selectors replacement)) := by
  intro machine
  have reads : Gives machine (.ok (machine.memory.read? name)) (readVariable name) := rfl
  refine Keeps.of_gives reads fun found known plain => ?_
  cases known
  cases read : machine.memory.read? name with
  | none => exact plain
  | some current =>
    have updates := Value.assignInto_gets current selectors replacement
    have atomic := Value.writeInto_atomic selectors replacement current
    unfold Value.assignInto Change.result at updates
    dsimp only
    cases done : Value.writeInto selectors replacement current with
    | ok value updated =>
      rw [done] at updates
      exact plain.bind name (updates updated rfl)
    | error fault left =>
      cases atomic fault left done
      exact plain.bind name (plain.of_read? read)

section

variable {tree : Tree}

theorem assignTo_staysPlain (target : ExprId) {value : Value}
    (storable : ∀ name, tree.kind? target = some (.name name) → value.Storable) :
    Keeps Machine.StaysPlain (assignTo tree target value) := by
  unfold assignTo
  split
  · next name node => exact bind_staysPlain name (storable name node)
  · split
    · exact .after_reading (selectors_readsOnly tree _) fun selected => changeAt_staysPlain _ _ selected value
    · exact .throw _
  · exact .throw _

theorem assign_staysPlain (target : ExprId) (op : Assign) (value : ExprId)
    (other : op = .plain → ∀ name kind, tree.kind? target = some (.name name) → tree.kind? value = some kind →
      ¬kind.isCompare) : Keeps Machine.StaysPlain (assign tree target op value) := by
  intro machine
  refine Keeps.of_gives (valueOf_gives value) fun right valued => ?_
  cases op with
  | plain =>
    intro plain
    refine assignTo_staysPlain target (fun name node => ?_) machine plain
    exact Evaluation.evaluateWithin_gets plain _ (fun kind => other rfl name kind node) right valued
  | compound op =>
    -- whatever the two sides are, their combination is no truth value
    refine Keeps.of_gives (valueOf_gives target) fun left _ => ?_
    refine Keeps.of_gives (Gives.locate _ (Value.arithmetic op left right)) fun combined result => ?_
    have storable := (Value.arithmetic_gets op left right).locate (tree.exprStart target) combined result
    exact assignTo_staysPlain target (fun _ _ => storable) machine

end

theorem staysPlain_closed : Closed fun {α} => @Keeps α Machine.StaysPlain :=
  Keeps.closed (fun label keeps => keeps.inScope label fun _ _ inside plain => (inside (plain.enter label)).exit)
    fun name _ => bind_staysPlain name nofun

theorem staysPlain_parts {tree : Tree} (stores : tree.StoresNoComparison) {id : StmtId} {stmt : Stmt}
    (reachable : tree.Reachable id) (found : tree.stmt? id = some stmt) :
    Parts (fun {α} => @Keeps α Machine.StaysPlain) tree stmt := by
  refine Keeps.parts (fun target op value known => ?_) fun line => Keeps.printLine (fun _ _ plain => plain) line _
  obtain ⟨kind, span⟩ := stmt
  cases known
  refine assign_staysPlain target op value fun plain name kind => ?_
  subst plain
  exact stores id target value span name kind reachable found

end Execution

/-- A run comes by a machine: when it starts a statement or tests a condition, when it is through with a statement or
has failed in it, and at its end. -/
inductive Tree.PassesBy (tree : Tree) (steps : Nat) (sink : Sink) : Machine → Prop where
  | moment {id : StmtId} {machine : Machine} : tree.RunsTo steps sink id machine → PassesBy tree steps sink machine
  | after {id : StmtId} {machine : Machine} (more : Nat) :
      tree.RunsTo steps sink id machine → PassesBy tree steps sink (remaining (execute tree more id machine))
  | finish : PassesBy tree steps sink (tree.run steps sink).machine

theorem Tree.PassesBy.plain {tree : Tree} {steps : Nat} {sink : Sink} {machine : Machine}
    (stores : tree.StoresNoComparison) (passes : tree.PassesBy steps sink machine) : machine.Plain := by
  have closed := Execution.staysPlain_closed
  have parts := fun id stmt => @Execution.staysPlain_parts tree stores id stmt
  have start : Machine.Plain { sink } := Memory.Holds.start
  have enters (machine : Machine) (label : String) : machine.StaysPlain (machine.enter label) :=
    fun plain => plain.enter label
  cases passes with
  | moment runs => exact (runs.keeps closed parts enters).2 start
  | @after id machine more runs =>
    obtain ⟨reachable, stays⟩ := runs.keeps closed parts enters
    exact execute_walk closed parts more reachable machine (stays start)
  | finish =>
    rw [tree.run_machine]
    exact runBody_walk closed parts steps { sink } start

section

variable {source : String} {program : Program}

/-- Whatever way the control of an accepted program takes and whatever types are unknown: at no moment of a run is a
name bound to a truth value, in any scope, and of the typed expressions only conditions evaluate to one. -/
theorem truths_never_stored (accepted : Program.ofSource source = .ok program) (steps : Nat) (sink : Sink)
    (machine : Machine) (passes : program.tree.PassesBy steps sink machine) :
    (∀ frame ∈ machine.memory.frames, ∀ binding ∈ frame.bindings, ∀ truth, binding.2 ≠ .bool truth) ∧
      ∀ id type, program.types.get? id = some type → type.tag ≠ .bool → ∀ depth truth,
        Evaluation.evaluateWithin program.tree machine.memory depth id ≠ .ok (.bool truth) := by
  have accepted := accepted_of_source accepted
  have plain := passes.plain accepted.storesNoComparison
  refine ⟨plain, fun id type typed other depth truth done => ?_⟩
  refine Evaluation.evaluateWithin_gets plain depth (fun kind node compare => ?_) _ done truth rfl
  cases accepted.compared typed node compare
  exact other rfl

/-- A text that a branch changes into a number, and a loop that counts it down. -/
theorem countDown_stores_no_truth :
    ∃ program machine, Program.ofSource
        "x = \"a\"; if (1 == 1) { x = 3; } while (x > 1) { x -= 1; } print x == 1;" = .ok program ∧
      program.tree.PassesBy 9 {} machine ∧ machine.memory.read? "x" = some (.int 1) ∧
      ∀ frame ∈ machine.memory.frames, ∀ binding ∈ frame.bindings, ∀ truth, binding.2 ≠ .bool truth := by
  obtain ⟨program, accepted, counted⟩ := @exists_accepted
    "x = \"a\"; if (1 == 1) { x = 3; } while (x > 1) { x -= 1; } print x == 1;"
    (fun program => (program.tree.run 9 {}).machine.memory.read? "x" = some (.int 1)) (by decide +kernel)
  have plain := (truths_never_stored accepted 9 {} _ .finish).1
  exact ⟨program, _, accepted, .finish, of_decide_eq_true counted, plain⟩

end

end MatrixScript
