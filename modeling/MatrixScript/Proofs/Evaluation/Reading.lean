import MatrixScript.Proofs.Evaluation.Outcome

/-! A run that evaluates an expression leaves the machine as it is.

In a run, an expression is evaluated against the memory as it stands at each variable. Nothing on the way changes the
machine, so this is the value of the expression against the memory at the start.
-/

set_option autoImplicit false

namespace MatrixScript

variable {α β : Type}

/-- The action gives what the evaluation gives and changes nothing. -/
def Gives (machine : Machine) (outcome : Eval α) (action : Run α) : Prop :=
  action machine = Execution.lift outcome machine

namespace Gives

variable {machine : Machine}

theorem pure (value : α) : Gives machine (pure value) (pure value) := rfl

theorem locate (position : Position) (outcome : Except Fault α) :
    Gives machine (locate position outcome) (locate position outcome) := by
  cases outcome with
  | ok value => rfl
  | error fault => rfl

theorem ite (choice : Prop) [Decidable choice] {first second : Eval α} {one two : Run α}
    (yes : Gives machine first one) (no : Gives machine second two) :
    Gives machine (if choice then first else second) (if choice then one else two) := by
  by_cases chosen : choice
  · rw [if_pos chosen, if_pos chosen]
    exact yes
  · rw [if_neg chosen, if_neg chosen]
    exact no

theorem bind {outcome : Eval α} {action : Run α} {next : α → Eval β} {rest : α → Run β}
    (first : Gives machine outcome action) (second : ∀ value, Gives machine (next value) (rest value)) :
    Gives machine (outcome >>= next) (action >>= rest) := by
  unfold Gives
  rw [Execution.bind_apply, first]
  cases outcome with
  | ok value => exact second value
  | error stop => rfl

theorem mapM {evaluate : β → Eval α} {run : β → Run α} (each : ∀ item, Gives machine (evaluate item) (run item))
    (items : List β) : Gives machine (items.mapM evaluate) (items.mapM run) := by
  induction items with
  | nil => rfl
  | cons item rest ih =>
    rw [List.mapM_cons, List.mapM_cons]
    exact (each item).bind fun value => ih.bind fun values => .pure _

theorem ends {Allowed : Fault → Prop} {Good : α → Prop} {outcome : Eval α} {action : Run α}
    (gives : Gives machine outcome action) (evaluates : Evaluates Allowed Good outcome) :
    Ends Allowed (fun value later => Good value ∧ later = machine) (action machine) := by
  rw [gives]
  exact .lift evaluates machine

theorem remaining {outcome : Eval α} {action : Run α} (gives : Gives machine outcome action) :
    remaining (action machine) = machine := by
  rw [gives]
  cases outcome with
  | ok value => rfl
  | error stop => rfl

end Gives

namespace Evaluation

variable {tree : Tree} {machine : Machine} {operand : ExprId → Eval Value} {run : ExprId → Run Value}
  (each : ∀ id, Gives machine (operand id) (run id))
include each

theorem integer_gives (id : ExprId) : Gives machine (integer tree operand id) (integer tree run id) := by
  refine (each id).bind fun value => ?_
  cases value with
  | int number => rfl
  | float _ | text _ | bool _ | matrix _ => exact .locate _ _

theorem bounds_gives (start stop : ExprId) :
    Gives machine (bounds tree operand start stop) (bounds tree run start stop) :=
  (integer_gives each start).bind fun _ => (integer_gives each stop).bind fun _ => .pure _

theorem selector_gives (id : ExprId) : Gives machine (selector tree operand id) (selector tree run id) := by
  unfold selector
  split
  · exact (bounds_gives each _ _).bind fun _ => .pure _
  · exact (integer_gives each id).bind fun _ => .pure _

theorem selectors_gives (ids : List ExprId) :
    Gives machine (selectors tree operand ids) (selectors tree run ids) :=
  .mapM (selector_gives each) ids

omit each in
theorem rowOf_gives (id : ExprId) (value : Value) : Gives machine (rowOf tree id value) (rowOf tree id value) := by
  cases value with
  | matrix row => exact .ite _ (.pure row) (.locate _ _)
  | int _ | float _ | text _ | bool _ => rfl

theorem arrayLiteral_gives (position : Position) (items : List ExprId) :
    Gives machine (arrayLiteral tree operand position items) (arrayLiteral tree run position items) := by
  refine (Gives.mapM each items).bind fun values => ?_
  cases values.mapM Value.element? with
  | some row => exact (Gives.locate position _).bind fun _ => .pure _
  | none =>
    refine (Gives.mapM (fun pair => rowOf_gives pair.1 pair.2) (items.zip values)).bind fun rows => ?_
    exact (Gives.locate position _).bind fun _ => .pure _

theorem dimension_gives (function : Builtin) (id : ExprId) :
    Gives machine (dimension tree operand function id) (dimension tree run function id) := by
  refine (each id).bind fun value => ?_
  cases value with
  | int size => exact .ite _ (.pure _) (.locate _ _)
  | float _ | text _ | bool _ | matrix _ => rfl

theorem builtin_gives (position : Position) (function : Builtin) (arguments : List ExprId) :
    Gives machine (builtin tree operand position function arguments)
      (builtin tree run position function arguments) := by
  refine (Gives.mapM (dimension_gives each function) arguments).bind fun dims => ?_
  split
  · exact (Gives.locate position _).bind fun _ => .pure _
  · exact (Gives.locate position _).bind fun _ => .pure _
  · exact .locate position _

theorem node_gives (expr : Expr) :
    Gives machine (node tree (fetch machine.memory) operand expr) (node tree Execution.readVariable run expr) := by
  obtain ⟨kind, span⟩ := expr
  cases kind with
  | int _ | float _ | text _ | range _ _ => rfl
  | array items => exact arrayLiteral_gives each _ items
  | name name =>
    -- the only node that looks into the memory
    have read : Gives machine (fetch machine.memory name) (Execution.readVariable name) := rfl
    refine read.bind fun found => ?_
    cases found with
    | some value => rfl
    | none => exact .locate _ _
  | indexed base indices =>
    exact (each base).bind fun _ => (selectors_gives each indices).bind fun _ => .locate _ _
  | linear left op right | elementwise left op right | compare left op right =>
    exact (each left).bind fun _ => (each right).bind fun _ => .locate _ _
  | negate inner | transpose inner => exact (each inner).bind fun _ => .locate _ _
  | builtin function arguments => exact builtin_gives each _ function arguments

omit each in
theorem valueWithin_gives (depth : Nat) (id : ExprId) :
    Gives machine (evaluateWithin tree machine.memory depth id)
      (valueWithin tree Execution.readVariable depth id) := by
  induction depth generalizing id with
  | zero => rfl
  | succ depth ih =>
    unfold evaluateWithin valueWithin
    cases tree.expr? id with
    | none => rfl
    | some expr => exact node_gives ih expr

end Evaluation

namespace Execution

variable {tree : Tree} {machine : Machine}

theorem valueOf_gives (id : ExprId) : Gives machine (evaluate tree machine.memory id) (valueOf tree id) :=
  Evaluation.valueWithin_gives _ id

theorem valuesOf_gives (ids : List ExprId) :
    Gives machine (ids.mapM (evaluate tree machine.memory)) (valuesOf tree ids) :=
  .mapM valueOf_gives ids

variable (tree)

theorem valueOf_readsOnly (id : ExprId) : ReadsOnly (valueOf tree id) :=
  fun _ => (valueOf_gives id).remaining.symm

theorem valuesOf_readsOnly (ids : List ExprId) : ReadsOnly (valuesOf tree ids) :=
  fun _ => (valuesOf_gives ids).remaining.symm

theorem selectors_readsOnly (ids : List ExprId) : ReadsOnly (Evaluation.selectors tree (valueOf tree) ids) :=
  fun _ => (Evaluation.selectors_gives valueOf_gives ids).remaining.symm

theorem locate_readsOnly {α : Type} (position : Position) (outcome : Except Fault α) :
    ReadsOnly (locate position outcome) :=
  fun _ => (Gives.locate position outcome).remaining.symm

theorem holds_readsOnly (condition : ExprId) : ReadsOnly (holds tree condition) := by
  apply Keeps.bind (valueOf_readsOnly tree condition)
  intro value
  cases value.truth? with
  | some truth => exact .pure truth
  | none => exact .throw _

theorem loopBounds_readsOnly (range : ExprId) : ReadsOnly (loopBounds tree range) := by
  unfold loopBounds
  split
  · exact fun _ => (Evaluation.bounds_gives valueOf_gives _ _).remaining.symm
  · exact .throw _

end Execution

end MatrixScript
