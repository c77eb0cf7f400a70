import Mathlib.Data.List.Forall2
import Mathlib.Order.Defs.Unbundled
import MatrixScript.Evaluation.Statement

/-! What is said about the outcome of an evaluation or of a run.

A postcondition describes the result when there is one, and a set of faults those that may end it instead. An
expression always has an outcome. A run may also need more steps than it was given.
-/

set_option autoImplicit false

namespace MatrixScript

def Execution.lift {α : Type} : Eval α → Run α
  | .ok value => pure value
  | .error stop => throw stop

theorem Execution.bind_apply {α β : Type} (action : Run α) (next : α → Run β) (machine : Machine) :
    (action >>= next) machine =
      match action machine with
      | .ok value later => next value later
      | .error stop later => .error stop later := by
  show EStateM.bind action next machine = _
  unfold EStateM.bind
  cases action machine with
  | ok value later => rfl
  | error stop later => rfl

/-- A computation that may stop with a fault gives a good result or an allowed fault. -/
def Checked {α : Type} (Allowed : Fault → Prop) (Good : α → Prop) : Except Fault α → Prop
  | .ok value => Good value
  | .error fault => Allowed fault

/-- An evaluation gives a good value or an allowed fault. It does not run out of nodes. -/
def Evaluates {α : Type} (Allowed : Fault → Prop) (Good : α → Prop) : Eval α → Prop
  | .ok value => Good value
  | .error (.failed failure) => Allowed failure.fault
  | .error .unfinished => False

/-- A run ends well, with an allowed fault, or not within its steps. -/
def Ends {α : Type} (Allowed : Fault → Prop) (Good : α → Machine → Prop) : EStateM.Result Stop Machine α → Prop
  | .ok value machine => Good value machine
  | .error (.failed failure) _ => Allowed failure.fault
  | .error .unfinished _ => True

variable {α β : Type} {Allowed Wider Other : Fault → Prop}

namespace Checked

variable {Good Better : α → Prop}

theorem mono {outcome : Except Fault α} (checked : Checked Allowed Good outcome)
    (better : ∀ value, Good value → Better value) : Checked Allowed Better outcome := by
  cases outcome with
  | ok value => exact better value checked
  | error fault => exact checked

theorem widen {outcome : Except Fault α} (checked : Checked Allowed Good outcome)
    (wider : ∀ fault, Allowed fault → Wider fault) : Checked Wider Good outcome := by
  cases outcome with
  | ok value => exact checked
  | error fault => exact wider fault checked

theorem both {outcome : Except Fault α} (checked : Checked Allowed Good outcome)
    (other : Checked Other (fun _ => True) outcome) :
    Checked (fun fault => Allowed fault ∧ Other fault) Good outcome := by
  cases outcome with
  | ok value => exact checked
  | error fault => exact ⟨checked, other⟩

theorem bind {outcome : Except Fault α} {next : α → Except Fault β} {Last : β → Prop}
    (checked : Checked Allowed Good outcome) (rest : ∀ value, Good value → Checked Allowed Last (next value)) :
    Checked Allowed Last (outcome >>= next) := by
  cases outcome with
  | ok value => exact rest value checked
  | error fault => exact checked

theorem map {outcome : Except Fault α} {f : α → β} {Last : β → Prop}
    (checked : Checked Allowed (fun value => Last (f value)) outcome) : Checked Allowed Last (outcome.map f) := by
  cases outcome with
  | ok value => exact checked
  | error fault => exact checked

end Checked

namespace Evaluates

variable {Good Better : α → Prop}

theorem mono {outcome : Eval α} (evaluates : Evaluates Allowed Good outcome)
    (better : ∀ value, Good value → Better value) : Evaluates Allowed Better outcome := by
  cases outcome with
  | ok value => exact better value evaluates
  | error stop =>
    cases stop with
    | failed failure => exact evaluates
    | unfinished => exact evaluates

theorem widen {outcome : Eval α} (evaluates : Evaluates Allowed Good outcome)
    (wider : ∀ fault, Allowed fault → Wider fault) : Evaluates Wider Good outcome := by
  cases outcome with
  | ok value => exact evaluates
  | error stop =>
    cases stop with
    | failed failure => exact wider _ evaluates
    | unfinished => exact evaluates

theorem both {outcome : Eval α} (evaluates : Evaluates Allowed Good outcome)
    (other : Evaluates Other (fun _ => True) outcome) :
    Evaluates (fun fault => Allowed fault ∧ Other fault) Good outcome := by
  cases outcome with
  | ok value => exact evaluates
  | error stop =>
    cases stop with
    | failed failure => exact ⟨evaluates, other⟩
    | unfinished => exact evaluates

theorem bind {outcome : Eval α} {next : α → Eval β} {Last : β → Prop} (evaluates : Evaluates Allowed Good outcome)
    (rest : ∀ value, Good value → Evaluates Allowed Last (next value)) :
    Evaluates Allowed Last (outcome >>= next) := by
  cases outcome with
  | ok value => exact rest value evaluates
  | error stop =>
    cases stop with
    | failed failure => exact evaluates
    | unfinished => exact evaluates

theorem locate {outcome : Except Fault α} (checked : Checked Allowed Good outcome) (position : Position) :
    Evaluates Allowed Good (locate position outcome) := by
  cases outcome with
  | ok value => exact checked
  | error fault => exact checked

theorem mapM {γ : Type} {Each : γ → β → Prop} {items : List γ} {f : γ → Eval β}
    (each : ∀ item ∈ items, Evaluates Allowed (Each item) (f item)) :
    Evaluates Allowed (List.Forall₂ Each items) (items.mapM f) := by
  induction items with
  | nil => exact List.Forall₂.nil
  | cons item rest ih =>
    rw [List.mapM_cons]
    refine (each item List.mem_cons_self).bind fun value good => ?_
    refine (ih fun other member => each other (List.mem_cons_of_mem _ member)).bind fun values goods => ?_
    exact List.Forall₂.cons good goods

end Evaluates

/-- Whenever the first evaluation gives a value, the second gives it too. -/
def Refines {α : Type} (first second : Eval α) : Prop := ∀ value, first = .ok value → second = .ok value

namespace Refines

theorem refl (outcome : Eval α) : Refines outcome outcome := fun _ same => same

theorem bind {first second : Eval α} {next next' : α → Eval β} (refines : Refines first second)
    (rest : ∀ value, Refines (next value) (next' value)) : Refines (first >>= next) (second >>= next') := by
  intro result done
  cases outcome : first with
  | ok value =>
    rw [refines value outcome]
    rw [outcome] at done
    exact rest value result done
  | error stop =>
    rw [outcome] at done
    cases done

theorem mapM {γ : Type} {f g : γ → Eval β} (each : ∀ item, Refines (f item) (g item)) (items : List γ) :
    Refines (items.mapM f) (items.mapM g) := by
  induction items with
  | nil => exact refl _
  | cons item rest ih =>
    rw [List.mapM_cons, List.mapM_cons]
    exact (each item).bind fun _ => ih.bind fun _ => refl _

end Refines

namespace Ends

variable {Good Better : α → Machine → Prop}

theorem mono {outcome : EStateM.Result Stop Machine α} (ends : Ends Allowed Good outcome)
    (better : ∀ value machine, Good value machine → Better value machine) : Ends Allowed Better outcome := by
  cases outcome with
  | ok value machine => exact better value machine ends
  | error stop machine =>
    cases stop with
    | failed failure => exact ends
    | unfinished => trivial

theorem both {outcome : EStateM.Result Stop Machine α} (ends : Ends Allowed Good outcome)
    (other : Ends Other (fun _ _ => True) outcome) : Ends (fun fault => Allowed fault ∧ Other fault) Good outcome := by
  cases outcome with
  | ok value machine => exact ends
  | error stop machine =>
    cases stop with
    | failed failure => exact ⟨ends, other⟩
    | unfinished => trivial

theorem bind {action : Run α} {next : α → Run β} {Last : β → Machine → Prop} {machine : Machine}
    (ends : Ends Allowed Good (action machine))
    (rest : ∀ value later, Good value later → Ends Allowed Last (next value later)) :
    Ends Allowed Last ((action >>= next) machine) := by
  rw [Execution.bind_apply]
  cases outcome : action machine with
  | ok value later =>
    rw [outcome] at ends
    exact rest value later ends
  | error stop later =>
    rw [outcome] at ends
    cases stop with
    | failed failure => exact ends
    | unfinished => trivial

theorem lift {outcome : Eval α} {Value : α → Prop} (evaluates : Evaluates Allowed Value outcome)
    (machine : Machine) :
    Ends Allowed (fun value later => Value value ∧ later = machine) (Execution.lift outcome machine) := by
  cases outcome with
  | ok value => exact ⟨evaluates, rfl⟩
  | error stop =>
    cases stop with
    | failed failure => exact evaluates
    | unfinished => trivial

theorem inScope {label : String} {body : Run α} {machine : Machine}
    (ends : Ends Allowed (fun value later => Good value { later with memory := later.memory.exit.2 })
      (body { machine with memory := machine.memory.enter label })) :
    Ends Allowed Good (Execution.inScope label body machine) := by
  unfold Execution.inScope
  cases outcome : body { machine with memory := machine.memory.enter label } with
  | ok value later =>
    rw [outcome] at ends
    exact ends
  | error stop later =>
    rw [outcome] at ends
    cases stop with
    | failed failure => exact ends
    | unfinished => trivial

end Ends

def remaining {α : Type} : EStateM.Result Stop Machine α → Machine
  | .ok _ machine => machine
  | .error _ machine => machine

/-- However the action ends, the machine it leaves behind stands so to the one it found. -/
def Keeps (R : Machine → Machine → Prop) (action : Run α) : Prop :=
  ∀ machine, R machine (remaining (action machine))

abbrev ReadsOnly (action : Run α) : Prop := Keeps Eq action

namespace Keeps

variable {R : Machine → Machine → Prop} {action : Run α} {next : α → Run β}

theorem mono {S : Machine → Machine → Prop} (keeps : Keeps R action)
    (weaker : ∀ before after, R before after → S before after) : Keeps S action :=
  fun machine => weaker _ _ (keeps machine)

theorem pure [Std.Refl R] (value : α) : Keeps R (pure value) := fun machine => refl_of R machine

theorem throw [Std.Refl R] (stop : Stop) : Keeps R (throw stop : Run α) := fun machine => refl_of R machine

theorem bind [IsTrans Machine R] (first : Keeps R action) (second : ∀ value, Keeps R (next value)) :
    Keeps R (action >>= next) := by
  intro machine
  have before := first machine
  rw [Execution.bind_apply]
  cases outcome : action machine with
  | ok value later =>
    rw [outcome] at before
    exact trans_of R before (second value later)
  | error stop later =>
    rw [outcome] at before
    exact before

end Keeps

theorem ReadsOnly.bind_cases {action : Run α} (reads : ReadsOnly action) (next : α → Run β) (machine : Machine) :
    (∃ value, (action >>= next) machine = next value machine) ∨
      ∃ stop, (action >>= next) machine = .error stop machine := by
  have same := reads machine
  rw [Execution.bind_apply]
  cases outcome : action machine with
  | ok value later =>
    rw [outcome] at same
    cases same
    exact .inl ⟨value, rfl⟩
  | error stop later =>
    rw [outcome] at same
    cases same
    exact .inr ⟨stop, rfl⟩

theorem Keeps.after_reading {R : Machine → Machine → Prop} [Std.Refl R] {action : Run α} {next : α → Run β}
    (reads : ReadsOnly action) (rest : ∀ value, Keeps R (next value)) : Keeps R (action >>= next) := by
  intro machine
  rcases reads.bind_cases next machine with ⟨value, same⟩ | ⟨stop, same⟩
  · rw [same]
    exact rest value machine
  · rw [same]
    exact refl_of R machine

end MatrixScript
