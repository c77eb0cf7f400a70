import Mathlib.Data.List.Induction
import MatrixScript.Proofs.Scope.Agreement

/-! Declarations and memory are one environment.

The checker keeps one table and lists of what each scope introduced, a run keeps a frame for each scope. Taken through
the same steps, both represent the same environment: every visible name belongs to the scope that introduced it and
stands for what was bound to it last.
-/

set_option autoImplicit false

namespace MatrixScript

inductive ScopeStep (γ : Type) where
  | enter (label : String)
  | leave
  | bind (name : String) (payload : γ)
  deriving DecidableEq, Repr

variable {γ : Type}

namespace ScopeStep

/-- The number of open scopes after a step. The outermost scope is never left. -/
def depthAfter (depth : Nat) : ScopeStep γ → Nat
  | enter _ => depth + 1
  | leave => max 1 (depth - 1)
  | bind _ _ => depth

def payloadFor? (name : String) : ScopeStep γ → Option γ
  | bind known payload => if known = name then some payload else none
  | enter _ | leave => none

end ScopeStep

def depthOf (history : List (ScopeStep γ)) : Nat := history.foldl ScopeStep.depthAfter 1

/-- A name was bound in a scope at most `depth` deep that has stayed open. -/
def BoundWithin (depth : Nat) (history : List (ScopeStep γ)) (name : String) : Prop :=
  ∃ before payload after, history = before ++ .bind name payload :: after ∧ depthOf before ≤ depth ∧
    ∀ front, front <+: after → depthOf before ≤ depthOf (before ++ .bind name payload :: front)

/-- What a name stands for after some steps: it was bound in a scope that has been open ever since, and this was bound
to it last. -/
structure Standing (history : List (ScopeStep γ)) (name : String) (payload : γ) : Prop where
  introduced : ∃ depth, BoundWithin depth history name
  last : (history.filterMap (ScopeStep.payloadFor? name)).getLast? = some payload

section

variable (history : List (ScopeStep γ)) (step : ScopeStep γ) (name : String)

@[simp] theorem depthOf_snoc : depthOf (history ++ [step]) = step.depthAfter (depthOf history) := by
  simp [depthOf]

theorem not_boundWithin_nil (depth : Nat) : ¬BoundWithin depth ([] : List (ScopeStep γ)) name := by
  rintro ⟨before, payload, after, same, _⟩
  simp at same

theorem boundWithin_snoc (depth : Nat) :
    BoundWithin depth (history ++ [step]) name ↔
      BoundWithin (min depth (depthOf (history ++ [step]))) history name ∨
        (step.payloadFor? name).isSome ∧ depthOf history ≤ depth := by
  constructor
  · rintro ⟨before, payload, after, same, small, opened⟩
    -- the binding is the last step, or it is in the history and the last step left it standing
    rcases List.eq_nil_or_concat after with rfl | ⟨after, last, rfl⟩
    · obtain ⟨rfl, last⟩ := List.append_inj' same rfl
      cases last
      exact .inr ⟨by simp [ScopeStep.payloadFor?], small⟩
    · rw [List.concat_eq_append, ← List.cons_append, ← List.append_assoc] at same
      obtain ⟨rfl, equal⟩ := List.append_inj' same rfl
      cases equal
      have whole := opened _ (List.prefix_refl _)
      rw [List.concat_eq_append, ← List.cons_append, ← List.append_assoc] at whole
      refine .inl ⟨before, payload, after, rfl, Nat.le_min.mpr ⟨small, whole⟩, fun front inside => opened front ?_⟩
      rw [List.concat_eq_append]
      exact inside.trans (List.prefix_append _ _)
  · rintro (⟨before, payload, after, rfl, small, opened⟩ | ⟨bound, small⟩)
    · have shallow := Nat.le_trans small (Nat.min_le_left _ _)
      refine ⟨before, payload, after ++ [step], by simp, shallow, fun front inside => ?_⟩
      rcases List.prefix_concat_iff.mp inside with rfl | inside
      · rw [← List.cons_append, ← List.append_assoc]
        exact Nat.le_trans small (Nat.min_le_right _ _)
      · exact opened front inside
    · cases step with
      | enter _ | leave => cases bound
      | bind known payload =>
        by_cases same : known = name
        · subst same
          refine ⟨history, payload, [], rfl, small, fun front inside => ?_⟩
          rw [List.prefix_nil.mp inside, depthOf_snoc]
          exact Nat.le_refl _
        · simp [ScopeStep.payloadFor?, same] at bound

end

/-- The labels of the scopes inside the outermost one, the innermost first, and for every visible name the depth of the
scope that introduced it and what was bound to it last. -/
@[ext] structure Environment (γ : Type) where
  labels : List String
  held : String → Option (Nat × γ)
  placed : ∀ name entry, held name = some entry → 1 ≤ entry.1 ∧ entry.1 ≤ labels.length + 1

namespace Environment

def start : Environment γ := ⟨[], fun _ => none, nofun⟩

variable (env : Environment γ)

def depth : Nat := env.labels.length + 1

/-- The depth of the scope that a name belongs to. A new name will belong to the innermost one. -/
def levelOf (name : String) : Nat := ((env.held name).map Prod.fst).getD env.depth

def heldAt (level : Nat) (name : String) : Option γ :=
  (env.held name).bind fun entry => if entry.1 = level then some entry.2 else none

theorem levelOf_placed (name : String) : 1 ≤ env.levelOf name ∧ env.levelOf name ≤ env.depth := by
  unfold levelOf
  cases found : env.held name with
  | none => simp [depth]
  | some entry => exact env.placed name entry found

def bind (name : String) (payload : γ) : Environment γ where
  labels := env.labels
  held other := if other = name then some (env.levelOf name, payload) else env.held other
  placed other entry found := by
    split at found
    · cases found
      exact env.levelOf_placed name
    · exact env.placed other entry found

def enter (label : String) : Environment γ where
  labels := label :: env.labels
  held := env.held
  placed name entry found := by
    have known := env.placed name entry found
    exact ⟨known.1, Nat.le_succ_of_le known.2⟩

def leave : Environment γ where
  labels := env.labels.tail
  held name := (env.held name).filter fun entry => entry.1 ≤ env.labels.tail.length + 1
  placed name entry found := by
    obtain ⟨found, small⟩ := Option.filter_eq_some_iff.mp found
    exact ⟨(env.placed name entry found).1, of_decide_eq_true small⟩

def follow (env : Environment γ) : ScopeStep γ → Environment γ
  | .enter label => env.enter label
  | .leave => env.leave
  | .bind name payload => env.bind name payload

def after (history : List (ScopeStep γ)) : Environment γ := history.foldl follow start

@[simp] theorem after_snoc (history : List (ScopeStep γ)) (step : ScopeStep γ) :
    after (history ++ [step]) = (after history).follow step := by
  simp [after]

theorem depth_follow (step : ScopeStep γ) : (env.follow step).depth = step.depthAfter env.depth := by
  cases step with
  | enter label => rfl
  | bind name payload => rfl
  | leave =>
    simp only [follow, leave, depth, ScopeStep.depthAfter, List.length_tail]
    omega

theorem depth_after (history : List (ScopeStep γ)) : (after history).depth = depthOf history := by
  induction history using List.reverseRecOn with
  | nil => rfl
  | append_singleton history step ih => rw [after_snoc, depth_follow, depthOf_snoc, ih]

theorem held_iff_boundWithin (history : List (ScopeStep γ)) (name : String) (limit : Nat) :
    (∃ entry, (after history).held name = some entry ∧ entry.1 ≤ limit) ↔ BoundWithin limit history name := by
  induction history using List.reverseRecOn generalizing limit with
  | nil => simp [after, start, not_boundWithin_nil]
  | append_singleton history step ih =>
    rw [boundWithin_snoc, ← ih, depthOf_snoc, ← depth_after, after_snoc]
    generalize after history = env
    have placed := env.placed name
    cases step with
    | enter label =>
      -- a new scope hides no name
      simp only [follow, enter, depth, ScopeStep.depthAfter, ScopeStep.payloadFor?]
      grind
    | leave =>
      -- what is forgotten belonged to a scope that is deeper than those still open
      simp only [follow, leave, depth, ScopeStep.depthAfter, ScopeStep.payloadFor?, Option.filter_eq_some_iff,
        decide_eq_true_eq, List.length_tail]
      grind
    | bind known payload =>
      -- a visible name keeps its scope, a new one belongs to the innermost
      simp only [follow, bind, levelOf, depth, ScopeStep.depthAfter, ScopeStep.payloadFor?]
      by_cases same : name = known
      · subst same
        cases found : env.held name with
        | none => simp
        | some entry => grind
      · have other : known ≠ name := fun equal => same equal.symm
        grind

theorem last_of_held {history : List (ScopeStep γ)} {name : String} {entry : Nat × γ}
    (found : (after history).held name = some entry) :
    (history.filterMap (ScopeStep.payloadFor? name)).getLast? = some entry.2 := by
  induction history using List.reverseRecOn generalizing entry with
  | nil => cases found
  | append_singleton history step ih =>
    rw [after_snoc] at found
    rw [List.filterMap_append]
    cases step with
    | enter label => simpa [ScopeStep.payloadFor?] using ih found
    | leave =>
      -- a name may be forgotten here, but none is bound to something else
      obtain ⟨found, _⟩ := Option.filter_eq_some_iff.mp found
      simpa [ScopeStep.payloadFor?] using ih found
    | bind known payload =>
      simp only [follow, bind] at found
      by_cases same : name = known
      · rw [if_pos same] at found
        cases found
        simp [ScopeStep.payloadFor?, same]
      · rw [if_neg same] at found
        have other : known ≠ name := fun equal => same equal.symm
        simpa [ScopeStep.payloadFor?, other] using ih found

theorem standing_iff (history : List (ScopeStep γ)) (name : String) (payload : γ) :
    Standing history name payload ↔ ((after history).held name).map Prod.snd = some payload := by
  constructor
  · rintro ⟨⟨depth, bound⟩, last⟩
    obtain ⟨entry, found, _⟩ := (held_iff_boundWithin history name depth).mpr bound
    rw [found, ← last, last_of_held found]
    rfl
  · intro held
    obtain ⟨entry, found, rfl⟩ := Option.map_eq_some_iff.mp held
    exact ⟨⟨entry.1, (held_iff_boundWithin history name entry.1).mp ⟨entry, found, Nat.le_refl _⟩⟩, last_of_held found⟩

end Environment

end MatrixScript
