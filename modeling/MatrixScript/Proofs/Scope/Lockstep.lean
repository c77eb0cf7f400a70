import MatrixScript.Proofs.Scope.Environment

/-! The table of the checker and the frames of a run in lockstep.

Each of the two has an invariant of its own. What the scopes introduced, level by level, is what belongs to the levels
of the environment, and so is what the frames hold. Every step keeps both.
-/

set_option autoImplicit false

namespace MatrixScript

variable {α β γ : Type}

namespace Environment

variable (env : Environment γ)

theorem heldAt_isSome {level : Nat} {name : String} :
    (env.heldAt level name).isSome ↔ ∃ payload, env.held name = some (level, payload) := by
  unfold heldAt
  cases env.held name with
  | none => simp
  | some entry =>
    obtain ⟨introduced, payload⟩ := entry
    by_cases same : introduced = level <;> simp [same]

theorem held_leave_none {name : String} (found : env.held name = none) : env.leave.held name = none := by
  simp [leave, found]

theorem held_leave_kept {name : String} {entry : Nat × γ} (found : env.held name = some entry)
    (shallow : entry.1 ≤ env.labels.tail.length + 1) : env.leave.held name = some entry := by
  simp only [leave, found]
  exact Option.filter_eq_some_iff.mpr ⟨rfl, decide_eq_true shallow⟩

theorem held_leave_gone {name : String} {entry : Nat × γ} (found : env.held name = some entry)
    (deep : env.labels.tail.length + 1 < entry.1) : env.leave.held name = none := by
  simp only [leave, found, Option.filter_eq_none_iff]
  rintro _ ⟨⟩ small
  exact Nat.not_le_of_lt deep (of_decide_eq_true small)

theorem heldAt_leave {level : Nat} (small : level ≤ env.labels.tail.length + 1) (name : String) :
    env.leave.heldAt level name = env.heldAt level name := by
  cases found : env.held name with
  | none => simp [heldAt, found, env.held_leave_none found]
  | some entry =>
    by_cases shallow : entry.1 ≤ env.labels.tail.length + 1
    · simp [heldAt, found, env.held_leave_kept found shallow]
    · have deep := Nat.lt_of_not_le shallow
      have other : entry.1 ≠ level := by omega
      simp [heldAt, found, env.held_leave_gone found deep, other]

theorem heldAt_bind (known : String) (payload : γ) (level : Nat) (name : String) :
    (env.bind known payload).heldAt level name =
      if name = known then if env.levelOf known = level then some payload else none
      else env.heldAt level name := by
  unfold heldAt bind
  by_cases same : name = known <;> simp [same]

theorem heldAt_beyond {level : Nat} (beyond : env.depth < level) (name : String) : env.heldAt level name = none := by
  unfold heldAt
  cases found : env.held name with
  | none => rfl
  | some entry =>
    have small := (env.placed name entry found).2
    have other : entry.1 ≠ level := fun same => by
      unfold depth at beyond
      omega
    simp [other]

theorem levelOf_eq {name : String} {entry : Nat × γ} (found : env.held name = some entry) :
    env.levelOf name = entry.1 := by
  simp [levelOf, found]

theorem heldAt_bind_elsewhere {known : String} {level : Nat} (elsewhere : env.levelOf known ≠ level) (payload : γ)
    (name : String) : (env.bind known payload).heldAt level name = env.heldAt level name := by
  rw [env.heldAt_bind]
  by_cases same : name = known
  · subst same
    rw [if_pos rfl, if_neg elsewhere, heldAt]
    cases found : env.held name with
    | none => rfl
    | some entry =>
      rw [env.levelOf_eq found] at elsewhere
      simp [elsewhere]
  · rw [if_neg same]

theorem levelOf_new {name : String} (found : env.held name = none) : env.levelOf name = env.depth := by
  simp [levelOf, found]

theorem leave_outermost (none : env.labels = []) : env.leave = env := by
  have held : env.leave.held = env.held := by
    funext name
    cases found : env.held name with
    | none => exact env.held_leave_none found
    | some entry =>
      have placed := (env.placed name entry found).2
      exact env.held_leave_kept found (by simpa [none] using placed)
  have labels : env.leave.labels = env.labels := by simp [leave, none]
  exact Environment.ext labels held

theorem labels_outermost {label outermost : String} (same : [label] = env.labels ++ [outermost]) :
    env.labels = [] := by
  have count := congrArg List.length same
  simpa using count.symm

theorem labels_inner {label outermost : String} {others : List String}
    (same : label :: others = env.labels ++ [outermost]) (inner : others ≠ []) :
    env.labels.head? = some label ∧ others = env.labels.tail ++ [outermost] := by
  cases known : env.labels with
  | nil =>
    rw [known] at same
    exact absurd (List.cons.inj same).2 inner
  | cons first rest =>
    rw [known] at same
    obtain ⟨rfl, rfl⟩ := List.cons.inj same
    exact ⟨rfl, rfl⟩

end Environment

/-- Level by level, the names that a scope introduced are those that belong to it. -/
def Introduced (env : Environment γ) : List Introductions → Prop
  | [] => True
  | scope :: outer =>
    (∀ name, name ∈ scope.names ↔ (env.heldAt (outer.length + 1) name).isSome) ∧ Introduced env outer

theorem Introduced.congr {env later : Environment γ} {scopes : List Introductions} (introduced : Introduced env scopes)
    (same : ∀ level name, level ≤ scopes.length → (later.heldAt level name).isSome = (env.heldAt level name).isSome) :
    Introduced later scopes := by
  induction scopes with
  | nil => trivial
  | cons scope outer ih =>
    refine ⟨fun name => ?_, ih introduced.2 fun level name below => same level name (Nat.le_succ_of_le below)⟩
    rw [introduced.1 name, same (outer.length + 1) name (Nat.le_refl _)]

/-- The declarations stand for an environment, of whose payloads they keep a part. -/
structure Declarations.Represents (view : γ → β) (declared : Declarations β) (env : Environment γ) : Prop where
  labels : declared.scopes.map (·.label) = env.labels ++ ["program"]
  lookup : ∀ name, declared.lookup? name = (env.held name).map fun entry => view entry.2
  introduced : Introduced env declared.scopes

namespace Declarations.Represents

variable {view : γ → β} {declared : Declarations β} {env : Environment γ}

theorem start : (Declarations.start : Declarations β).Represents view .start where
  labels := rfl
  lookup _ := rfl
  introduced := ⟨fun _ => ⟨fun member => (nomatch member), fun held => (nomatch held)⟩, trivial⟩

theorem outer_length (represents : declared.Represents view env) : declared.outer.length = env.labels.length := by
  have count := congrArg List.length represents.labels
  simpa [scopes] using count

theorem push (represents : declared.Represents view env) (label : String) :
    (declared.push label).Represents view (env.enter label) where
  labels := congrArg (label :: ·) represents.labels
  lookup := represents.lookup
  introduced := by
    refine ⟨fun name => ?_, represents.introduced.congr fun _ _ _ => rfl⟩
    have beyond : env.depth < declared.scopes.length + 1 := by
      simp [Environment.depth, scopes, represents.outer_length]
    change name ∈ [] ↔ (env.heldAt (declared.scopes.length + 1) name).isSome
    simp [env.heldAt_beyond beyond name]

theorem declare (represents : declared.Represents view env) (name : String) (payload : γ) :
    (declared.declare name (view payload)).Represents view (env.bind name payload) := by
  have lookup (other : String) : (declared.declare name (view payload)).lookup? other =
      ((env.bind name payload).held other).map fun entry => view entry.2 := by
    rw [lookup?_declare, represents.lookup]
    by_cases same : other = name <;> simp [Environment.bind, same]
  cases found : env.held name with
  | some entry =>
    -- a visible name stays where it was introduced
    have known : declared.lookup? name = some (view entry.2) := by simp [represents.lookup, found]
    have scopes : (declared.declare name (view payload)).scopes = declared.scopes := by
      simp [Declarations.scopes, Declarations.declare, known]
    refine ⟨scopes ▸ represents.labels, lookup, ?_⟩
    rw [scopes]
    refine represents.introduced.congr fun level other _ => ?_
    rw [env.heldAt_bind, env.levelOf_eq found]
    by_cases same : other = name
    · simp only [same, if_true, Environment.heldAt, found, Option.bind_some]
      split <;> rfl
    · rw [if_neg same]
  | none =>
    -- a new name belongs to the innermost scope
    have new : declared.lookup? name = none := by simp [represents.lookup, found]
    have innermost : (declared.declare name (view payload)).scopes =
        { declared.innermost with names := name :: declared.innermost.names } :: declared.outer := by
      simp [Declarations.scopes, Declarations.declare, new]
    have level : env.levelOf name = declared.outer.length + 1 := by
      rw [env.levelOf_new found, Environment.depth, represents.outer_length]
    refine ⟨?_, lookup, ?_⟩
    · rw [innermost]
      exact represents.labels
    · rw [innermost]
      refine ⟨fun other => ?_, represents.introduced.2.congr fun place other below => ?_⟩
      · rw [List.mem_cons, represents.introduced.1 other, env.heldAt_bind, level]
        by_cases same : other = name <;> simp [same]
      · rw [env.heldAt_bind_elsewhere (by omega)]

theorem pop_label (represents : declared.Represents view env) : declared.pop.1 = env.labels.head? := by
  have labels := represents.labels
  unfold Declarations.scopes at labels
  unfold Declarations.pop
  cases outer : declared.outer with
  | nil =>
    rw [outer] at labels
    simp [env.labels_outermost labels]
  | cons next rest => exact (env.labels_inner labels (by simp [outer])).1.symm

theorem pop (represents : declared.Represents view env) : declared.pop.2.Represents view env.leave := by
  have labels := represents.labels
  unfold Declarations.scopes at labels
  cases outer : declared.outer with
  | nil =>
    rw [outer] at labels
    have same : declared.pop.2 = declared := by simp [Declarations.pop, outer]
    rw [same, env.leave_outermost (env.labels_outermost labels)]
    exact represents
  | cons next rest =>
    have scopes := declared.scopes_pop outer
    have tail := (env.labels_inner labels (by simp [outer])).2
    have inner : declared.outer.length = env.labels.tail.length + 1 := by
      simpa using congrArg List.length tail
    refine ⟨scopes ▸ tail, fun name => ?_, ?_⟩
    · -- what the innermost scope introduced is exactly what lies too deep now
      rw [declared.lookup?_pop outer, outside?, represents.lookup]
      have own := represents.introduced.1 name
      rw [env.heldAt_isSome] at own
      cases found : env.held name with
      | none => simp [env.held_leave_none found]
      | some entry =>
        have placed := (env.placed name entry found).2
        rw [← represents.outer_length] at placed
        by_cases here : name ∈ declared.innermost.names
        · obtain ⟨payload, held⟩ := own.mp here
          cases held.symm.trans found
          simp [env.held_leave_gone found (by omega), here]
        · have shallow : entry.1 ≠ declared.outer.length + 1 := by
            rintro deep
            exact here (own.mpr ⟨entry.2, by rw [← deep, found]⟩)
          simp [env.held_leave_kept found (by omega), here]
    · rw [scopes]
      refine represents.introduced.2.congr fun level name below => ?_
      rw [env.heldAt_leave (inner ▸ below)]

end Declarations.Represents

namespace Frame

/-- Level by level, a frame holds what belongs to it. -/
def Hold (view : γ → α) (env : Environment γ) : List (Frame α) → Prop
  | [] => True
  | frame :: outer =>
    (∀ name, frame.read? name = (env.heldAt (outer.length + 1) name).map view) ∧ Hold view env outer

namespace Hold

variable {view : γ → α} {env : Environment γ} {frames : List (Frame α)}

theorem congr {later : Environment γ} (hold : Hold view env frames)
    (same : ∀ level name, level ≤ frames.length → later.heldAt level name = env.heldAt level name) :
    Hold view later frames := by
  induction frames with
  | nil => trivial
  | cons frame outer ih =>
    refine ⟨fun name => ?_, ih hold.2 fun level name below => same level name (Nat.le_succ_of_le below)⟩
    rw [hold.1 name, same (outer.length + 1) name (Nat.le_refl _)]

theorem readFirst?_eq (hold : Hold view env frames) (name : String) :
    readFirst? frames name = ((env.held name).filter (·.1 ≤ frames.length)).map fun entry => view entry.2 := by
  induction frames with
  | nil =>
    cases found : env.held name with
    | none => rfl
    | some entry =>
      have placed := (env.placed name entry found).1
      have outside : ¬entry.1 ≤ 0 := by omega
      simp [readFirst?, Option.filter, outside]
  | cons frame outer ih =>
    rw [readFirst?_cons, hold.1 name, ih hold.2, Environment.heldAt]
    cases env.held name with
    | none => rfl
    | some entry =>
      by_cases here : entry.1 = outer.length + 1
      · simp [Option.filter, here]
      · have either : entry.1 ≤ outer.length + 1 ↔ entry.1 ≤ outer.length := by omega
        simp [Option.filter, here, either]

theorem changed (hold : Hold view env frames) {name : String} {entry : Nat × γ} (found : env.held name = some entry)
    {payload : γ} {changed : List (Frame α)} (change : Changed name (view payload) frames changed) :
    Hold view (env.bind name payload) changed := by
  have level := env.levelOf_eq found
  induction change with
  | @here frame replaced outer inner =>
    -- a frame that has the name is the frame of its level
    have own := hold.1 name
    simp only [Environment.heldAt, found, Option.bind_some] at own
    have here : entry.1 = outer.length + 1 := by
      by_contra away
      rw [if_neg away] at own
      rw [replace?_eq_none.mpr own] at inner
      cases inner
    refine ⟨fun other => ?_, hold.2.congr fun place other below => ?_⟩
    · rw [read?_replace? inner, hold.1 other, env.heldAt_bind, level, here]
      by_cases same : other = name <;> simp [same]
    · exact env.heldAt_bind_elsewhere (by omega) payload other
  | @outer frame outer rest absent change ih =>
    -- the name is held further out, so nothing of this level changes
    have own := hold.1 name
    simp only [Environment.heldAt, found, Option.bind_some] at own
    have same : rest.length = outer.length := by simpa using congrArg List.length change.names
    have away : entry.1 ≠ outer.length + 1 := by
      intro here
      rw [if_pos here, absent] at own
      cases own
    refine ⟨fun other => ?_, ih hold.2⟩
    rw [hold.1 other, same, env.heldAt_bind_elsewhere (level ▸ away)]

/-- A name belongs to one level, so it lives in one frame at most. -/
theorem countP_names (hold : Hold view env frames) (name : String) :
    frames.countP (fun frame => name ∈ frame.names) ≤ 1 := by
  induction frames with
  | nil => simp
  | cons frame outer ih =>
    by_cases here : name ∈ frame.names
    · -- the other frames have only what lies less deep
      have elsewhere : outer.countP (fun frame => name ∈ frame.names) = 0 := by
        rw [mem_names, hold.1 name, Option.isSome_map, env.heldAt_isSome] at here
        obtain ⟨payload, found⟩ := here
        have absent : readFirst? outer name = none := by
          simp [hold.2.readFirst?_eq, found, Option.filter]
        rw [List.countP_eq_zero]
        intro other member bound
        have visible : (readFirst? outer name).isSome :=
          readFirst?_isSome.mpr (List.mem_flatMap.mpr ⟨other, member, of_decide_eq_true bound⟩)
        rw [absent] at visible
        cases visible
      simp [here, elsewhere]
    · simpa [here] using ih hold.2

end Hold

end Frame

structure Memory.Represents (view : γ → α) (memory : Memory α) (env : Environment γ) : Prop where
  labels : memory.frames.map (·.label) = env.labels ++ ["global"]
  hold : Frame.Hold view env memory.frames

namespace Memory.Represents

variable {view : γ → α} {memory : Memory α} {env : Environment γ}

theorem start : (Memory.start : Memory α).Represents view .start where
  labels := rfl
  hold := ⟨fun _ => rfl, trivial⟩

theorem outer_length (represents : memory.Represents view env) : memory.outer.length = env.labels.length := by
  have count := congrArg List.length represents.labels
  simpa [frames] using count

theorem read? (represents : memory.Represents view env) (name : String) :
    memory.read? name = (env.held name).map fun entry => view entry.2 := by
  rw [memory.read?_eq, represents.hold.readFirst?_eq]
  cases found : env.held name with
  | none => rfl
  | some entry =>
    have placed := (env.placed name entry found).2
    rw [← represents.outer_length] at placed
    simp [Option.filter, frames, placed]

theorem enter (represents : memory.Represents view env) (label : String) :
    (memory.enter label).Represents view (env.enter label) where
  labels := congrArg (label :: ·) represents.labels
  hold := by
    refine ⟨fun name => ?_, represents.hold.congr fun _ _ _ => rfl⟩
    have beyond : env.depth < memory.frames.length + 1 := by
      simp [Environment.depth, frames, represents.outer_length]
    change none = (env.heldAt (memory.frames.length + 1) name).map view
    rw [env.heldAt_beyond beyond name]
    rfl

theorem bind (represents : memory.Represents view env) (name : String) (payload : γ) :
    (memory.bind name (view payload)).Represents view (env.bind name payload) := by
  refine ⟨(memory.labels_bind name (view payload)).trans represents.labels, ?_⟩
  have visible := represents.read? name
  cases done : Frame.replaceFirst? name (view payload) memory.frames with
  | some changed =>
    rw [memory.frames_bind_of_some done]
    cases found : env.held name with
    | some entry => exact represents.hold.changed found (Frame.changed_of_replaceFirst? done)
    | none =>
      rw [found, memory.read?_eq, Option.map_none, ← Frame.replaceFirst?_eq_none, done] at visible
      cases visible
  | none =>
    -- no frame has the name, so it goes where new names belong
    rw [memory.frames_bind_of_none done]
    have found : env.held name = none := by
      rw [memory.read?_eq, Frame.replaceFirst?_eq_none.mp done] at visible
      exact Option.map_eq_none_iff.mp visible.symm
    have level : env.levelOf name = memory.outer.length + 1 := by
      rw [env.levelOf_new found, Environment.depth, represents.outer_length]
    refine ⟨fun other => ?_, represents.hold.2.congr fun place other below => ?_⟩
    · rw [Frame.read?_insert, represents.hold.1 other, env.heldAt_bind, level]
      by_cases same : other = name <;> simp [same]
    · exact env.heldAt_bind_elsewhere (by omega) payload other

theorem exit_label (represents : memory.Represents view env) : memory.exit.1 = env.labels.head? := by
  have labels := represents.labels
  unfold Memory.frames at labels
  unfold Memory.exit
  cases outer : memory.outer with
  | nil =>
    rw [outer] at labels
    simp [env.labels_outermost labels]
  | cons next rest => exact (env.labels_inner labels (by simp [outer])).1.symm

theorem exit (represents : memory.Represents view env) : memory.exit.2.Represents view env.leave := by
  have labels := represents.labels
  unfold Memory.frames at labels
  cases outer : memory.outer with
  | nil =>
    rw [outer] at labels
    have same : memory.exit.2 = memory := by simp [Memory.exit, outer]
    rw [same, env.leave_outermost (env.labels_outermost labels)]
    exact represents
  | cons next rest =>
    have frames := memory.frames_exit outer
    have tail := (env.labels_inner labels (by simp [outer])).2
    have inner : memory.outer.length = env.labels.tail.length + 1 := by
      simpa using congrArg List.length tail
    refine ⟨frames ▸ tail, ?_⟩
    rw [frames]
    exact represents.hold.2.congr fun level name below => env.heldAt_leave (inner ▸ below) name

end Memory.Represents

def Declarations.follow (view : γ → β) (declared : Declarations β) : ScopeStep γ → Declarations β
  | .enter label => declared.push label
  | .leave => declared.pop.2
  | .bind name payload => declared.declare name (view payload)

def Declarations.after (view : γ → β) (history : List (ScopeStep γ)) : Declarations β :=
  history.foldl (follow view) start

def Memory.follow (view : γ → α) (memory : Memory α) : ScopeStep γ → Memory α
  | .enter label => memory.enter label
  | .leave => memory.exit.2
  | .bind name payload => memory.bind name (view payload)

def Memory.after (view : γ → α) (history : List (ScopeStep γ)) : Memory α :=
  history.foldl (follow view) start

theorem Declarations.Represents.follow {view : γ → β} {declared : Declarations β} {env : Environment γ}
    (represents : declared.Represents view env) (step : ScopeStep γ) :
    (declared.follow view step).Represents view (env.follow step) := by
  cases step with
  | enter label => exact represents.push label
  | leave => exact represents.pop
  | bind name payload => exact represents.declare name payload

theorem Memory.Represents.follow {view : γ → α} {memory : Memory α} {env : Environment γ}
    (represents : memory.Represents view env) (step : ScopeStep γ) :
    (memory.follow view step).Represents view (env.follow step) := by
  cases step with
  | enter label => exact represents.enter label
  | leave => exact represents.exit
  | bind name payload => exact represents.bind name payload

theorem Declarations.after_represents (view : γ → β) (history : List (ScopeStep γ)) :
    (after view history).Represents view (.after history) := by
  induction history using List.reverseRecOn with
  | nil => exact .start
  | append_singleton history step ih =>
    simp only [after, Environment.after, List.foldl_append, List.foldl_cons, List.foldl_nil]
    exact ih.follow step

theorem Memory.after_represents (view : γ → α) (history : List (ScopeStep γ)) :
    (after view history).Represents view (.after history) := by
  induction history using List.reverseRecOn with
  | nil => exact .start
  | append_singleton history step ih =>
    simp only [after, Environment.after, List.foldl_append, List.foldl_cons, List.foldl_nil]
    exact ih.follow step

/-- The table of the checker and the frames of a run, after the same steps, are one environment. -/
structure Lockstep (history : List (ScopeStep (β × α))) (declared : Declarations β) (memory : Memory α) : Prop where
  depth : declared.depth = depthOf history ∧ memory.depth = depthOf history
  visible : ∀ name, (declared.lookup? name).isSome = (memory.read? name).isSome
  payloads : ∀ name producer value, Standing history name (producer, value) ↔
    declared.lookup? name = some producer ∧ memory.read? name = some value
  left : declared.pop.1 = memory.exit.1
  outermost : memory.exit.1 = none ↔ depthOf history = 1
  single : ∀ name, memory.frames.countP (fun frame => name ∈ frame.names) ≤ 1

/-- The checker and a run agree on what every name stands for, after any steps through the scopes of a program. -/
theorem declarations_memory_lockstep (history : List (ScopeStep (β × α))) :
    Lockstep history (.after Prod.fst history) (.after Prod.snd history) := by
  have declared := Declarations.after_represents (Prod.fst : β × α → β) history
  have memory := Memory.after_represents (Prod.snd : β × α → α) history
  have deep := Environment.depth_after history
  constructor
  case depth =>
    rw [← deep, Declarations.depth, Memory.depth, declared.outer_length, memory.outer_length]
    exact ⟨rfl, rfl⟩
  case visible =>
    intro name
    rw [declared.lookup, memory.read?, Option.isSome_map, Option.isSome_map]
  case payloads =>
    intro name producer value
    rw [Environment.standing_iff, declared.lookup, memory.read?]
    cases (Environment.after history).held name <;> simp [Prod.ext_iff]
  case left => rw [declared.pop_label, memory.exit_label]
  case outermost =>
    rw [memory.exit_label, List.head?_eq_none_iff, ← deep, Environment.depth]
    simp
  case single => exact memory.hold.countP_names

end MatrixScript
