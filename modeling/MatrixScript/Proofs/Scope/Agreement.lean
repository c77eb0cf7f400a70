import MatrixScript.Proofs.Scope.Memory
import MatrixScript.Scope.Declarations

/-! Declarations and the memory of a run agree.

The checker walks every body once and in order, a run skips bodies, repeats them and leaves them early. What links
the two is level by level: the names that the outermost scopes introduced are among those that the outermost frames
have. A run may have more. What a declared name holds fits what was declared for it.
-/

set_option autoImplicit false

namespace MatrixScript

theorem lookup_filter_key {β : Type} (keep : String → Bool) (table : List (String × β)) (name : String) :
    (table.filter fun entry => keep entry.1).lookup name = if keep name then table.lookup name else none := by
  induction table with
  | nil => simp
  | cons entry rest ih =>
    obtain ⟨known, payload⟩ := entry
    by_cases same : name = known
    · subst same
      by_cases kept : keep name
      · simp [kept]
      · simpa [List.filter_cons, kept, List.lookup_cons] using ih
    · have differs : (name == known) = false := beq_eq_false_iff_ne.mpr same
      by_cases kept : keep known
      · simp only [List.filter_cons, kept, if_true, List.lookup_cons, differs]
        exact ih
      · simpa [List.filter_cons, kept, List.lookup_cons, differs] using ih

namespace Declarations

variable {β : Type} (declared : Declarations β)

def scopes : List Introductions := declared.innermost :: declared.outer

/-- What is declared for a name that an outer scope introduced. -/
def outside? (name : String) : Option β :=
  if name ∈ declared.innermost.names then none else declared.lookup? name

theorem lookup?_declare (name : String) (payload : β) (other : String) :
    (declared.declare name payload).lookup? other = if other = name then some payload else declared.lookup? other := by
  have table : (declared.declare name payload).table = (name, payload) :: declared.table.filter (·.1 ≠ name) := by
    unfold declare
    split <;> rfl
  unfold lookup?
  rw [table]
  by_cases same : other = name
  · simp [same]
  · have differs : (other == name) = false := beq_eq_false_iff_ne.mpr same
    simp only [List.lookup_cons, differs, if_neg same]
    have kept := lookup_filter_key (fun key => decide (key ≠ name)) declared.table other
    simpa [same] using kept

theorem outer_declare (name : String) (payload : β) : (declared.declare name payload).outer = declared.outer := by
  unfold declare
  split <;> rfl

theorem names_declare (name : String) (payload : β) :
    (declared.declare name payload).innermost.names =
      if (declared.lookup? name).isSome then declared.innermost.names else name :: declared.innermost.names := by
  unfold declare
  split <;> rfl

@[simp] theorem lookup?_push (label name : String) : (declared.push label).lookup? name = declared.lookup? name := rfl

@[simp] theorem outside?_push (label name : String) :
    (declared.push label).outside? name = declared.lookup? name := rfl

theorem lookup?_pop {scope : Introductions} {rest : List Introductions} (some : declared.outer = scope :: rest)
    (name : String) : declared.pop.2.lookup? name = declared.outside? name := by
  have kept := lookup_filter_key (fun key => !declared.innermost.names.contains key) declared.table name
  unfold pop outside?
  rw [some]
  simp only [lookup?] at kept ⊢
  rw [kept]
  by_cases inside : name ∈ declared.innermost.names <;> simp [inside]

theorem names_declare_push {name : String} (new : declared.lookup? name = none) (label : String) (payload : β) :
    ((declared.push label).declare name payload).innermost.names = [name] := by
  rw [names_declare, lookup?_push, new]
  rfl

theorem pop_push (label : String) : (declared.push label).pop.2 = declared := by
  have kept : declared.table.filter (fun _ => true) = declared.table := by simp
  simp [push, pop, kept]

theorem scopes_pop {scope : Introductions} {rest : List Introductions} (some : declared.outer = scope :: rest) :
    declared.pop.2.scopes = declared.outer := by
  unfold pop scopes
  rw [some]

end Declarations

variable {α β : Type}

/-- Level by level, the names of the scopes are among those of the frames. -/
inductive Covers : List Introductions → List (Frame α) → Prop where
  | nil : Covers [] []
  | cons {scope : Introductions} {scopes : List Introductions} {frame : Frame α} {rest : List (Frame α)} :
      (∀ name ∈ scope.names, (Frame.readFirst? (frame :: rest) name).isSome) → Covers scopes rest →
        Covers (scope :: scopes) (frame :: rest)

namespace Covers

variable {scopes : List Introductions} {frames : List (Frame α)}

theorem visible (covers : Covers scopes frames) {scope : Introductions} (member : scope ∈ scopes) {name : String}
    (introduced : name ∈ scope.names) : (Frame.readFirst? frames name).isSome := by
  induction covers with
  | nil => cases member
  | @cons first scopes frame rest shown _ ih =>
    rcases List.mem_cons.mp member with rfl | member
    · exact shown name introduced
    · rw [Frame.readFirst?_cons, Option.isSome_or, ih member, Bool.or_true]

theorem binding (covers : Covers scopes frames) {name : String} {value : α} {changed : List (Frame α)}
    (binding : Frame.Binding name value frames changed) : Covers scopes changed := by
  induction covers generalizing changed with
  | nil => cases binding
  | @cons scope scopes frame rest shown outer ih =>
    have reads := binding.readFirst?
    have still : ∀ other ∈ scope.names, (Frame.readFirst? changed other).isSome := by
      intro other introduced
      rw [reads other]
      split
      · rfl
      · exact shown other introduced
    cases binding with
    | here _ _ => exact .cons still outer
    | outer _ binding => exact .cons still (ih binding)

theorem innermost {scope other : Introductions} (covers : Covers (scope :: scopes) frames)
    (shown : ∀ name ∈ other.names, (Frame.readFirst? frames name).isSome) : Covers (other :: scopes) frames := by
  cases covers with
  | cons _ outer => exact .cons shown outer

end Covers

section

variable (Fits : β → α → Prop)

def Shows (declared : Declarations β) (memory : Memory α) : Prop :=
  ∀ name payload, declared.lookup? name = some payload → ∃ value, memory.read? name = some value ∧ Fits payload value

/-- The memory at a place of a program agrees with the declarations there. -/
structure Agrees (declared : Declarations β) (memory : Memory α) : Prop where
  apart : Frame.Apart memory.frames
  covers : Covers declared.scopes memory.frames
  known : ∀ name, (declared.lookup? name).isSome → ∃ scope ∈ declared.scopes, name ∈ scope.names
  shows : Shows Fits declared memory

/-- The memory agrees with what was declared outside the innermost scope, wherever a run comes from. -/
structure AgreesOutside (declared : Declarations β) (memory : Memory α) : Prop where
  apart : Frame.Apart memory.frames
  covers : Covers declared.outer memory.outer
  known : ∀ name, (declared.outside? name).isSome → ∃ scope ∈ declared.outer, name ∈ scope.names
  shows : ∀ name payload, declared.outside? name = some payload →
    ∃ value, memory.read? name = some value ∧ Fits payload value

/-- What is declared for a name before and after a statement: nothing, or what the same values fit. -/
inductive Alike : Option β → Option β → Prop where
  | absent : Alike none none
  | present {first second : β} : (∀ value, Fits first value ↔ Fits second value) → Alike (some first) (some second)

/-- The checker went from the first declarations to the second and did not leave their scope. -/
structure Within (before after : Declarations β) : Prop where
  outer : after.outer = before.outer
  alike : ∀ name, Alike Fits (before.outside? name) (after.outside? name)

/-- The checker went through whole scopes only: all names are as they were, but for what is declared for them. -/
structure Around (before after : Declarations β) : Prop where
  scopes : after.scopes = before.scopes
  alike : ∀ name, Alike Fits (before.lookup? name) (after.lookup? name)

end

variable {Fits : β → α → Prop}

namespace Alike

theorem refl (payload : Option β) : Alike Fits payload payload := by
  cases payload with
  | none => exact .absent
  | some payload => exact .present fun _ => Iff.rfl

theorem trans {first second third : Option β} (earlier : Alike Fits first second)
    (later : Alike Fits second third) : Alike Fits first third := by
  cases earlier with
  | absent => exact later
  | present same =>
    cases later with
    | present same' => exact .present fun value => (same value).trans (same' value)

theorem backward {first second : Option β} (alike : Alike Fits first second) {payload : β}
    (found : second = some payload) :
    ∃ earlier, first = some earlier ∧ ∀ value, Fits earlier value ↔ Fits payload value := by
  cases alike with
  | absent => cases found
  | @present earlier _ same =>
    cases found
    exact ⟨earlier, rfl, same⟩

theorem symm {first second : Option β} (alike : Alike Fits first second) : Alike Fits second first := by
  cases alike with
  | absent => exact .absent
  | present same => exact .present fun value => (same value).symm

end Alike

namespace Within

theorem refl (declared : Declarations β) : Within Fits declared declared :=
  ⟨rfl, fun _ => .refl _⟩

theorem of_eq {before after : Declarations β} (same : after = before) : Within Fits before after := by
  rw [same]
  exact .refl _

theorem trans {first second third : Declarations β} (earlier : Within Fits first second)
    (later : Within Fits second third) : Within Fits first third :=
  ⟨later.outer.trans earlier.outer, fun name => (earlier.alike name).trans (later.alike name)⟩

theorem symm {before after : Declarations β} (within : Within Fits before after) : Within Fits after before :=
  ⟨within.outer.symm, fun name => (within.alike name).symm⟩

theorem declare (declared : Declarations β) (name : String) (payload : β)
    (stable : ∀ old, declared.lookup? name = some old → name ∉ declared.innermost.names →
      ∀ value, Fits old value ↔ Fits payload value) : Within Fits declared (declared.declare name payload) := by
  refine ⟨declared.outer_declare name payload, fun other => ?_⟩
  unfold Declarations.outside?
  rw [declared.names_declare, declared.lookup?_declare]
  cases found : declared.lookup? name with
  | some old =>
    -- a name that is known is declared where it stands, and its scope gets no new name
    simp only [Option.isSome_some, if_true]
    by_cases inside : other ∈ declared.innermost.names
    · rw [if_pos inside, if_pos inside]
      exact .absent
    · rw [if_neg inside, if_neg inside]
      by_cases same : other = name
      · subst same
        rw [if_pos rfl, found]
        exact .present (stable old found inside)
      · rw [if_neg same]
        exact .refl _
  | none =>
    simp only [Option.isSome_none, Bool.false_eq_true, if_false]
    by_cases same : other = name
    · subst same
      rw [found, if_pos List.mem_cons_self]
      split
      · exact .absent
      · exact .absent
    · have mem : other ∈ name :: declared.innermost.names ↔ other ∈ declared.innermost.names := by
        simp [same]
      simp only [mem, if_neg same]
      exact .refl _

theorem declare_push {declared : Declarations β} {name : String} (new : declared.lookup? name = none)
    (label : String) (payload : β) :
    Within Fits (declared.push label) ((declared.push label).declare name payload) := by
  refine .declare _ name payload fun old known => ?_
  rw [Declarations.lookup?_push, new] at known
  cases known

end Within

theorem Within.around {before after : Declarations β} {label : String}
    (within : Within Fits (before.push label) after) : Around Fits before after.pop.2 := by
  have some : after.outer = before.innermost :: before.outer := within.outer
  refine ⟨?_, fun name => ?_⟩
  · rw [after.scopes_pop some, some]
    rfl
  · rw [after.lookup?_pop some]
    exact within.alike name

theorem Around.refl (declared : Declarations β) : Around Fits declared declared :=
  ⟨rfl, fun _ => .refl _⟩

theorem Around.trans {first second third : Declarations β} (earlier : Around Fits first second)
    (later : Around Fits second third) : Around Fits first third :=
  ⟨later.scopes.trans earlier.scopes, fun name => (earlier.alike name).trans (later.alike name)⟩

theorem Around.symm {before after : Declarations β} (around : Around Fits before after) : Around Fits after before :=
  ⟨around.scopes.symm, fun name => (around.alike name).symm⟩

theorem Around.within {before after : Declarations β} (around : Around Fits before after) :
    Within Fits before after := by
  have same := List.cons.inj around.scopes
  refine ⟨same.2, fun name => ?_⟩
  unfold Declarations.outside?
  rw [same.1]
  split
  · exact .absent
  · exact around.alike name

section

variable {declared before after : Declarations β} {memory : Memory α}

theorem Agrees.outside (agrees : Agrees Fits declared memory) : AgreesOutside Fits declared memory where
  apart := agrees.apart
  covers := by
    cases agrees.covers with
    | cons _ outer => exact outer
  known := by
    intro name found
    unfold Declarations.outside? at found
    split at found
    · cases found
    · next other =>
      obtain ⟨scope, member, introduced⟩ := agrees.known name found
      rcases List.mem_cons.mp member with rfl | member
      · exact absurd introduced other
      · exact ⟨scope, member, introduced⟩
  shows := by
    intro name payload found
    unfold Declarations.outside? at found
    split at found
    · cases found
    · exact agrees.shows name payload found

theorem Within.outside (within : Within Fits before after) (outside : AgreesOutside Fits before memory) :
    AgreesOutside Fits after memory where
  apart := outside.apart
  covers := by
    rw [within.outer]
    exact outside.covers
  known := by
    intro name found
    obtain ⟨payload, found⟩ := Option.isSome_iff_exists.mp found
    obtain ⟨earlier, found, _⟩ := (within.alike name).backward found
    rw [within.outer]
    exact outside.known name (by rw [found]; rfl)
  shows := by
    intro name payload found
    obtain ⟨earlier, found, same⟩ := (within.alike name).backward found
    obtain ⟨value, read, fits⟩ := outside.shows name earlier found
    exact ⟨value, read, (same value).mp fits⟩

theorem Around.agrees (around : Around Fits before after) (agrees : Agrees Fits before memory) :
    Agrees Fits after memory where
  apart := agrees.apart
  covers := by
    rw [around.scopes]
    exact agrees.covers
  known := by
    intro name found
    obtain ⟨payload, found⟩ := Option.isSome_iff_exists.mp found
    obtain ⟨earlier, found, _⟩ := (around.alike name).backward found
    rw [around.scopes]
    exact agrees.known name (by rw [found]; rfl)
  shows := by
    intro name payload found
    obtain ⟨earlier, found, same⟩ := (around.alike name).backward found
    obtain ⟨value, read, fits⟩ := agrees.shows name earlier found
    exact ⟨value, read, (same value).mp fits⟩

theorem Agrees.enter (agrees : Agrees Fits declared memory) (label frameLabel : String) :
    Agrees Fits (declared.push label) (memory.enter frameLabel) where
  apart := memory.apart_enter frameLabel agrees.apart
  covers := .cons (fun _ introduced => (nomatch introduced)) agrees.covers
  known := by
    intro name found
    obtain ⟨scope, member, introduced⟩ := agrees.known name found
    exact ⟨scope, List.mem_cons_of_mem _ member, introduced⟩
  shows := by
    intro name payload found
    rw [memory.read?_enter]
    exact agrees.shows name payload found

theorem AgreesOutside.exit (outside : AgreesOutside Fits declared memory) {scope : Introductions}
    {rest : List Introductions} (some : declared.outer = scope :: rest) :
    Agrees Fits declared.pop.2 memory.exit.2 := by
  have frames : memory.exit.2.frames = memory.outer := by
    have covers := outside.covers
    rw [some] at covers
    generalize same : memory.outer = outer at covers
    cases covers with
    | cons _ _ => rw [memory.frames_exit same, same]
  have visible {name : String} (found : (declared.outside? name).isSome) :
      memory.exit.2.read? name = memory.read? name := by
    obtain ⟨scope, member, introduced⟩ := outside.known name found
    have shown := outside.covers.visible member introduced
    rw [memory.read?_of_outer outside.apart shown, Memory.read?_eq, frames]
  refine ⟨?_, ?_, ?_, ?_⟩
  · rw [frames]
    exact outside.apart.2
  · rw [frames, declared.scopes_pop some]
    exact outside.covers
  · intro name found
    rw [declared.lookup?_pop some] at found
    rw [declared.scopes_pop some]
    exact outside.known name found
  · intro name payload found
    rw [declared.lookup?_pop some] at found
    obtain ⟨value, read, fits⟩ := outside.shows name payload found
    exact ⟨value, by rw [visible (by rw [found]; rfl), read], fits⟩

theorem AgreesOutside.covers_frames (outside : AgreesOutside Fits declared memory) (label : String) :
    Covers (⟨label, []⟩ :: declared.outer) memory.frames :=
  .cons (fun _ introduced => (nomatch introduced)) outside.covers

/-- At the start of a body nothing is declared inside, however often the body has been run before. -/
theorem AgreesOutside.again {label : String} (outside : AgreesOutside Fits (declared.push label) memory) :
    Agrees Fits (declared.push label) memory where
  apart := outside.apart
  covers := outside.covers_frames label
  known := by
    intro name found
    obtain ⟨scope, member, introduced⟩ := outside.known name found
    exact ⟨scope, List.mem_cons_of_mem _ member, introduced⟩
  shows := outside.shows

theorem AgreesOutside.bind (outside : AgreesOutside Fits declared memory) {name : String} {payload : β} {value : α}
    (only : declared.innermost.names = [name]) (found : declared.lookup? name = some payload)
    (fits : Fits payload value) : Agrees Fits declared (memory.bind name value) := by
  have binding := memory.frames_bind name value outside.apart
  refine ⟨binding.apart outside.apart, ?_, ?_, ?_⟩
  · refine ((outside.covers_frames "").binding binding).innermost fun other introduced => ?_
    rw [only] at introduced
    rw [binding.readFirst? other, if_pos (List.mem_singleton.mp introduced)]
    rfl
  · intro other known
    by_cases inside : other ∈ declared.innermost.names
    · exact ⟨declared.innermost, List.mem_cons_self, inside⟩
    · obtain ⟨scope, member, introduced⟩ := outside.known other (by rwa [Declarations.outside?, if_neg inside])
      exact ⟨scope, List.mem_cons_of_mem _ member, introduced⟩
  · intro other earlier known
    rw [memory.read?_bind outside.apart]
    by_cases same : other = name
    · subst same
      rw [found] at known
      cases known
      exact ⟨value, if_pos rfl, fits⟩
    · rw [if_neg same]
      have apart : other ∉ declared.innermost.names := by
        rw [only]
        exact fun member => same (List.mem_singleton.mp member)
      exact outside.shows other earlier (by rwa [Declarations.outside?, if_neg apart])

theorem Agrees.covers_bind (agrees : Agrees Fits declared memory) (name : String) (payload : β) (value : α) :
    Covers (declared.declare name payload).scopes (memory.bind name value).frames := by
  have binding := memory.frames_bind name value agrees.apart
  unfold Declarations.scopes
  rw [declared.outer_declare]
  refine (agrees.covers.binding binding).innermost fun other introduced => ?_
  rw [declared.names_declare] at introduced
  rw [binding.readFirst? other]
  by_cases same : other = name
  · rw [if_pos same]
    rfl
  · have inside : other ∈ declared.innermost.names := by
      split at introduced
      · exact introduced
      · exact (List.mem_cons.mp introduced).resolve_left same
    rw [if_neg same]
    exact agrees.covers.visible List.mem_cons_self inside

theorem Agrees.known_declare (agrees : Agrees Fits declared memory) {name other : String} {payload : β}
    (known : ((declared.declare name payload).lookup? other).isSome) :
    ∃ scope ∈ (declared.declare name payload).scopes, other ∈ scope.names := by
  unfold Declarations.scopes
  rw [declared.outer_declare]
  rw [declared.lookup?_declare] at known
  by_cases earlier : (declared.lookup? other).isSome
  · obtain ⟨scope, member, introduced⟩ := agrees.known other earlier
    rcases List.mem_cons.mp member with rfl | member
    · refine ⟨_, List.mem_cons_self, ?_⟩
      rw [declared.names_declare]
      split
      · exact introduced
      · exact List.mem_cons_of_mem _ introduced
    · exact ⟨scope, List.mem_cons_of_mem _ member, introduced⟩
  · split at known
    · next same =>
      subst same
      refine ⟨_, List.mem_cons_self, ?_⟩
      rw [declared.names_declare, if_neg earlier]
      exact List.mem_cons_self
    · exact absurd known earlier

theorem Agrees.bind (agrees : Agrees Fits declared memory) (name : String) {payload : β} {value : α}
    (fits : Fits payload value) : Agrees Fits (declared.declare name payload) (memory.bind name value) := by
  have binding := memory.frames_bind name value agrees.apart
  refine ⟨binding.apart agrees.apart, agrees.covers_bind name payload value, fun _ => agrees.known_declare, ?_⟩
  intro other earlier known
  rw [declared.lookup?_declare] at known
  rw [memory.read?_bind agrees.apart]
  split at known
  · next same =>
    cases known
    exact ⟨value, if_pos same, fits⟩
  · next differs =>
    rw [if_neg differs]
    exact agrees.shows other earlier known

theorem Agrees.rebind (agrees : Agrees Fits declared memory) {name : String} {payload : β} {value : α}
    (found : declared.lookup? name = some payload) (fits : Fits payload value) :
    Agrees Fits declared (memory.bind name value) := by
  have binding := memory.frames_bind name value agrees.apart
  refine ⟨binding.apart agrees.apart, agrees.covers.binding binding, agrees.known, ?_⟩
  intro other earlier known
  rw [memory.read?_bind agrees.apart]
  by_cases same : other = name
  · subst same
    rw [found] at known
    cases known
    exact ⟨value, if_pos rfl, fits⟩
  · rw [if_neg same]
    exact agrees.shows other earlier known

end

theorem Agrees.start : Agrees Fits (Declarations.start : Declarations β) (Memory.start : Memory α) where
  apart := ⟨fun _ bound => (nomatch bound), trivial⟩
  covers := .cons (fun _ introduced => (nomatch introduced)) .nil
  known := fun _ found => nomatch found
  shows := fun _ _ found => nomatch found

end MatrixScript
