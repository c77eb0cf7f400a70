import MatrixScript.Scope.Memory

/-! What binding a name does to a memory.

No name ever lives in two frames, so a name that an outer frame has is read there, and leaving a frame changes no
name that an outer frame has.
-/

set_option autoImplicit false

namespace MatrixScript

variable {α : Type}

theorem lookup_rebind? {name : String} {value : α} {bindings changed : List (String × α)}
    (done : rebind? name value bindings = some changed) (other : String) :
    changed.lookup other = if other = name then some value else bindings.lookup other := by
  induction bindings generalizing changed with
  | nil => cases done
  | cons binding rest ih =>
    obtain ⟨known, old⟩ := binding
    by_cases same : known = name
    · subst same
      simp only [rebind?, if_true, Option.some.injEq] at done
      subst done
      by_cases here : other = known
      · simp [here]
      · simp [List.lookup_cons, here, beq_eq_false_iff_ne.mpr here]
    · simp only [rebind?, same, if_false, Option.map_eq_some_iff] at done
      obtain ⟨rest', done, rfl⟩ := done
      by_cases here : other = known
      · subst here
        simp [same]
      · simp only [List.lookup_cons, beq_eq_false_iff_ne.mpr here]
        exact ih done

theorem rebind?_eq_none {name : String} {value : α} {bindings : List (String × α)} :
    rebind? name value bindings = none ↔ bindings.lookup name = none := by
  induction bindings with
  | nil => simp [rebind?]
  | cons binding rest ih =>
    obtain ⟨known, old⟩ := binding
    by_cases same : known = name
    · subst same
      simp [rebind?]
    · have differs : (name == known) = false := beq_eq_false_iff_ne.mpr (Ne.symm same)
      simp [rebind?, same, List.lookup_cons, differs, ih]

theorem rebind?_lookup {name : String} {value : α} {bindings : List (String × α)}
    (found : bindings.lookup name = some value) : rebind? name value bindings = some bindings := by
  induction bindings with
  | nil => cases found
  | cons binding rest ih =>
    obtain ⟨known, old⟩ := binding
    by_cases same : known = name
    · subst same
      simp only [List.lookup_cons, beq_self_eq_true, Option.some.injEq] at found
      simp [rebind?, found]
    · have differs : (name == known) = false := beq_eq_false_iff_ne.mpr (Ne.symm same)
      simp only [List.lookup_cons, differs] at found
      simp [rebind?, same, ih found]

theorem map_fst_rebind? {name : String} {value : α} {bindings changed : List (String × α)}
    (done : rebind? name value bindings = some changed) : changed.map Prod.fst = bindings.map Prod.fst := by
  induction bindings generalizing changed with
  | nil => cases done
  | cons binding rest ih =>
    obtain ⟨known, old⟩ := binding
    by_cases same : known = name
    · simp only [rebind?, same, if_true, Option.some.injEq] at done
      simp [← done, same]
    · simp only [rebind?, same, if_false, Option.map_eq_some_iff] at done
      obtain ⟨rest', done, rfl⟩ := done
      simp [ih done]

namespace Frame

theorem read?_replace? {frame changed : Frame α} {name : String} {value : α}
    (done : frame.replace? name value = some changed) (other : String) :
    changed.read? other = if other = name then some value else frame.read? other := by
  simp only [replace?, Option.map_eq_some_iff] at done
  obtain ⟨bindings, done, rfl⟩ := done
  exact lookup_rebind? done other

theorem replace?_eq_none {frame : Frame α} {name : String} {value : α} :
    frame.replace? name value = none ↔ frame.read? name = none := by
  simp only [replace?, Option.map_eq_none_iff]
  exact rebind?_eq_none

theorem read?_insert (frame : Frame α) (name : String) (value : α) (other : String) :
    (frame.insert name value).read? other = if other = name then some value else frame.read? other := by
  by_cases same : other = name
  · simp [read?, insert, same]
  · simp [read?, insert, List.lookup_cons, same, beq_eq_false_iff_ne.mpr same]

/-- What the frames together have for a name, the innermost first. -/
def readFirst? (frames : List (Frame α)) (name : String) : Option α :=
  frames.findSome? (·.read? name)

theorem readFirst?_cons (frame : Frame α) (rest : List (Frame α)) (name : String) :
    readFirst? (frame :: rest) name = (frame.read? name).or (readFirst? rest name) := by
  unfold readFirst?
  rw [List.findSome?_cons]
  cases frame.read? name <;> rfl

theorem replaceFirst?_eq_none {frames : List (Frame α)} {name : String} {value : α} :
    replaceFirst? name value frames = none ↔ readFirst? frames name = none := by
  induction frames with
  | nil => simp [replaceFirst?, readFirst?]
  | cons frame rest ih =>
    rw [readFirst?_cons, Option.or_eq_none_iff, ← ih, ← @replace?_eq_none α frame name value]
    cases found : frame.replace? name value <;> simp [replaceFirst?, found]

theorem replaceFirst?_readFirst? {frames : List (Frame α)} {name : String} {value : α}
    (found : readFirst? frames name = some value) : replaceFirst? name value frames = some frames := by
  induction frames with
  | nil => cases found
  | cons frame rest ih =>
    rw [readFirst?_cons] at found
    unfold replaceFirst?
    cases inner : frame.read? name with
    | some current =>
      rw [inner, Option.some_or] at found
      cases found
      have same : frame.replace? name value = some frame := by simp [replace?, rebind?_lookup inner]
      simp [same]
    | none =>
      rw [inner, Option.none_or] at found
      simp [replace?_eq_none.mpr inner, ih found]

/-- A name got a value in the first frame that had it. -/
inductive Changed (name : String) (value : α) : List (Frame α) → List (Frame α) → Prop where
  | here {frame changed : Frame α} {rest : List (Frame α)} :
      frame.replace? name value = some changed → Changed name value (frame :: rest) (changed :: rest)
  | outer {frame : Frame α} {rest changed : List (Frame α)} :
      frame.read? name = none → Changed name value rest changed →
        Changed name value (frame :: rest) (frame :: changed)

theorem changed_of_replaceFirst? {frames changed : List (Frame α)} {name : String} {value : α}
    (done : replaceFirst? name value frames = some changed) : Changed name value frames changed := by
  induction frames generalizing changed with
  | nil => cases done
  | cons frame rest ih =>
    unfold replaceFirst? at done
    cases found : frame.replace? name value with
    | some replaced =>
      rw [found] at done
      cases done
      exact .here found
    | none =>
      simp only [found, Option.map_eq_some_iff] at done
      obtain ⟨replaced, done, rfl⟩ := done
      exact .outer (replace?_eq_none.mp found) (ih done)

theorem Changed.readFirst? {frames changed : List (Frame α)} {name : String} {value : α}
    (change : Changed name value frames changed) : readFirst? changed name = some value := by
  induction change with
  | here found => rw [readFirst?_cons, read?_replace? found, if_pos rfl, Option.some_or]
  | outer absent _ ih => rw [readFirst?_cons, absent, Option.none_or, ih]

def names (frame : Frame α) : List String := frame.bindings.map Prod.fst

theorem mem_names {frame : Frame α} {name : String} : name ∈ frame.names ↔ (frame.read? name).isSome := by
  unfold names read?
  induction frame.bindings with
  | nil => simp
  | cons binding rest ih =>
    obtain ⟨known, value⟩ := binding
    by_cases same : name = known
    · simp [same]
    · simp [List.lookup_cons, same, beq_eq_false_iff_ne.mpr same, ih]

@[simp] theorem names_insert (frame : Frame α) (name : String) (value : α) :
    (frame.insert name value).names = name :: frame.names := rfl

theorem names_replace? {frame changed : Frame α} {name : String} {value : α}
    (done : frame.replace? name value = some changed) : changed.names = frame.names := by
  simp only [replace?, Option.map_eq_some_iff] at done
  obtain ⟨bindings, done, rfl⟩ := done
  exact map_fst_rebind? done

theorem Changed.names {frames changed : List (Frame α)} {name : String} {value : α}
    (change : Changed name value frames changed) : changed.map names = frames.map names := by
  induction change with
  | here found => simp [names_replace? found]
  | outer _ _ ih => simp [ih]

theorem Changed.labels {frames changed : List (Frame α)} {name : String} {value : α}
    (change : Changed name value frames changed) : changed.map (·.label) = frames.map (·.label) := by
  induction change with
  | here found =>
    simp only [replace?, Option.map_eq_some_iff] at found
    obtain ⟨bindings, _, rfl⟩ := found
    rfl
  | outer _ _ ih => simp [ih]

theorem readFirst?_isSome {frames : List (Frame α)} {name : String} :
    (readFirst? frames name).isSome ↔ name ∈ frames.flatMap names := by
  induction frames with
  | nil => simp [readFirst?]
  | cons frame rest ih => simp [readFirst?_cons, ih, mem_names]

def Apart : List (Frame α) → Prop
  | [] => True
  | frame :: rest => (∀ name, (frame.read? name).isSome → readFirst? rest name = none) ∧ Apart rest

/-- A name got a value in the one frame that had it, or in the innermost one when none had it. -/
inductive Binding (name : String) (value : α) : List (Frame α) → List (Frame α) → Prop where
  | here {frame changed : Frame α} {rest : List (Frame α)} :
      (∀ other, changed.read? other = if other = name then some value else frame.read? other) →
        readFirst? rest name = none → Binding name value (frame :: rest) (changed :: rest)
  | outer {frame : Frame α} {rest changed : List (Frame α)} :
      frame.read? name = none → Binding name value rest changed →
        Binding name value (frame :: rest) (frame :: changed)

theorem Changed.binding {name : String} {value : α} {frames changed : List (Frame α)}
    (change : Changed name value frames changed) (apart : Apart frames) : Binding name value frames changed := by
  induction change with
  | @here frame changed rest found =>
    refine .here (read?_replace? found) (apart.1 name ?_)
    rw [Option.isSome_iff_ne_none, ne_eq, ← @replace?_eq_none α frame name value, found]
    exact Option.some_ne_none _
  | outer absent _ ih => exact .outer absent (ih apart.2)

namespace Binding

variable {name : String} {value : α} {frames changed : List (Frame α)}

theorem readFirst? (binding : Binding name value frames changed) (other : String) :
    Frame.readFirst? changed other = if other = name then some value else Frame.readFirst? frames other := by
  induction binding with
  | @here frame changed rest reads _ =>
    rw [readFirst?_cons, readFirst?_cons, reads]
    split
    · rfl
    · rfl
  | @outer frame rest changed absent _ ih =>
    rw [readFirst?_cons, readFirst?_cons, ih]
    split
    · next same => rw [same, absent]; rfl
    · rfl

theorem apart (binding : Binding name value frames changed) (apart : Apart frames) : Apart changed := by
  induction binding with
  | @here frame changed rest reads absent =>
    refine ⟨fun other bound => ?_, apart.2⟩
    rw [reads] at bound
    split at bound
    · next same => rw [same]; exact absent
    · exact apart.1 other bound
  | @outer frame rest changed absent binding ih =>
    refine ⟨fun other bound => ?_, ih apart.2⟩
    have differs : other ≠ name := by
      rintro rfl
      rw [absent] at bound
      cases bound
    rw [binding.readFirst? other, if_neg differs]
    exact apart.1 other bound

end Binding

end Frame

namespace Memory

variable (memory : Memory α)

theorem read?_eq (name : String) : memory.read? name = Frame.readFirst? memory.frames name := rfl

theorem frames_bind_of_some {name : String} {value : α} {changed : List (Frame α)}
    (found : Frame.replaceFirst? name value memory.frames = some changed) :
    (memory.bind name value).frames = changed := by
  unfold Memory.frames Frame.replaceFirst? at found
  unfold bind replace?
  cases inner : memory.innermost.replace? name value with
  | some frame =>
    rw [inner] at found
    cases found
    rfl
  | none =>
    simp only [inner, Option.map_eq_some_iff] at found
    obtain ⟨outer, found, rfl⟩ := found
    simp only [found, Option.map_some]
    rfl

theorem frames_bind_of_none {name : String} {value : α}
    (found : Frame.replaceFirst? name value memory.frames = none) :
    (memory.bind name value).frames = memory.innermost.insert name value :: memory.outer := by
  unfold Memory.frames Frame.replaceFirst? at found
  unfold bind replace?
  cases inner : memory.innermost.replace? name value with
  | some frame =>
    rw [inner] at found
    cases found
  | none =>
    simp only [inner, Option.map_eq_none_iff] at found
    simp only [found, Option.map_none]
    rfl

theorem frames_bind (name : String) (value : α) (apart : Frame.Apart memory.frames) :
    Frame.Binding name value memory.frames (memory.bind name value).frames := by
  cases found : Frame.replaceFirst? name value memory.frames with
  | some changed =>
    rw [memory.frames_bind_of_some found]
    exact (Frame.changed_of_replaceFirst? found).binding apart
  | none =>
    have absent := Frame.replaceFirst?_eq_none.mp found
    rw [memory.frames_bind_of_none found]
    unfold Memory.frames at absent
    rw [Frame.readFirst?_cons, Option.or_eq_none_iff] at absent
    exact .here (Frame.read?_insert _ name value) absent.2

theorem bind_read? {name : String} {value : α} (read : memory.read? name = some value) :
    memory.bind name value = memory := by
  have frames := memory.frames_bind_of_some (Frame.replaceFirst?_readFirst? read)
  obtain ⟨innermost, outer⟩ := List.cons.inj frames
  exact Memory.ext innermost outer

theorem read?_bind_self (name : String) (value : α) : (memory.bind name value).read? name = some value := by
  rw [read?_eq]
  cases found : Frame.replaceFirst? name value memory.frames with
  | some changed => rw [memory.frames_bind_of_some found, (Frame.changed_of_replaceFirst? found).readFirst?]
  | none => rw [memory.frames_bind_of_none found, Frame.readFirst?_cons, Frame.read?_insert, if_pos rfl, Option.some_or]

theorem names_bind (name : String) (value : α) :
    (memory.bind name value).frames.map Frame.names =
      if (memory.read? name).isSome then memory.frames.map Frame.names
      else (name :: memory.innermost.names) :: memory.outer.map Frame.names := by
  cases found : Frame.replaceFirst? name value memory.frames with
  | some changed =>
    have visible : (memory.read? name).isSome := by
      rw [Option.isSome_iff_ne_none, ne_eq, read?_eq, ← @Frame.replaceFirst?_eq_none α memory.frames name value, found]
      exact Option.some_ne_none _
    rw [memory.frames_bind_of_some found, if_pos visible, (Frame.changed_of_replaceFirst? found).names]
  | none =>
    have absent : memory.read? name = none := Frame.replaceFirst?_eq_none.mp found
    simp [memory.frames_bind_of_none found, absent]

theorem labels_bind (name : String) (value : α) :
    (memory.bind name value).frames.map (·.label) = memory.frames.map (·.label) := by
  cases found : Frame.replaceFirst? name value memory.frames with
  | some changed => rw [memory.frames_bind_of_some found, (Frame.changed_of_replaceFirst? found).labels]
  | none =>
    rw [memory.frames_bind_of_none found]
    rfl

theorem read?_bind {name : String} {value : α} (apart : Frame.Apart memory.frames) (other : String) :
    (memory.bind name value).read? other = if other = name then some value else memory.read? other :=
  (memory.frames_bind name value apart).readFirst? other

theorem frames_enter (label : String) : (memory.enter label).frames = ⟨label, []⟩ :: memory.frames := rfl

@[simp] theorem read?_enter (label name : String) : (memory.enter label).read? name = memory.read? name := by
  rw [read?_eq, frames_enter, Frame.readFirst?_cons]
  rfl

theorem apart_enter (label : String) (apart : Frame.Apart memory.frames) :
    Frame.Apart (memory.enter label).frames :=
  ⟨fun _ bound => (nomatch bound), apart⟩

theorem frames_exit {frame : Frame α} {rest : List (Frame α)} (some : memory.outer = frame :: rest) :
    memory.exit.2.frames = memory.outer := by
  unfold exit
  rw [some]
  rfl

theorem read?_of_outer {name : String} (apart : Frame.Apart memory.frames)
    (visible : (Frame.readFirst? memory.outer name).isSome) :
    memory.read? name = Frame.readFirst? memory.outer name := by
  rw [read?_eq, Memory.frames, Frame.readFirst?_cons]
  cases inner : memory.innermost.read? name with
  | none => rfl
  | some value =>
    have absent := apart.1 name (by rw [inner]; rfl)
    rw [absent] at visible
    cases visible

end Memory

end MatrixScript
