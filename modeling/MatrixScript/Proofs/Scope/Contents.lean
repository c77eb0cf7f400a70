import MatrixScript.Proofs.Scope.Memory

/-! What all values in a memory have in common. -/

set_option autoImplicit false

namespace MatrixScript

variable {α : Type} {Good : α → Prop}

/-- Every binding of the frame has a good value, also when it is hidden by another one. -/
def Frame.Holds (Good : α → Prop) (frame : Frame α) : Prop := ∀ binding ∈ frame.bindings, Good binding.2

def Memory.Holds (Good : α → Prop) (memory : Memory α) : Prop := ∀ frame ∈ memory.frames, frame.Holds Good

theorem rebind?_good {name : String} {value : α} {bindings changed : List (String × α)}
    (done : rebind? name value bindings = some changed) (good : Good value)
    (holds : ∀ binding ∈ bindings, Good binding.2) : ∀ binding ∈ changed, Good binding.2 := by
  induction bindings generalizing changed with
  | nil => cases done
  | cons binding rest ih =>
    obtain ⟨known, old⟩ := binding
    obtain ⟨first, others⟩ := List.forall_mem_cons.mp holds
    by_cases same : known = name
    · simp only [rebind?, same, if_true, Option.some.injEq] at done
      subst done
      exact List.forall_mem_cons.mpr ⟨good, others⟩
    · simp only [rebind?, same, if_false, Option.map_eq_some_iff] at done
      obtain ⟨later, done, rfl⟩ := done
      exact List.forall_mem_cons.mpr ⟨first, ih done others⟩

theorem Frame.Holds.replace? {frame changed : Frame α} (holds : frame.Holds Good) {name : String} {value : α}
    (good : Good value) (done : frame.replace? name value = some changed) : changed.Holds Good := by
  simp only [Frame.replace?, Option.map_eq_some_iff] at done
  obtain ⟨bindings, done, rfl⟩ := done
  exact rebind?_good done good holds

theorem Frame.Changed.good {name : String} {value : α} {frames changed : List (Frame α)}
    (change : Frame.Changed name value frames changed) (good : Good value)
    (holds : ∀ frame ∈ frames, frame.Holds Good) : ∀ frame ∈ changed, frame.Holds Good := by
  induction change with
  | here found =>
    obtain ⟨first, others⟩ := List.forall_mem_cons.mp holds
    exact List.forall_mem_cons.mpr ⟨first.replace? good found, others⟩
  | outer _ _ ih =>
    obtain ⟨first, others⟩ := List.forall_mem_cons.mp holds
    exact List.forall_mem_cons.mpr ⟨first, ih others⟩

namespace Memory.Holds

theorem start : (Memory.start : Memory α).Holds Good := by
  intro frame member
  cases List.mem_singleton.mp member
  exact nofun

variable {memory : Memory α}

theorem bind (holds : memory.Holds Good) (name : String) {value : α} (good : Good value) :
    (memory.bind name value).Holds Good := by
  unfold Holds
  -- a visible name is changed in the frame that has it, a new one goes into the innermost frame
  cases found : Frame.replaceFirst? name value memory.frames with
  | some changed =>
    rw [memory.frames_bind_of_some found]
    exact (Frame.changed_of_replaceFirst? found).good good holds
  | none =>
    obtain ⟨innermost, outer⟩ := List.forall_mem_cons.mp holds
    rw [memory.frames_bind_of_none found]
    exact List.forall_mem_cons.mpr ⟨List.forall_mem_cons.mpr ⟨good, innermost⟩, outer⟩

theorem enter (holds : memory.Holds Good) (label : String) : (memory.enter label).Holds Good :=
  List.forall_mem_cons.mpr ⟨nofun, holds⟩

theorem exit (holds : memory.Holds Good) : memory.exit.2.Holds Good := by
  cases outer : memory.outer with
  | nil =>
    unfold Memory.exit
    rw [outer]
    exact holds
  | cons frame rest =>
    unfold Holds
    rw [memory.frames_exit outer]
    exact (List.forall_mem_cons.mp holds).2

theorem of_read? (holds : memory.Holds Good) {name : String} {value : α} (read : memory.read? name = some value) :
    Good value := by
  obtain ⟨frame, member, found⟩ := List.exists_of_findSome?_eq_some read
  obtain ⟨before, after, split, _⟩ := List.lookup_eq_some_iff.mp found
  exact holds frame member (name, value) (split ▸ List.mem_append_right _ List.mem_cons_self)

end Memory.Holds

end MatrixScript
