import MatrixScript.Typing.Statement

/-! What the elementary moves of the checker do. -/

set_option autoImplicit false

namespace MatrixScript

namespace StaticTypes

def Extends (before after : StaticTypes) : Prop :=
  ∀ id type, before.get? id = some type → after.get? id = some type

theorem Extends.refl (types : StaticTypes) : types.Extends types := fun _ _ found => found

theorem Extends.trans {first second third : StaticTypes} (earlier : first.Extends second)
    (later : second.Extends third) : first.Extends third :=
  fun id type found => later id type (earlier id type found)

theorem Extends.isSome {before after : StaticTypes} (extended : before.Extends after) {id : ExprId}
    (typed : (before.get? id).isSome) : (after.get? id).isSome := by
  obtain ⟨type, typed⟩ := Option.isSome_iff_exists.mp typed
  rw [extended id type typed]
  rfl

theorem get?_ofSize (count : Nat) (id : ExprId) : (ofSize count).get? id = none := by
  unfold get? ofSize
  rw [Array.getElem?_replicate]
  split <;> rfl

theorem get?_reach (types : StaticTypes) (id other : ExprId) : (types.reach id).get? other = types.get? other := by
  unfold get? reach
  rw [Array.getElem?_append]
  split
  · rfl
  · next outside =>
    rw [Array.getElem?_eq_none (Nat.le_of_not_lt outside), Array.getElem?_replicate]
    split <;> rfl

/-- Recording gives the type that the table holds from then on. -/
theorem get?_record (types : StaticTypes) (id : ExprId) (type : StaticType) (other : ExprId) :
    (types.record id type).2.get? other =
      if other = id then some (types.record id type).1 else types.get? other := by
  unfold record
  cases held : types.get? id with
  | some known =>
    show types.get? other = if other = id then some known else types.get? other
    split
    · next same => rw [same, held]
    · rfl
  | none =>
    have reached := types.get?_reach id other
    have room : id.index < (types.reach id).entries.size := by
      unfold reach
      rw [Array.size_append, Array.size_replicate]
      omega
    unfold get? at reached ⊢
    simp only
    split
    · next same =>
      rw [same, Array.getElem?_setIfInBounds_self_of_lt room]
      rfl
    · next differs =>
      have apart : id.index ≠ other.index := fun same => differs (congrArg ExprId.mk same.symm)
      rw [Array.getElem?_setIfInBounds_ne apart, reached]

end StaticTypes

namespace Check

variable {α β : Type} (checker : Checker)

@[simp] theorem bind_apply (action : Check α) (next : α → Check β) :
    (action >>= next) checker = next (action checker).1 (action checker).2 := rfl

@[simp] theorem pure_apply (value : α) : (pure value : Check α) checker = (value, checker) := rfl

@[simp] theorem get_apply : (get : Check Checker) checker = (checker, checker) := rfl

@[simp] theorem report_apply (line : Nat) (problem : Problem) :
    report line problem checker = ((), { checker with findings := checker.findings.push ⟨line, problem⟩ }) := rfl

@[simp] theorem recorded?_apply (id : ExprId) : recorded? id checker = (checker.types.get? id, checker) := rfl

@[simp] theorem declared?_apply (name : String) :
    declared? name checker = (checker.declared.lookup? name, checker) := rfl

@[simp] theorem record_apply (id : ExprId) (type : StaticType) :
    record id type checker =
      ((checker.types.record id type).1, { checker with types := (checker.types.record id type).2 }) := rfl

@[simp] theorem declare_apply (name : String) (producer : ExprId) :
    declare name producer checker =
      ((), { checker with declared := checker.declared.declare name producer }) := rfl

end Check

/-- Typing an expression adds types and findings, and changes nothing else. -/
structure Checker.Extends (before after : Checker) : Prop where
  types : before.types.Extends after.types
  findings : before.findings.toList <+: after.findings.toList
  declared : after.declared = before.declared
  loopDepth : after.loopDepth = before.loopDepth

namespace Checker.Extends

theorem refl (checker : Checker) : checker.Extends checker :=
  ⟨.refl _, List.prefix_refl _, rfl, rfl⟩

theorem trans {first second third : Checker} (earlier : first.Extends second) (later : second.Extends third) :
    first.Extends third :=
  ⟨earlier.types.trans later.types, earlier.findings.trans later.findings, later.declared.trans earlier.declared,
    later.loopDepth.trans earlier.loopDepth⟩

theorem record (checker : Checker) (id : ExprId) (type : StaticType) :
    checker.Extends (Check.record id type checker).2 := by
  refine ⟨fun other known typed => ?_, List.prefix_refl _, rfl, rfl⟩
  simp only [Check.record_apply, StaticTypes.get?_record]
  split
  · next same =>
    subst same
    unfold StaticTypes.record
    rw [typed]
  · exact typed

theorem report (checker : Checker) (line : Nat) (problem : Problem) :
    checker.Extends (Check.report line problem checker).2 := by
  refine ⟨.refl _, ?_, rfl, rfl⟩
  simp only [Check.report_apply, Array.toList_push]
  exact List.prefix_append _ _

end Checker.Extends

/-- Nothing was found between two states of the checker. -/
def Checker.Quiet (before after : Checker) : Prop := after.findings = before.findings

theorem Checker.Quiet.not_report {checker : Checker} {line : Nat} {problem : Problem} :
    ¬checker.Quiet (Check.report line problem checker).2 := by
  intro quiet
  have size := congrArg Array.size quiet
  simp at size

theorem Checker.Quiet.split {first second third : Checker} (quiet : first.Quiet third)
    (earlier : first.findings.toList <+: second.findings.toList)
    (later : second.findings.toList <+: third.findings.toList) : first.Quiet second ∧ second.Quiet third := by
  unfold Quiet at *
  rw [quiet] at later
  have same : second.findings = first.findings := by
    apply Array.ext'
    exact later.eq_of_length (Nat.le_antisymm later.length_le earlier.length_le)
  exact ⟨same, quiet.trans same.symm⟩

end MatrixScript
