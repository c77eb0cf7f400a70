import MatrixScript.Proofs.Value.Dimensions

/-! Literal indices are checked by the bounds that hold in a run.

The checker compares the bounds of a literal index with the length of an axis, and a run resolves the index along the
axis. The one counts positions, in words, before it looks for an empty range, and the other asks for the order of the
bounds first. For literals, which have no sign, both come to the same.
-/

set_option autoImplicit false

namespace MatrixScript

open Typing

namespace Selector

def literal : Selector → Selection
  | point index => .point (some index)
  | span start stop => .span (some (start, stop))

def bounds : Selector → List Int64
  | point index => [index]
  | span start stop => [start, stop]

variable {index start stop : Int64} {length size : Nat}

theorem takes_point_iff : (point index).Takes length size ↔ size = 1 ∧ 0 ≤ index.toInt ∧ index.toInt < length := by
  constructor
  · exact Takes.point
  · rintro ⟨rfl, inside⟩
    exact ⟨index.toInt.toNat, index.toInt.toNat + 1, if_pos inside, by omega⟩

/-- An empty range is taken as well, also at the very end. -/
theorem takes_span_iff : (span start stop).Takes length size ↔
    (size : Int) = stop.toInt - start.toInt ∧ 0 ≤ start.toInt ∧ stop.toInt ≤ length := by
  constructor
  · exact Takes.span
  · rintro ⟨counted, low, high⟩
    exact ⟨_, _, resolve_span low (by omega) high, by omega⟩

end Selector

namespace Typing

theorem forM_report_apply (line : Nat) (problems : List Problem) (checker : Checker) :
    problems.forM (Check.report line) checker =
      ((), { checker with findings := checker.findings ++ problems.map (Finding.mk line) }) := by
  induction problems generalizing checker with
  | nil => simp
  | cons problem rest ih =>
    show rest.forM (Check.report line) (Check.report line problem checker).2 = _
    rw [ih]
    simp

theorem selectAxis_apply (line : Nat) (axis : Axis) (bound : Dim) (selection : Selection) (checker : Checker) :
    selectAxis line axis bound selection checker =
      ((axisResult axis bound selection).2,
        { checker with
          findings := checker.findings ++ (axisResult axis bound selection).1.map (Finding.mk line) }) := by
  unfold selectAxis
  generalize axisResult axis bound selection = result
  obtain ⟨problems, size⟩ := result
  show (size, (problems.forM (Check.report line) checker).2) = _
  rw [forM_report_apply]

theorem selectAxis_quiet_iff {line : Nat} {axis : Axis} {bound : Dim} {selection : Selection} {checker : Checker} :
    checker.Quiet (selectAxis line axis bound selection checker).2 ↔ (axisResult axis bound selection).1 = [] := by
  rw [selectAxis_apply, Checker.Quiet, ← Array.toList_inj, Array.toList_appendList, List.append_right_eq_self,
    List.map_eq_nil_iff]

variable {axis : Axis} {index start stop : Int64} {length : Nat}

theorem axisResult_point_quiet_iff :
    (axisResult axis (.known length) (.point (some index))).1 = [] ↔ 0 ≤ index.toInt ∧ index.toInt < length := by
  simp [axisResult, pointOutside]

theorem axisResult_span_quiet_iff (low : 0 ≤ start.toInt) (high : 0 ≤ stop.toInt) :
    (axisResult axis (.known length) (.span (some (start, stop)))).1 = [] ↔
      start.toInt < stop.toInt ∧ stop.toInt ≤ length := by
  have counted := toInt_sub_of_nonneg high low
  simp only [axisResult]
  split
  · next empty =>
    have reversed : ¬start.toInt < stop.toInt := by omega
    simp [reversed]
  · next some =>
    have ordered : start.toInt < stop.toInt := by omega
    simp [spanOutside, low, high, ordered]

theorem axisResult_span_size (bound : Dim) (low : 0 ≤ start.toInt) (ordered : start.toInt < stop.toInt) :
    (axisResult axis bound (.span (some (start, stop)))).2 = some (.known (stop.toInt - start.toInt).toNat) := by
  have counted := toInt_sub_of_nonneg (Int.le_trans low (Int.le_of_lt ordered)) low
  simp only [axisResult]
  rw [if_neg (by omega), counted]

end Typing

/-- Along an axis of a known length, a literal index is passed without a finding exactly when a run resolves it and it
takes a position at least. The checker then knows of a point that it has no size, and of a range the number of positions
that are taken. It counts them in words, and no difference of bounds is too large for that. -/
theorem literal_bounds_agree (line : Nat) (axis : Axis) (length : Nat) (selector : Selector)
    (unsigned : ∀ bound ∈ selector.bounds, 0 ≤ bound.toInt) (checker : Checker) :
    let checked : Option Dim × Checker := selectAxis line axis (.known length) selector.literal checker
    (checker.Quiet checked.2 ↔ ∃ size, selector.Takes length size ∧ 0 < size) ∧
      (∀ size, selector.Takes length size → 0 < size →
        if selector.isPoint then checked.1 = none ∧ size = 1 else checked.1 = some (.known size)) ∧
      (∀ start stop, selector = .span start stop → (stop - start).toInt = stop.toInt - start.toInt) := by
  intro checked
  have quiet : checker.Quiet checked.2 ↔ (axisResult axis (.known length) selector.literal).1 = [] :=
    selectAxis_quiet_iff
  have sized : checked.1 = (axisResult axis (.known length) selector.literal).2 :=
    congrArg Prod.fst (selectAxis_apply line axis _ _ checker)
  rw [quiet, sized]
  cases selector with
  | point index =>
    refine ⟨?_, fun size takes _ => ⟨rfl, takes.point.1⟩, nofun⟩
    rw [Selector.literal, axisResult_point_quiet_iff]
    simp only [Selector.takes_point_iff]
    constructor
    · exact fun inside => ⟨1, ⟨rfl, inside⟩, Nat.one_pos⟩
    · rintro ⟨_, ⟨_, inside⟩, _⟩
      exact inside
  | span start stop =>
    obtain ⟨low, high⟩ : 0 ≤ start.toInt ∧ 0 ≤ stop.toInt := by simpa [Selector.bounds] using unsigned
    -- without signs, the difference of the bounds is computed in words as it is in integers
    have counted := toInt_sub_of_nonneg high low
    refine ⟨?_, fun size takes some => ?_, fun _ _ same => by cases same; exact counted⟩
    · rw [Selector.literal, axisResult_span_quiet_iff low high]
      simp only [Selector.takes_span_iff]
      constructor
      · rintro ⟨ordered, inside⟩
        exact ⟨(stop.toInt - start.toInt).toNat, ⟨by omega, low, inside⟩, by omega⟩
      · rintro ⟨size, ⟨counted, _, inside⟩, some⟩
        exact ⟨by omega, inside⟩
    · have known := takes.span
      have same : (stop.toInt - start.toInt).toNat = size := by omega
      rw [Selector.literal, axisResult_span_size _ low (by omega), same]
      rfl

/-- The longest range that two words can have. -/
theorem longestRange_bounds_agree :
    let longest : Selector := .span 0 9223372036854775807
    let checked : Option Dim × Checker := selectAxis 1 .column (.known 9223372036854775807) longest.literal (.start {})
    (∀ bound ∈ longest.bounds, 0 ≤ bound.toInt) ∧ longest.Takes 9223372036854775807 9223372036854775807 ∧
      (Checker.start {}).Quiet checked.2 ∧ checked.1 = some (.known 9223372036854775807) := by
  intro longest checked
  have unsigned : ∀ bound ∈ longest.bounds, 0 ≤ bound.toInt :=
    List.forall_mem_cons.mpr ⟨by decide, List.forall_mem_singleton.mpr (by decide)⟩
  have takes : longest.Takes 9223372036854775807 9223372036854775807 := ⟨0, 9223372036854775807, rfl, rfl⟩
  obtain ⟨quiet, sized, _⟩ := literal_bounds_agree 1 .column 9223372036854775807 longest unsigned (.start {})
  exact ⟨unsigned, takes, quiet.mpr ⟨_, takes, by decide⟩, sized _ takes (by decide)⟩

end MatrixScript
