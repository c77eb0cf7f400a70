import MatrixScript.Proofs.Evaluation.Atomicity
import MatrixScript.Proofs.Matrix.Guarded
import MatrixScript.Proofs.Value.Dimensions

/-! Writing into a part of a text replaces exactly that part.

A text is read and written by the same range of its characters, however many bytes they take. The characters in front of
the range and behind it stay, and what is written may be shorter or longer than what was there.
-/

set_option autoImplicit false

namespace MatrixScript

/-- The characters from `first` up to `last` of a text of `length` characters, as selectors say it: a single one, or one
behind a point at the only row. -/
inductive TextRange (length : Nat) : List Selector → Nat → Nat → Prop where
  | single {selector : Selector} {first last : Nat} :
      selector.resolve length = .ok (first, last) → TextRange length [selector] first last
  | row {selector : Selector} {first last : Nat} :
      selector.resolve length = .ok (first, last) → TextRange length [.point 0, selector] first last

namespace Value

theorem orFault_eq_ok {α : Type} {outcome : Except MatrixFault α} {value : α} :
    orFault outcome = .ok value ↔ outcome = .ok value := by
  cases outcome with
  | ok _ => simp [orFault]
  | error _ => exact ⟨nofun, nofun⟩

theorem textSelection_eq_ok_iff {selectors : List Selector} {length first last : Nat} :
    textSelection selectors length = .ok (first, last) ↔ TextRange length selectors first last := by
  constructor
  · intro done
    unfold textSelection at done
    split at done
    · exact .single (orFault_eq_ok.mp done)
    · split at done
      · next zero =>
        subst zero
        exact .row (orFault_eq_ok.mp done)
      · cases done
    · cases done
  · intro range
    cases range with
    | single resolved => exact orFault_eq_ok.mpr resolved
    | row resolved => exact orFault_eq_ok.mpr resolved

theorem index_text_eq (content : String) (selectors : List Selector) :
    index (.text content) selectors =
      (textSelection selectors content.length).map fun range => .text (slice content range.1 range.2) :=
  (map_eq_pure_bind _ _).symm

theorem index_text_eq_ok_iff {content : String} {selectors : List Selector} {slice : Value} :
    index (.text content) selectors = .ok slice ↔
      ∃ first last, TextRange content.length selectors first last ∧ slice = .text (Value.slice content first last) := by
  constructor
  · intro done
    obtain ⟨⟨first, last⟩, selected, done⟩ := Except.bind_eq_ok done
    cases done
    exact ⟨first, last, textSelection_eq_ok_iff.mp selected, rfl⟩
  · rintro ⟨first, last, range, rfl⟩
    rw [index, textSelection_eq_ok_iff.mpr range]
    rfl

section

variable {content : String} {first last : Nat} (inserted : String)

@[simp] theorem toList_slice : (slice content first last).toList = (content.toList.drop first).take (last - first) :=
  String.toList_ofList

@[simp] theorem toList_splice :
    (splice content first last inserted).toList =
      content.toList.take first ++ inserted.toList ++ content.toList.drop last := String.toList_ofList

theorem splice_slice (forward : first ≤ last) : splice content first last (slice content first last) = content := by
  apply String.toList_inj.mp
  rw [toList_splice, toList_slice, List.append_assoc]
  -- the slice and what follows it are what follows the characters in front
  have rest : (content.toList.drop first).take (last - first) ++ content.toList.drop last = content.toList.drop first := by
    rw [← Nat.add_sub_cancel' forward, Nat.add_sub_cancel_left, ← List.drop_drop, List.take_append_drop]
  rw [rest, List.take_append_drop]

variable (within : last ≤ content.length) (forward : first ≤ last)

include within forward

theorem slice_splice : slice (splice content first last inserted) first (first + inserted.length) = inserted := by
  have front : (content.toList.take first).length = first := by
    rw [List.length_take, String.length_toList]
    omega
  apply String.toList_inj.mp
  rw [toList_slice, toList_splice, List.append_assoc, List.drop_left' front, Nat.add_sub_cancel_left,
    List.take_left' String.length_toList]

theorem length_splice :
    (splice content first last inserted).length = content.length - (last - first) + inserted.length := by
  rw [← String.length_toList, toList_splice]
  simp only [List.length_append, List.length_take, List.length_drop, String.length_toList]
  omega

end

end Value

theorem TextRange.within {selectors : List Selector} {length first last : Nat}
    (range : TextRange length selectors first last) : first ≤ last ∧ last ≤ length := by
  cases range with
  | single resolved | row resolved =>
    obtain ⟨forward, within, _⟩ := Selector.resolve_bounds resolved
    exact ⟨forward, within⟩

/-- A text in which something else took the place of the characters from `first` up to `last`. -/
structure Replaced (content : String) (first last : Nat) (inserted updated : String) : Prop where
  characters : updated.toList = content.toList.take first ++ inserted.toList ++ content.toList.drop last
  length : updated.length = content.length - (last - first) + inserted.length
  /-- The range that was written into is read by whatever selectors say it, -/
  reads_back : ∀ readers, TextRange updated.length readers first (first + inserted.length) →
    Value.index (.text updated) readers = .ok (.text inserted)
  /-- and there are such selectors as long as integers count so far. -/
  readable : (first + inserted.length : Int) ≤ Integer.greatest →
    TextRange updated.length [.span (Int64.ofNat first) (Int64.ofNat (first + inserted.length))] first
      (first + inserted.length)

theorem splice_replaced {selectors : List Selector} {content : String} {first last : Nat}
    (range : TextRange content.length selectors first last) (inserted : String) :
    Replaced content first last inserted (Value.splice content first last inserted) := by
  obtain ⟨forward, within⟩ := range.within
  have length := Value.length_splice inserted within forward
  refine ⟨Value.toList_splice inserted, length, ?_, ?_⟩
  · intro readers readable
    rw [Value.index_text_eq_ok_iff]
    exact ⟨_, _, readable, by rw [Value.slice_splice inserted within forward]⟩
  · intro small
    have start : (Int64.ofNat first).toInt = first := toInt_ofNat_of_counted (by omega)
    have stop : (Int64.ofNat (first + inserted.length)).toInt = (first + inserted.length : Nat) :=
      toInt_ofNat_of_counted (by omega)
    apply TextRange.single
    rw [Selector.resolve_span (by omega) (by omega) (by omega), start, stop]
    rfl

namespace Execution

variable {machine : Machine} {name content : String} (held : machine.memory.read? name = some (.text content))
  (position : Position) {selectors : List Selector}

include held

/-- The range of a text is replaced in the variable that holds it. Without a range, nothing changes. -/
theorem write_text (inserted : String) :
    changeAt position name (Value.writeInto selectors (.text inserted)) machine =
      match Value.textSelection selectors content.length with
      | .ok (first, last) => .ok () { machine with
          memory := machine.memory.bind name (.text (Value.splice content first last inserted)) }
      | .error fault => .error (.failed ⟨fault, position⟩) machine := by
  rw [changeAt_eq_result held (Value.writeInto_atomic _ _ _), ← Value.assignInto, Value.assignInto_text_eq]
  cases Value.textSelection selectors content.length with
  | ok range => rfl
  | error fault => rfl

theorem write_text_of_range {first last : Nat} (range : TextRange content.length selectors first last)
    (inserted : String) :
    changeAt position name (Value.writeInto selectors (.text inserted)) machine =
      .ok () { machine with
        memory := machine.memory.bind name (.text (Value.splice content first last inserted)) } := by
  rw [write_text held, Value.textSelection_eq_ok_iff.mpr range]

theorem write_text_refused {fault : Fault} (refused : Value.index (.text content) selectors = .error fault)
    (inserted : String) :
    changeAt position name (Value.writeInto selectors (.text inserted)) machine =
      .error (.failed ⟨fault, position⟩) machine := by
  rw [write_text held]
  rw [Value.index_text_eq] at refused
  cases selected : Value.textSelection selectors content.length with
  | ok range =>
    rw [selected] at refused
    cases refused
  | error stopped =>
    rw [selected] at refused
    cases refused
    rfl

theorem write_other_refused {value : Value} (other : ∀ text, value ≠ .text text) :
    changeAt position name (Value.writeInto selectors value) machine =
      .error (.failed ⟨.unsupported "=" "string" value.typeName, position⟩) machine := by
  rw [changeAt_eq_result held (Value.writeInto_atomic _ _ _)]
  cases value with
  | text content => exact absurd rfl (other content)
  | int _ | float _ | bool _ | matrix _ => rfl

theorem write_text_back {slice : Value} (read : Value.index (.text content) selectors = .ok slice) :
    changeAt position name (Value.writeInto selectors slice) machine = .ok () machine := by
  obtain ⟨first, last, range, rfl⟩ := Value.index_text_eq_ok_iff.mp read
  rw [write_text_of_range held position range, Value.splice_slice range.within.1, machine.memory.bind_read? held]

end Execution

/-- Writing a text into a part of a variable that holds a text replaces exactly that part: it succeeds where the part can
be read, and otherwise is refused as reading is; the rest stays, the part reads as what was written, and what is read and
written back changes nothing. Anything but a text is refused. -/
theorem text_slices_replaced {machine : Machine} {name content : String}
    (held : machine.memory.read? name = some (.text content)) (position : Position) (selectors : List Selector) :
    let read := Value.index (.text content) selectors
    let write (value : Value) := Execution.changeAt position name (Value.writeInto selectors value) machine
    ((∃ slice, read = .ok slice) ↔ ∃ first last, TextRange content.length selectors first last) ∧
    (∀ inserted, ((∃ later, write (.text inserted) = .ok () later) ↔ ∃ slice, read = .ok slice) ∧
      ∀ fault, read = .error fault → write (.text inserted) = .error (.failed ⟨fault, position⟩) machine) ∧
    (∀ first last, TextRange content.length selectors first last → ∀ inserted later,
      write (.text inserted) = .ok () later →
        ∃ updated, later.memory.read? name = some (.text updated) ∧ Replaced content first last inserted updated) ∧
    (∀ slice, read = .ok slice → write slice = .ok () machine) ∧
    (∀ value, (∀ text, value ≠ .text text) →
      write value = .error (.failed ⟨.unsupported "=" "string" value.typeName, position⟩) machine) := by
  intro read write
  have readable : (∃ slice, read = .ok slice) ↔ ∃ first last, TextRange content.length selectors first last := by
    constructor
    · rintro ⟨slice, done⟩
      obtain ⟨first, last, range, _⟩ := Value.index_text_eq_ok_iff.mp done
      exact ⟨first, last, range⟩
    · rintro ⟨first, last, range⟩
      exact ⟨_, Value.index_text_eq_ok_iff.mpr ⟨first, last, range, rfl⟩⟩
  have refused {fault : Fault} (failed : read = .error fault) (inserted : String) :
      write (.text inserted) = .error (.failed ⟨fault, position⟩) machine :=
    Execution.write_text_refused held position failed inserted
  refine ⟨readable, fun inserted => ⟨⟨?_, ?_⟩, fun fault failed => refused failed inserted⟩, ?_,
    fun slice => Execution.write_text_back held position, fun value => Execution.write_other_refused held position⟩
  · -- what cannot be read would have been refused
    rintro ⟨later, done⟩
    cases known : read with
    | ok slice => exact ⟨slice, rfl⟩
    | error fault =>
      rw [refused known inserted] at done
      cases done
  · intro done
    obtain ⟨first, last, range⟩ := readable.mp done
    exact ⟨_, Execution.write_text_of_range held position range inserted⟩
  · intro first last range inserted later done
    have written := (Execution.write_text_of_range held position range inserted).symm.trans done
    cases written
    exact ⟨_, machine.memory.read?_bind_self name _, splice_replaced range inserted⟩

/-- A character of several bytes, selected behind the only row: replaced by three, written back, and not replaced by a
number. -/
theorem snowman_replaced :
    let machine : Machine := { memory := Memory.start.bind "s" (.text "ä☃b") }
    let selectors : List Selector := [.point 0, .span 1 2]
    let write (value : Value) := Execution.changeAt ⟨4, 1⟩ "s" (Value.writeInto selectors value) machine
    machine.memory.read? "s" = some (.text "ä☃b") ∧ TextRange "ä☃b".length selectors 1 2 ∧
      (∃ later updated, write (.text "xyz") = .ok () later ∧ later.memory.read? "s" = some (.text updated) ∧
        Replaced "ä☃b" 1 2 "xyz" updated) ∧
      write (.text "☃") = .ok () machine ∧
      write (.int 7) = .error (.failed ⟨.unsupported "=" "string" "int", ⟨4, 1⟩⟩) machine := by
  intro machine selectors write
  have held : machine.memory.read? "s" = some (.text "ä☃b") := rfl
  have range : TextRange "ä☃b".length selectors 1 2 := .row rfl
  obtain ⟨readable, writes, replaces, back, other⟩ := text_slices_replaced held ⟨4, 1⟩ selectors
  obtain ⟨later, done⟩ := (writes "xyz").1.mpr (readable.mpr ⟨1, 2, range⟩)
  obtain ⟨updated, read, replaced⟩ := replaces 1 2 range "xyz" later done
  exact ⟨held, range, ⟨later, updated, done, read, replaced⟩, back _ rfl, other (.int 7) nofun⟩

end MatrixScript
