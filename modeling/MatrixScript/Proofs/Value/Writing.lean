import MatrixScript.Value.Indexing

/-! Writing into a value in place.

Everything that can fail is looked at before the first cell or character is written, so a failed change leaves the
value as it was. A change that succeeds is an update of the whole value.
-/

set_option autoImplicit false

namespace MatrixScript

namespace Change

variable {ε σ α β : Type} {state : σ}

/-- What the change leaves behind when it fails is what it found. -/
def Atomic (change : Change ε σ α) (state : σ) : Prop :=
  ∀ fault later, change state = .error fault later → later = state

theorem Atomic.throw (fault : ε) : Atomic (throw fault : Change ε σ α) state := by
  intro _ later failed
  cases failed
  rfl

theorem Atomic.set (later : σ) : Atomic (set later : Change ε σ PUnit) state := nofun

theorem Atomic.modify (f : σ → σ) : Atomic (modify f : Change ε σ PUnit) state := nofun

theorem Atomic.checked {next : α → Change ε σ β} (outcome : Except ε α) (atomic : ∀ value, Atomic (next value) state) :
    Atomic (MonadExcept.ofExcept outcome >>= next) state := by
  cases outcome with
  | ok value => exact atomic value
  | error fault => exact .throw fault

theorem result_checked (outcome : Except ε α) (next : α → Change ε σ Unit) (state : σ) :
    result (MonadExcept.ofExcept outcome >>= next) state = outcome >>= fun value => (next value).result state := by
  cases outcome with
  | ok value => rfl
  | error fault => rfl

end Change

namespace Matrix

variable (matrix : Matrix) (rows cols : Selector) (part : Part)

theorem write_atomic : (write rows cols part).Atomic matrix :=
  Change.Atomic.checked (matrix.block rows cols) fun block => .checked (fits part block) fun _ => .modify _

theorem assign_eq :
    matrix.assign rows cols part = do
      let block ← matrix.block rows cols
      fits part block
      return matrix.fill block part := by
  refine (Change.result_checked (matrix.block rows cols) _ matrix).trans (congrArg _ (funext fun block => ?_))
  exact Change.result_checked (fits part block) _ matrix

end Matrix

namespace Value

theorem inMatrix_atomic {grid : Matrix} {change : Change MatrixFault Matrix Unit} (atomic : change.Atomic grid) :
    (inMatrix grid change).Atomic (.matrix grid) := by
  intro fault later failed
  unfold inMatrix at failed
  cases done : change grid with
  | ok value updated =>
    rw [done] at failed
    cases failed
  | error stopped left =>
    rw [done] at failed
    cases failed
    exact congrArg Value.matrix (atomic stopped left done)

theorem result_inMatrix (grid : Matrix) (change : Change MatrixFault Matrix Unit) (state : Value) :
    (inMatrix grid change).result state = (orFault (change.result grid)).map .matrix := by
  unfold Change.result inMatrix
  cases change grid with
  | ok value updated => rfl
  | error fault left => rfl

variable (selectors : List Selector) (replacement current : Value)

/-- A failed write leaves the value as it was. -/
theorem writeInto_atomic : (writeInto selectors replacement).Atomic current := by
  cases current with
  | text content =>
    cases replacement with
    | text inserted =>
      exact Change.Atomic.checked (textSelection selectors content.length) fun _ => .set _
    | int _ | float _ | bool _ | matrix _ => exact Change.Atomic.throw _
  | matrix grid =>
    refine Change.Atomic.checked (matrixSelectors grid selectors) fun chosen => ?_
    cases written : replacement.part? with
    | some part => exact inMatrix_atomic (Matrix.write_atomic grid chosen.1 chosen.2 part)
    | none => exact .throw _
  | int _ | float _ | bool _ => exact Change.Atomic.throw _

theorem assignInto_text_eq (content inserted : String) :
    assignInto (.text content) selectors (.text inserted) =
      textSelection selectors content.length >>= fun range => .ok (.text (splice content range.1 range.2 inserted)) := by
  have looks : assignInto (.text content) selectors (.text inserted) =
      Change.result (MonadExcept.ofExcept (textSelection selectors content.length) >>= fun range =>
        set (text (splice content range.1 range.2 inserted))) (.text content) := rfl
  rw [looks, Change.result_checked]
  rfl

theorem assignInto_matrix_eq (grid : Matrix) :
    assignInto (.matrix grid) selectors replacement =
      matrixSelectors grid selectors >>= fun chosen =>
        match replacement.part? with
        | some part => (orFault (grid.assign chosen.1 chosen.2 part)).map .matrix
        | none => .error (.unsupported "=" "array" replacement.typeName) := by
  have looks : assignInto (.matrix grid) selectors replacement =
      Change.result (MonadExcept.ofExcept (matrixSelectors grid selectors) >>= fun chosen =>
        match replacement.part? with
        | some part => inMatrix grid (Matrix.write chosen.1 chosen.2 part)
        | none => throw (.unsupported "=" "array" replacement.typeName)) (.matrix grid) := rfl
  rw [looks, Change.result_checked]
  congr 1
  funext chosen
  cases replacement.part? with
  | some part => exact result_inMatrix grid (Matrix.write chosen.1 chosen.2 part) (.matrix grid)
  | none => rfl

end Value

end MatrixScript
