import MatrixScript.Proofs.Grammar.Lawful
import MatrixScript.Proofs.Matrix.Accumulation
import MatrixScript.Proofs.Matrix.Storage
import Mathlib.Algebra.BigOperators.Group.Finset.Basic

/-! The matrix product of integers is exact, or refused.

A cell of the product is added up from zero, one product after the other. It is refused at the first product or partial
sum that is no word, whatever the sum of all products comes to. What is refused in one cell is refused for all of the
matrix, so the order in which the cells are gone through does not matter.
-/

set_option autoImplicit false

namespace MatrixScript

open Finset (sum_range_succ sum_range_zero)

namespace Integer

def Fits (value : Int) : Prop := least ≤ value ∧ value ≤ greatest

instance (value : Int) : Decidable (Fits value) := inferInstanceAs (Decidable (_ ∧ _))

theorem fit?_eq_some_iff {n : Int} {value : Int64} : fit? n = some value ↔ Fits n ∧ value.toInt = n := by
  constructor
  · intro fits
    refine ⟨?_, toInt_of_fit? fits⟩
    unfold fit? at fits
    split at fits
    · assumption
    · cases fits
  · rintro ⟨fits, rfl⟩
    unfold Fits at fits
    rw [fit?, if_pos fits, Int64.ofInt_toInt]

theorem exists_word {n : Int} (fits : Fits n) : ∃ value : Int64, value.toInt = n :=
  ⟨Int64.ofInt n, toInt_of_fit? (if_pos fits)⟩

/-- A sum has a word only when the last product and the sum that it is added to do. -/
theorem add_mul_eq_some_iff {total x y sum : Int64} :
    (do add? total (← mul? x y)) = some sum ↔
      Fits (x.toInt * y.toInt) ∧ Fits (total.toInt + x.toInt * y.toInt) ∧
        sum.toInt = total.toInt + x.toInt * y.toInt := by
  simp only [Option.bind_eq_bind, Option.bind_eq_some_iff, mul?, add?, fit?_eq_some_iff]
  constructor
  · rintro ⟨product, ⟨fits, exact⟩, added⟩
    rw [exact] at added
    exact ⟨fits, added⟩
  · rintro ⟨fits, added⟩
    obtain ⟨product, exact⟩ := exists_word fits
    exact ⟨product, ⟨fits, exact⟩, by rwa [exact]⟩

theorem addUp_eq_some_iff (x y : Nat → Int64) (count : Nat) (total : Int64) :
    (List.range count).foldlM (fun total k => do add? total (← mul? (x k) (y k))) 0 = some total ↔
      (∀ k < count, Fits ((x k).toInt * (y k).toInt) ∧
        Fits (∑ i ∈ Finset.range (k + 1), (x i).toInt * (y i).toInt)) ∧
      total.toInt = ∑ i ∈ Finset.range count, (x i).toInt * (y i).toInt := by
  -- the last sum is a step from the one before it, which is exact by induction
  induction count generalizing total with
  | zero =>
    simp only [List.range_zero, List.foldlM_nil, pure, Option.some.injEq, sum_range_zero, Nat.not_lt_zero,
      false_implies, implies_true, true_and]
    constructor
    · rintro rfl
      rfl
    · intro zero
      exact (Int64.toInt_inj.mp zero).symm
  | succ count ih =>
    rw [List.range_succ, List.foldlM_append]
    show Option.bind (List.foldlM _ 0 (List.range count)) _ = some total ↔ _
    rw [Option.bind_eq_some_iff]
    simp only [List.foldlM_cons, List.foldlM_nil, bind_pure, ih, add_mul_eq_some_iff]
    constructor
    · rintro ⟨before, ⟨earlier, exact⟩, product, sum, added⟩
      rw [exact, ← sum_range_succ] at sum added
      refine ⟨?_, added⟩
      intro k small
      rcases Nat.lt_succ_iff_lt_or_eq.mp small with small | rfl
      · exact earlier k small
      · exact ⟨product, sum⟩
    · rintro ⟨fits, added⟩
      have last := fits count (Nat.lt_succ_self count)
      have earlier : ∃ before : Int64, before.toInt = ∑ i ∈ Finset.range count, (x i).toInt * (y i).toInt := by
        cases count with
        | zero => exact ⟨0, rfl⟩
        | succ count => exact exists_word (fits count (by omega)).2
      obtain ⟨before, exact⟩ := earlier
      refine ⟨before, ⟨fun k small => fits k (by omega), exact⟩, last.1, ?_⟩
      rw [exact, ← sum_range_succ]
      exact ⟨last.2, added⟩

end Integer

namespace Matrix

open Integer (Fits)

def entry (matrix : Matrix) (row col : Nat) : Int :=
  match matrix.get? row col with
  | some (.int value) => value.toInt
  | _ => 0

section

variable (left right : Matrix)

def sum (row col count : Nat) : Int := ∑ k ∈ Finset.range count, left.entry row k * right.entry k col

/-- All products and all partial sums, those of all rows and columns, have words. -/
def SumsFit : Prop :=
  ∀ row < left.rows, ∀ col < right.cols, ∀ k < left.cols,
    Fits (left.entry row k * right.entry k col) ∧ Fits (left.sum right row col (k + 1))

end

theorem entry_ints {matrix : Matrix} {data : Array Int64} (ints : matrix.cells = .ints data) {row col : Nat}
    (down : row < matrix.rows) (across : col < matrix.cols) :
    matrix.entry row col = (data.getD (row * matrix.cols + col) 0).toInt := by
  have inside : row < matrix.rows ∧ col < matrix.cols := ⟨down, across⟩
  simp only [entry, get?, if_pos inside, ints, Cells.get]

theorem exists_ints {matrix : Matrix} (integral : matrix.isIntegral) : ∃ data, matrix.cells = .ints data := by
  unfold isIntegral at integral
  cases cells : matrix.cells with
  | ints data => exact ⟨data, rfl⟩
  | floats data =>
    rw [cells] at integral
    cases integral

section

variable {left right : Matrix}

theorem product_mismatch (different : left.cols ≠ right.rows) :
    product left right = .error (.shapeMismatch "*" left.extent right.extent) :=
  if_neg different

theorem product_oversized (same : left.cols = right.rows) (large : maxCells < left.rows * right.cols) :
    product left right = .error (.tooLarge ⟨left.rows, right.cols⟩) := by
  have refused : checkSize left.rows right.cols = .error (.tooLarge ⟨left.rows, right.cols⟩) :=
    if_neg (Nat.not_le.mpr large)
  unfold product
  rw [if_pos same, refused]
  rfl

variable {a b : Array Int64} (first : left.cells = .ints a) (second : right.cells = .ints b)
  (same : left.cols = right.rows)

include first second same

theorem intDot_eq_some_iff {row col : Nat} (down : row < left.rows) (across : col < right.cols) (total : Int64) :
    intDot left.cols right.cols a b row col = some total ↔
      (∀ k < left.cols, Fits (left.entry row k * right.entry k col) ∧ Fits (left.sum right row col (k + 1))) ∧
      total.toInt = left.sum right row col left.cols := by
  have term {k : Nat} (small : k < left.cols) :
      left.entry row k * right.entry k col =
        (a.getD (row * left.cols + k) 0).toInt * (b.getD (k * right.cols + col) 0).toInt := by
    rw [entry_ints first down small, entry_ints second (same ▸ small) across]
  have terms {count : Nat} (few : count ≤ left.cols) :
      left.sum right row col count = ∑ k ∈ Finset.range count,
        (a.getD (row * left.cols + k) 0).toInt * (b.getD (k * right.cols + col) 0).toInt := by
    apply Finset.sum_congr rfl
    intro k member
    exact term (Nat.lt_of_lt_of_le (Finset.mem_range.mp member) few)
  rw [intDot, Integer.addUp_eq_some_iff, terms (Nat.le_refl _)]
  apply and_congr_left'
  apply forall₂_congr
  intro k small
  rw [term small, terms small]

variable (sized : left.rows * right.cols ≤ maxCells)

include sized

theorem product_ints :
    product left right =
      match (List.range (left.rows * right.cols)).mapM fun i =>
        intDot left.cols right.cols a b (i / right.cols) (i % right.cols) with
      | some data => .ok ⟨left.rows, right.cols, .ints data.toArray⟩
      | none => .error .integerOverflow := by
  have allowed : checkSize left.rows right.cols = .ok () := if_pos sized
  unfold product
  rw [if_pos same, allowed, first, second]
  dsimp only [bind, Except.bind]
  cases (List.range (left.rows * right.cols)).mapM fun i =>
    intDot left.cols right.cols a b (i / right.cols) (i % right.cols) <;> rfl

theorem product_of_sumsFit (fits : SumsFit left right) :
    ∃ result, product left right = .ok result ∧
      ∀ row < left.rows, ∀ col < right.cols, ∃ value : Int64, result.get? row col = some (.int value) ∧
        value.toInt = left.sum right row col left.cols := by
  let total (row col : Nat) : Int64 := Int64.ofInt (left.sum right row col left.cols)
  have exact {row col : Nat} (down : row < left.rows) (across : col < right.cols) :
      (total row col).toInt = left.sum right row col left.cols := by
    -- the whole sum is the last partial sum, or there are no products
    cases inner : left.cols with
    | zero => simp [total, inner, sum]
    | succ k =>
      have last := (fits row down col across k (by omega)).2
      simp only [total, inner]
      exact Integer.toInt_of_fit? (if_pos last)
  have cells : ∀ i ∈ List.range (left.rows * right.cols),
      intDot left.cols right.cols a b (i / right.cols) (i % right.cols) =
        some (total (i / right.cols) (i % right.cols)) := by
    intro i member
    obtain ⟨down, across⟩ := div_mod_lt (List.mem_range.mp member)
    apply (intDot_eq_some_iff first second same down across _).mpr
    exact ⟨fits _ down _ across, exact down across⟩
  rw [product_ints first second same sized, mapM_eq_some cells]
  refine ⟨_, rfl, ?_⟩
  intro row down col across
  have inside : row < left.rows ∧ col < right.cols := ⟨down, across⟩
  refine ⟨total row col, ?_, exact down across⟩
  simp [get?, inside, Cells.get, cell_lt down across, cell_div_mod row across]

theorem product_of_not_sumsFit (large : ¬ SumsFit left right) : product left right = .error .integerOverflow := by
  unfold SumsFit at large
  push Not at large
  obtain ⟨row, down, col, across, k, small, large⟩ := large
  have refused : intDot left.cols right.cols a b row col = none := by
    rw [Option.eq_none_iff_forall_ne_some]
    intro total added
    have fits := ((intDot_eq_some_iff first second same down across total).mp added).1 k small
    exact large fits.1 fits.2
  have position := cell_div_mod row across
  have missing : intDot left.cols right.cols a b ((row * right.cols + col) / right.cols)
      ((row * right.cols + col) % right.cols) = none := by
    rw [position.1, position.2, refused]
  rw [product_ints first second same sized, mapM_eq_none (List.mem_range.mpr (cell_lt down across)) missing]

end

/-- The product of two integer matrices is a matrix of exact sums when every product and every partial sum has a word,
and otherwise it overflows. Matrices of any kind have no product when their sizes do not go together, or when there are
too many cells. -/
theorem product_exact (left right : Matrix) :
    (left.cols ≠ right.rows → product left right = .error (.shapeMismatch "*" left.extent right.extent)) ∧
    (left.cols = right.rows → maxCells < left.rows * right.cols →
      product left right = .error (.tooLarge ⟨left.rows, right.cols⟩)) ∧
    (left.cols = right.rows → left.rows * right.cols ≤ maxCells → left.isIntegral → right.isIntegral →
      ((∃ result, product left right = .ok result) ↔ SumsFit left right) ∧
      (∀ result, product left right = .ok result →
        result.rows = left.rows ∧ result.cols = right.cols ∧ result.isIntegral ∧ result.WellFormed ∧
        ∀ row < left.rows, ∀ col < right.cols, ∃ value : Int64, result.get? row col = some (.int value) ∧
          value.toInt = ∑ k ∈ Finset.range left.cols, left.entry row k * right.entry k col) ∧
      (¬ SumsFit left right → product left right = .error .integerOverflow)) := by
  refine ⟨product_mismatch, product_oversized, ?_⟩
  intro same sized integral integral'
  obtain ⟨a, first⟩ := exists_ints integral
  obtain ⟨b, second⟩ := exists_ints integral'
  have refused := product_of_not_sumsFit first second same sized
  have fits {result : Matrix} (done : product left right = .ok result) : SumsFit left right := by
    by_contra large
    rw [refused large] at done
    cases done
  refine ⟨⟨?_, ?_⟩, ?_, refused⟩
  · rintro ⟨result, done⟩
    exact fits done
  · intro fits
    obtain ⟨result, done, _⟩ := product_of_sumsFit first second same sized fits
    exact ⟨result, done⟩
  · intro result done
    obtain ⟨_, done', exact⟩ := product_of_sumsFit first second same sized (fits done)
    cases done.symm.trans done'
    obtain ⟨down, across, kind⟩ := product_eq_ok done
    rw [integral, integral'] at kind
    exact ⟨down, across, kind, product_wellFormed done, exact⟩

/-- A partial sum can be too large for a word although the whole sum is not; the sizes of matrices without cells can
have more cells in their product than there is room for. -/
theorem product_exact_refusals :
    (∃ left right : Matrix, left.cols = right.rows ∧ left.rows * right.cols ≤ maxCells ∧ left.isIntegral ∧
      right.isIntegral ∧ Fits (left.sum right 0 0 3) ∧ product left right = .error .integerOverflow) ∧
    (∃ left right : Matrix, left.cols = right.rows ∧ maxCells < left.rows * right.cols ∧
      left.WellFormed ∧ right.WellFormed ∧ product left right = .error (.tooLarge ⟨left.rows, right.cols⟩)) ∧
    (∃ left right : Matrix, left.cols ≠ right.rows ∧
      product left right = .error (.shapeMismatch "*" left.extent right.extent)) := by
  refine ⟨?_, ?_, ?_⟩
  · let left : Matrix := ⟨1, 3, .ints #[4611686018427387904, 4611686018427387904, -1]⟩
    let right : Matrix := ⟨3, 1, .ints #[1, 1, 1]⟩
    refine ⟨left, right, rfl, by decide +kernel, rfl, rfl, by decide +kernel, ?_⟩
    apply ((product_exact left right).2.2 rfl (by decide +kernel) rfl rfl).2.2
    intro fits
    exact absurd (fits 0 (by decide) 0 (by decide) 1 (by decide)).2 (by decide +kernel)
  · let left : Matrix := ⟨2147483648, 0, .ints #[]⟩
    let right : Matrix := ⟨0, 2147483648, .ints #[]⟩
    have large : maxCells < left.rows * right.cols := by decide +kernel
    exact ⟨left, right, rfl, large, (Nat.mul_zero _).symm, (Nat.zero_mul _).symm,
      (product_exact left right).2.1 rfl large⟩
  · let matrix : Matrix := ⟨1, 2, .ints #[1, 1]⟩
    have different : matrix.cols ≠ matrix.rows := by decide
    exact ⟨matrix, matrix, different, (product_exact matrix matrix).1 different⟩

end Matrix

end MatrixScript
