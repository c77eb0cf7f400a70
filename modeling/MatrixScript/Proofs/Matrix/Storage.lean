import MatrixScript.Proofs.Matrix.Accumulation

/-! The storage of matrices.

Every matrix that is made from nothing or from others has exactly one cell for each position, and on such matrices no
operation reads or writes outside the storage.
-/

set_option autoImplicit false

namespace MatrixScript

theorem length_mapM {α β : Type} {m : Type → Type} [Monad m] [LawfulMonad m] (f : α → m β) (items : List α) :
    List.length <$> items.mapM f = (fun _ => items.length) <$> items.mapM f := by
  induction items with
  | nil => simp
  | cons item rest ih =>
    have longer := congrArg (Functor.map (· + 1)) ih
    simp only [Functor.map_map] at longer
    rw [List.mapM_cons]
    simp only [map_bind, map_pure, List.length_cons]
    congr 1
    funext value
    simpa only [map_eq_pure_bind, Function.comp_def] using longer

namespace Matrix

theorem sized_wellFormed {rows cols : Nat} {cell : Nat → Nat → Int64} {result : Matrix}
    (done : (do checkSize rows cols; return ofCells rows cols cell) = Except.ok result) : result.WellFormed := by
  obtain ⟨_, _, done⟩ := Except.bind_eq_ok done
  cases done
  exact ofCells_wellFormed rows cols cell

theorem length_flatten_rows {α : Type} {rows : List (List α)} {cols : Nat} (even : ∀ row ∈ rows, row.length = cols) :
    rows.flatten.length = rows.length * cols := by
  induction rows with
  | nil => simp
  | cons row rest ih =>
    rw [List.flatten_cons, List.length_append, even row List.mem_cons_self,
      ih fun row member => even row (List.mem_cons_of_mem _ member), List.length_cons, Nat.succ_mul, Nat.add_comm]

theorem ofRows_wellFormed {integral : Bool} {rows : List (List Element)} {result : Matrix}
    (done : ofRows integral rows = .ok result) : result.WellFormed := by
  obtain ⟨_, even, _⟩ := ofRows_eq_ok done
  unfold ofRows at done
  simp only at done
  split at done
  · cases done
  · cases done
    rw [WellFormed, Cells.size_collect]
    exact length_flatten_rows even

theorem transpose_wellFormed (matrix : Matrix) : matrix.transpose.WellFormed := by
  rw [WellFormed, transpose, Cells.size_gather]

theorem mapCells_wellFormed {ε : Type} {matrix result : Matrix} {integral : Bool} {f : Element → Except ε Element}
    (wellFormed : matrix.WellFormed) (done : matrix.mapCells integral f = .ok result) : result.WellFormed := by
  obtain ⟨elements, mapped, done⟩ := Except.bind_eq_ok done
  cases done
  have counted := length_mapM f matrix.cells.elements
  rw [mapped, Cells.length_elements] at counted
  rw [WellFormed, Cells.size_collect]
  exact (Except.ok.inj counted).trans wellFormed

theorem combine_wellFormed {operator : String} {f : Element → Element → Except Fault Element}
    {left right result : Matrix} (first : left.WellFormed) (second : right.WellFormed)
    (done : combine operator f left right = .ok result) : result.WellFormed := by
  unfold combine at done
  split at done
  · next same =>
    obtain ⟨elements, mapped, done⟩ := Except.bind_eq_ok done
    cases done
    have counted := length_mapM (fun pair : Element × Element => f pair.1 pair.2)
      (left.cells.elements.zip right.cells.elements)
    rw [mapped, List.length_zip, Cells.length_elements, Cells.length_elements] at counted
    rw [WellFormed, Cells.size_collect, show elements.length = _ from Except.ok.inj counted,
      show left.cells.size = _ from first, show right.cells.size = _ from second, ← same.1, ← same.2, Nat.min_self]
  · cases done

theorem product_wellFormed {left right result : Matrix} (done : product left right = .ok result) :
    result.WellFormed := by
  rw [product_eq] at done
  split at done
  · obtain ⟨_, _, done⟩ := Except.bind_eq_ok done
    obtain ⟨cells, summed, done⟩ := Except.bind_eq_ok done
    cases done
    have counted := length_mapM (fun position => dot? left right (Guarded.zero left right) (position / right.cols)
      (position % right.cols)) (List.range (left.rows * right.cols))
    cases sums : (List.range (left.rows * right.cols)).mapM fun position =>
        dot? left right (Guarded.zero left right) (position / right.cols) (position % right.cols) with
    | none =>
      rw [sums] at summed
      cases summed
    | some elements =>
      rw [sums] at summed counted
      cases summed
      rw [WellFormed, Cells.size_collect]
      exact (Option.some.inj counted).trans List.length_range
  · cases done

theorem select_wellFormed {matrix result : Matrix} {rows cols : Selector}
    (done : matrix.select rows cols = .ok (.matrix result)) : result.WellFormed := by
  obtain ⟨block, _, done⟩ := Except.bind_eq_ok done
  split at done
  · cases done
  · cases done
    exact Cells.size_gather _ _ _

theorem fill_wellFormed {matrix : Matrix} (wellFormed : matrix.WellFormed) (block : Block) (part : Part) :
    (matrix.fill block part).WellFormed := by
  rw [WellFormed, fill, Cells.size_foldl_set]
  exact wellFormed

/-- The matrices that can be made, from nothing and from others that were made before. -/
inductive Obtained : Matrix → Prop where
  | zeros {rows cols : Nat} {result : Matrix} : zeros rows cols = .ok result → Obtained result
  | ones {rows cols : Nat} {result : Matrix} : ones rows cols = .ok result → Obtained result
  | eye {rows cols : Nat} {result : Matrix} : eye rows cols = .ok result → Obtained result
  | ofRows {integral : Bool} {rows : List (List Element)} {result : Matrix} :
      ofRows integral rows = .ok result → Obtained result
  | transpose {matrix : Matrix} : Obtained matrix → Obtained matrix.transpose
  | mapCells {ε : Type} {matrix result : Matrix} {integral : Bool} {f : Element → Except ε Element} :
      Obtained matrix → matrix.mapCells integral f = .ok result → Obtained result
  | combine {operator : String} {f : Element → Element → Except Fault Element} {left right result : Matrix} :
      Obtained left → Obtained right → combine operator f left right = .ok result → Obtained result
  | product {left right result : Matrix} :
      Obtained left → Obtained right → product left right = .ok result → Obtained result
  | select {matrix result : Matrix} {rows cols : Selector} :
      Obtained matrix → matrix.select rows cols = .ok (.matrix result) → Obtained result
  /-- What a write leaves behind when it succeeds. -/
  | written {matrix result : Matrix} {rows cols : Selector} {part : Part} :
      Obtained matrix → write rows cols part matrix = .ok () result → Obtained result
  /-- What a write leaves behind when it fails. -/
  | refused {matrix result : Matrix} {rows cols : Selector} {part : Part} {fault : MatrixFault} :
      Obtained matrix → write rows cols part matrix = .error fault result → Obtained result

theorem write_wellFormed {matrix result : Matrix} {rows cols : Selector} {part : Part}
    (wellFormed : matrix.WellFormed) (done : write rows cols part matrix = .ok () result) : result.WellFormed := by
  have assigned : matrix.assign rows cols part = .ok result := by
    rw [assign, Change.result, done]
  rw [assign_eq] at assigned
  obtain ⟨block, _, assigned⟩ := Except.bind_eq_ok assigned
  obtain ⟨_, _, assigned⟩ := Except.bind_eq_ok assigned
  cases assigned
  exact fill_wellFormed wellFormed block part

theorem Obtained.wellFormed {matrix : Matrix} (obtained : Obtained matrix) : matrix.WellFormed := by
  induction obtained with
  | zeros done => exact sized_wellFormed done
  | ones done => exact sized_wellFormed done
  | eye done => exact sized_wellFormed done
  | ofRows done => exact ofRows_wellFormed done
  | transpose => exact transpose_wellFormed _
  | mapCells _ done ih => exact mapCells_wellFormed ih done
  | combine _ _ done first second => exact combine_wellFormed first second done
  | product _ _ done => exact product_wellFormed done
  | select _ done => exact select_wellFormed done
  | written _ done ih => exact write_wellFormed ih done
  | @refused matrix _ rows cols part fault _ failed ih => rwa [write_atomic matrix rows cols part fault _ failed]

/-- Every operation on a matrix comes to its result without going outside the storage, whatever it is given. -/
structure StaysInside (matrix : Matrix) : Prop where
  get : ∀ row col, Guarded.get matrix row col = some (matrix.get? row col)
  row : ∀ row < matrix.rows, Guarded.row matrix row = some (matrix.row row)
  display : Guarded.display matrix = some matrix.display
  transpose : Guarded.transpose matrix = some matrix.transpose
  mapCells : ∀ {ε : Type} (integral : Bool) (f : Element → Except ε Element),
    (Guarded.mapCells matrix integral f).run = some (matrix.mapCells integral f)
  combine : ∀ operator f (other : Matrix), other.WellFormed →
    (Guarded.combine operator f matrix other).run = some (combine operator f matrix other)
  product : ∀ other : Matrix, other.WellFormed → (Guarded.product matrix other).run = some (product matrix other)
  select : ∀ rows cols, (Guarded.select matrix rows cols).run = some (matrix.select rows cols)
  assign : ∀ rows cols (part : Part), part.WellFormed →
    (Guarded.assign matrix rows cols part).run = some (matrix.assign rows cols part)

theorem WellFormed.staysInside {matrix : Matrix} (wellFormed : matrix.WellFormed) : matrix.StaysInside where
  get := guarded_get wellFormed
  row _ down := guarded_row wellFormed down
  display := guarded_display wellFormed
  transpose := guarded_transpose wellFormed
  mapCells := guarded_mapCells
  combine operator f _ second := guarded_combine operator f wellFormed second
  product _ second := guarded_product wellFormed second
  select := guarded_select wellFormed
  assign rows cols _ partWellFormed := guarded_assign wellFormed rows cols partWellFormed

/-- All matrices have a cell for each position and no others, and no operation goes outside the storage. -/
theorem operations_stay_inside :
    (∀ matrix : Matrix, Obtained matrix → matrix.WellFormed) ∧
      (∀ matrix : Matrix, matrix.WellFormed → matrix.StaysInside) ∧
        ∀ rows cols, (Guarded.eye rows cols).run = some (eye rows cols) :=
  ⟨fun _ obtained => obtained.wellFormed, fun _ wellFormed => wellFormed.staysInside, guarded_eye⟩

end Matrix

end MatrixScript
