import MatrixScript.Proofs.Matrix.Guarded

/-! The matrix product by adding up in place.

All sums start at zero and grow together: the loops go through the rows of the left matrix, along each of them, and
through the columns of the right matrix. Each step changes one cell, so every cell goes through its own steps in order
as if it were alone, and ends as the product has it.
-/

set_option autoImplicit false

namespace MatrixScript

/-- A sum with a product added to it. Among integers, both of them have to fit. -/
def Element.addProduct? : Element → Element → Element → Option Element
  | .int total, .int x, .int y => do
    let product ← Integer.mul? x y
    let sum ← Integer.add? total product
    return .int sum
  | total, x, y => some (.float (total.toFloat + x.toFloat * y.toFloat))

/-- A missing result means that it did not fit. -/
def fitted {α : Type} : Option α → Except MatrixFault α
  | some value => .ok value
  | none => .error .integerOverflow

namespace Guarded

/-- A step of adding up: the cell that changes, and how it does. -/
structure Update where
  position : Nat
  change : Element → Option Element

def update (cells : Cells) (step : Update) : Guarded MatrixFault Cells := do
  let total ← cells.read? step.position
  let sum ← settled (fitted (step.change total))
  cells.write? step.position sum

def Update.at (position : Nat) (total : Element) (step : Update) : Option Element :=
  if step.position = position then step.change total else some total

def sums (left right : Matrix) (cells : Cells) : Guarded MatrixFault Cells :=
  (List.range left.rows).foldlM (fun cells row =>
    (List.range left.cols).foldlM (fun cells k => do
      let x ← left.cells.read? (row * left.cols + k)
      (List.range right.cols).foldlM (fun cells col => do
        let y ← right.cells.read? (k * right.cols + col)
        update cells ⟨row * right.cols + col, fun total => total.addProduct? x y⟩) cells) cells) cells

def zero (left right : Matrix) : Element := if left.isIntegral && right.isIntegral then .int 0 else .float 0

def zeros (left right : Matrix) : Cells :=
  .collect (left.isIntegral && right.isIntegral) (List.replicate (left.rows * right.cols) (zero left right))

def product (left right : Matrix) : Guarded MatrixFault Matrix :=
  if left.cols = right.rows then do
    settled (Matrix.checkSize left.rows right.cols)
    let cells ← sums left right (zeros left right)
    return ⟨left.rows, right.cols, cells⟩
  else
    throw (.shapeMismatch "*" left.extent right.extent)

end Guarded

section

variable {α β σ : Type}

theorem mapM_eq_none {items : List α} {f : α → Option β} {item : α} (member : item ∈ items) (missing : f item = none) :
    items.mapM f = none := by
  induction items with
  | nil => cases member
  | cons first rest ih =>
    rw [List.mapM_cons]
    rcases List.mem_cons.mp member with rfl | member
    · rw [missing]
      rfl
    · rw [ih member]
      cases f first <;> rfl

theorem mapM_map_some {γ : Type} (f : α → Option β) (g : β → γ) (items : List α) :
    (items.mapM fun item => (f item).map g) = (items.mapM f).map (List.map g) := by
  induction items with
  | nil => rfl
  | cons item rest ih =>
    rw [List.mapM_cons, List.mapM_cons, ih]
    cases f item <;> cases rest.mapM f <;> rfl

theorem foldlM_idle {items : List α} {f : σ → α → Option σ} {state : σ}
    (idle : ∀ item ∈ items, f state item = some state) : items.foldlM f state = some state := by
  induction items with
  | nil => rfl
  | cons item rest ih =>
    rw [List.foldlM_cons, idle item List.mem_cons_self]
    exact ih fun item member => idle item (List.mem_cons_of_mem _ member)

theorem foldlM_through {τ : Type} {f : τ → α → Option τ} {g : σ → τ} {h : σ → α → Option σ}
    (same : ∀ state item, f (g state) item = (h state item).map g) (items : List α) (state : σ) :
    items.foldlM f (g state) = (items.foldlM h state).map g := by
  induction items generalizing state with
  | nil => rfl
  | cons item rest ih =>
    rw [List.foldlM_cons, List.foldlM_cons, same]
    cases h state item with
    | none => rfl
    | some later => exact ih later

theorem foldlM_once {count index : Nat} (small : index < count) (f : σ → Option σ) (state : σ) :
    (List.range count).foldlM (fun state i => if i = index then f state else some state) state = f state := by
  induction count with
  | zero => cases small
  | succ count ih =>
    rw [List.range_succ, List.foldlM_append]
    by_cases last : index = count
    · rw [foldlM_idle]
      · cases done : f state <;> simp [last, done]
      · intro i member
        have := List.mem_range.mp member
        exact if_neg (by omega)
    · rw [ih (by omega)]
      cases done : f state <;> simp [Ne.symm last]

end

namespace Guarded

theorem update_eq {cells : Cells} {step : Update} (inside : step.position < cells.size) :
    update cells step =
      settled (fitted ((step.change (cells.get step.position)).map (cells.set step.position))) := by
  rw [update, Cells.read?_eq_some inside]
  show (settled (fitted (step.change (cells.get step.position))) >>= fun sum =>
    liftM (cells.write? step.position sum)) = _
  cases step.change (cells.get step.position) with
  | none => rfl
  | some sum =>
    have written : cells.write? step.position sum = some (cells.set step.position sum) := if_pos inside
    show (liftM (cells.write? step.position sum) : Guarded MatrixFault Cells) = _
    rw [written]
    rfl

/-- Steps change the cells one by one, and each cell only by the steps that are for it. -/
theorem foldlM_update {steps : List Update} {cells : Cells} (inside : ∀ step ∈ steps, step.position < cells.size)
    (kept : ∀ step ∈ steps, ∀ total sum, total.isInt = cells.isIntegral → step.change total = some sum →
      sum.isInt = cells.isIntegral) :
    steps.foldlM update cells = settled (fitted
      (((List.range cells.size).mapM fun position => steps.foldlM (Update.at position) (cells.get position)).map
        (Cells.collect cells.isIntegral))) := by
  induction steps generalizing cells with
  | nil =>
    have read : ((List.range cells.size).mapM fun position => some (cells.get position)) = some cells.elements := by
      rw [Cells.elements_eq_map_range]
      exact mapM_eq_some fun _ _ => rfl
    show settled (.ok cells) = settled (fitted (((List.range cells.size).mapM fun position => some _).map _))
    rw [read, Option.map_some, Cells.collect_elements]
    rfl
  | cons step rest ih =>
    have here := inside step List.mem_cons_self
    rw [List.foldlM_cons, update_eq here]
    cases changed : step.change (cells.get step.position) with
    | none =>
      -- the cell of the step stops the sums of all others
      have stopped : (step :: rest).foldlM (Update.at step.position) (cells.get step.position) = none := by
        rw [List.foldlM_cons, Update.at, if_pos rfl, changed]
        rfl
      rw [mapM_eq_none (List.mem_range.mpr here) stopped]
      rfl
    | some sum =>
      have kind : sum.isInt = cells.isIntegral :=
        kept step List.mem_cons_self _ sum (Cells.isInt_get cells step.position) changed
      have alone (position : Nat) : (step :: rest).foldlM (Update.at position) (cells.get position) =
          rest.foldlM (Update.at position) ((cells.set step.position sum).get position) := by
        rw [List.foldlM_cons, Update.at, Cells.get_set cells here]
        by_cases same : step.position = position
        · rw [if_pos same, if_pos same, ← same, changed, ← kind, Element.storedAs_isInt]
          rfl
        · rw [if_neg same, if_neg same]
          rfl
      have later := @ih (cells.set step.position sum)
        (fun step member => by rw [Cells.size_set]; exact inside step (List.mem_cons_of_mem _ member))
        (fun step member => by rw [Cells.isIntegral_set]; exact kept step (List.mem_cons_of_mem _ member))
      rw [Cells.size_set, Cells.isIntegral_set] at later
      simp only [alone, ← later]
      rfl

end Guarded

namespace Matrix

section

variable (left right : Matrix)

def addTerm? (row col : Nat) (total : Element) (k : Nat) : Option Element :=
  total.addProduct? (left.cells.get (row * left.cols + k)) (right.cells.get (k * right.cols + col))

def dot? (zero : Element) (row col : Nat) : Option Element :=
  (List.range left.cols).foldlM (addTerm? left right row col) zero

/-- The steps of a product, in the order in which they are taken. -/
def productSteps : List Guarded.Update :=
  (List.range left.rows).flatMap fun row => (List.range left.cols).flatMap fun k =>
    (List.range right.cols).map fun col => ⟨row * right.cols + col, fun total => addTerm? left right row col total k⟩

variable {left right}

theorem guarded_sums (first : left.WellFormed) (second : right.WellFormed) (same : left.cols = right.rows)
    (cells : Cells) : Guarded.sums left right cells = (productSteps left right).foldlM Guarded.update cells := by
  rw [productSteps, foldlM_flatMap]
  apply foldlM_congr
  intro row down cells
  rw [foldlM_flatMap]
  apply foldlM_congr
  intro k across cells
  rw [Cells.read?_eq_some (first.inside (List.mem_range.mp down) (List.mem_range.mp across)), List.foldlM_map]
  apply foldlM_congr
  intro col within cells
  rw [Cells.read?_eq_some (second.inside (same ▸ List.mem_range.mp across) (List.mem_range.mp within))]
  rfl

theorem rowSteps_at {row col : Nat} (across : col < right.cols) (other k : Nat) (total : Element) :
    ((List.range right.cols).map fun col' => Guarded.Update.mk (other * right.cols + col') fun total =>
        addTerm? left right other col' total k).foldlM (Guarded.Update.at (row * right.cols + col)) total =
      if other = row then addTerm? left right row col total k else some total := by
  rw [List.foldlM_map]
  split
  · next same =>
    apply Eq.trans _ (foldlM_once across (fun total => addTerm? left right row col total k) total)
    apply foldlM_congr
    intro col' _ total
    by_cases here : col' = col <;> simp [Guarded.Update.at, here, same]
  · next different =>
    apply foldlM_idle
    intro col' member
    apply if_neg
    intro same
    have rows : (other * right.cols + col') / right.cols = (row * right.cols + col) / right.cols :=
      congrArg (· / _) same
    rw [(cell_div_mod other (List.mem_range.mp member)).1, (cell_div_mod row across).1] at rows
    exact different rows

theorem productSteps_at {row col : Nat} (down : row < left.rows) (across : col < right.cols) (zero : Element) :
    (productSteps left right).foldlM (Guarded.Update.at (row * right.cols + col)) zero =
      dot? left right zero row col := by
  rw [productSteps, foldlM_flatMap]
  apply Eq.trans _ (foldlM_once down (fun total => dot? left right total row col) zero)
  apply foldlM_congr
  intro other _ total
  rw [foldlM_flatMap]
  simp only [rowSteps_at across]
  split
  · rfl
  · exact foldlM_idle fun _ _ => rfl

end

theorem dot?_ints (rows inner width : Nat) (a b : Array Int64) (rows' row col : Nat) :
    dot? ⟨rows, inner, .ints a⟩ ⟨rows', width, .ints b⟩ (.int 0) row col =
      (intDot inner width a b row col).map .int := by
  apply foldlM_through
  intro total k
  show (do
    let product ← Integer.mul? (a.getD (row * inner + k) 0) (b.getD (k * width + col) 0)
    let sum ← Integer.add? total product
    return Element.int sum) = _
  cases Integer.mul? (a.getD (row * inner + k) 0) (b.getD (k * width + col) 0) with
  | none => rfl
  | some product => cases done : Integer.add? total product <;> simp [done]

theorem dot?_floats (left right : Matrix) (row col : Nat) :
    dot? left right (.float 0) row col =
      some (.float (floatDot left.cols right.cols left.cells right.cells row col)) := by
  have step (total : Float) (k : Nat) : addTerm? left right row col (.float total) k =
      (some (total + (left.cells.get (row * left.cols + k)).toFloat *
        (right.cells.get (k * right.cols + col)).toFloat)).map .float := rfl
  exact (foldlM_through step (List.range left.cols) 0).trans (congrArg (Option.map _) List.foldlM_pure)

theorem dots_ints (rows inner width rows' : Nat) (a b : Array Int64) :
    ((List.range (rows * width)).mapM fun i =>
        dot? ⟨rows, inner, .ints a⟩ ⟨rows', width, .ints b⟩ (.int 0) (i / width) (i % width)) =
      ((List.range (rows * width)).mapM fun i => intDot inner width a b (i / width) (i % width)).map
        (List.map .int) := by
  simp only [dot?_ints]
  exact mapM_map_some _ _ _

theorem mixed_of_not_ints {cells cells' : Cells} (kinds : ∀ a b, cells = .ints a → cells' = .ints b → False) :
    (cells.isIntegral && cells'.isIntegral) = false := by
  cases cells with
  | floats _ => rfl
  | ints a =>
    cases cells' with
    | floats _ => rfl
    | ints b => exact absurd rfl (kinds a b rfl)

theorem product_eq (left right : Matrix) :
    product left right = if left.cols = right.rows then do
      checkSize left.rows right.cols
      let cells ← fitted (((List.range (left.rows * right.cols)).mapM fun position =>
        dot? left right (Guarded.zero left right) (position / right.cols) (position % right.cols)).map
          (Cells.collect (left.isIntegral && right.isIntegral)))
      return ⟨left.rows, right.cols, cells⟩
    else throw (.shapeMismatch "*" left.extent right.extent) := by
  unfold product
  split
  · congr 1
    funext _
    obtain ⟨rows, inner, cells⟩ := left
    obtain ⟨rows', width, cells'⟩ := right
    simp only
    -- two matrices of integers, or sums of floats that always fit
    split
    · next a b _ =>
      show _ = (fitted (((List.range (rows * width)).mapM fun i =>
        dot? ⟨rows, inner, .ints a⟩ ⟨rows', width, .ints b⟩ (.int 0) (i / width) (i % width)).map
          (Cells.collect true)) >>= _)
      rw [dots_ints]
      cases (List.range (rows * width)).mapM fun i => intDot inner width a b (i / width) (i % width) with
      | none => rfl
      | some data => simp [fitted, Cells.collect, pure, Except.pure, bind, Except.bind]
    · next kinds =>
      have mixed := mixed_of_not_ints kinds
      have sums : ((List.range (rows * width)).mapM fun i =>
          dot? ⟨rows, inner, cells⟩ ⟨rows', width, cells'⟩ (.float 0) (i / width) (i % width)) =
            some ((List.range (rows * width)).map fun i =>
              .float (floatDot inner width cells cells' (i / width) (i % width))) :=
        mapM_eq_some fun _ _ => dot?_floats _ _ _ _
      simp only [Guarded.zero, isIntegral, mixed, Bool.false_eq_true, if_false]
      rw [sums]
      simp [fitted, Cells.collect, pure, Except.pure, bind, Except.bind, Function.comp_def, Element.toFloat]
  · rfl

theorem addTerm?_kind {left right : Matrix} {row col k : Nat} {total sum : Element}
    (kind : total.isInt = (left.isIntegral && right.isIntegral))
    (added : addTerm? left right row col total k = some sum) :
    sum.isInt = (left.isIntegral && right.isIntegral) := by
  have isInt := Cells.isInt_get left.cells (row * left.cols + k)
  have isInt' := Cells.isInt_get right.cells (k * right.cols + col)
  unfold addTerm? at added
  unfold isIntegral at kind ⊢
  rw [← isInt, ← isInt'] at kind ⊢
  generalize left.cells.get (row * left.cols + k) = x at *
  generalize right.cells.get (k * right.cols + col) = y at *
  cases total with
  | float total =>
    cases added
    exact kind
  | int total =>
    cases x with
    | float x => cases kind
    | int x =>
      cases y with
      | float y => cases kind
      | int y =>
        obtain ⟨product, _, added⟩ := Option.bind_eq_some_iff.mp added
        obtain ⟨result, _, added⟩ := Option.bind_eq_some_iff.mp added
        cases added
        rfl

theorem guarded_zero_isInt (left right : Matrix) :
    (Guarded.zero left right).isInt = (left.isIntegral && right.isIntegral) := by
  unfold Guarded.zero
  cases left.isIntegral && right.isIntegral <;> rfl

theorem get_guarded_zeros {left right : Matrix} {position : Nat} (inside : position < left.rows * right.cols) :
    (Guarded.zeros left right).get position = Guarded.zero left right := by
  rw [Guarded.zeros, Cells.get_collect (by simpa using inside), ← guarded_zero_isInt]
  simp [Element.storedAs_isInt]

theorem mem_productSteps {left right : Matrix} {step : Guarded.Update} (member : step ∈ productSteps left right) :
    ∃ row < left.rows, ∃ k < left.cols, ∃ col < right.cols,
      step = ⟨row * right.cols + col, fun total => addTerm? left right row col total k⟩ := by
  simp only [productSteps, List.mem_flatMap, List.mem_map, List.mem_range] at member
  obtain ⟨row, down, k, across, col, within, rfl⟩ := member
  exact ⟨row, down, k, across, col, within, rfl⟩

/-- All cells start from zero, and end as the sums of their rows and columns. -/
theorem productSteps_run (left right : Matrix) :
    (productSteps left right).foldlM Guarded.update (Guarded.zeros left right) =
      Guarded.settled (fitted (((List.range (left.rows * right.cols)).mapM fun position =>
        dot? left right (Guarded.zero left right) (position / right.cols) (position % right.cols)).map
          (Cells.collect (left.isIntegral && right.isIntegral)))) := by
  have size : (Guarded.zeros left right).size = left.rows * right.cols := by simp [Guarded.zeros]
  have kind : (Guarded.zeros left right).isIntegral = (left.isIntegral && right.isIntegral) := by simp [Guarded.zeros]
  rw [Guarded.foldlM_update, size, kind]
  · congr 3
    apply mapM_congr
    intro position member
    have inside := List.mem_range.mp member
    obtain ⟨down, across⟩ := div_mod_lt inside
    rw [get_guarded_zeros inside, ← productSteps_at down across, Nat.div_add_mod']
  · intro step member
    obtain ⟨row, down, k, _, col, across, rfl⟩ := mem_productSteps member
    rw [size]
    exact cell_lt down across
  · intro step member total sum before added
    obtain ⟨row, down, k, _, col, across, rfl⟩ := mem_productSteps member
    rw [kind] at before ⊢
    exact addTerm?_kind before added

theorem guarded_product {left right : Matrix} (first : left.WellFormed) (second : right.WellFormed) :
    Guarded.product left right = Guarded.settled (product left right) := by
  rw [product_eq, Guarded.product]
  split
  · next same =>
    rw [guarded_sums first second same, productSteps_run]
    cases checkSize left.rows right.cols with
    | error fault => rfl
    | ok => exact Guarded.settled_bind _ _
  · rfl

end Matrix

end MatrixScript
