import MatrixScript.Proofs.Matrix.Cells

/-! Matrix operations that look before they touch the storage.

Here every operation is written once more as loops over rows and columns, with a check in front of each access to a
cell: an access outside the storage ends the whole computation. On well-formed matrices no check ever fails, and the
loops come to what the operations come to.
-/

set_option autoImplicit false

namespace MatrixScript

section

variable {α β σ : Type} {m : Type → Type} [Monad m]

theorem mapM_eq_pure [LawfulMonad m] {items : List α} {f : α → m β} {g : α → β}
    (same : ∀ item ∈ items, f item = pure (g item)) : items.mapM f = pure (items.map g) := by
  induction items with
  | nil => rfl
  | cons item rest ih =>
    rw [List.mapM_cons, same item List.mem_cons_self, ih fun item member => same item (List.mem_cons_of_mem _ member),
      pure_bind, pure_bind, List.map_cons]

theorem mapM_eq_some {items : List α} {f : α → Option β} {g : α → β} (same : ∀ item ∈ items, f item = some (g item)) :
    items.mapM f = some (items.map g) := mapM_eq_pure same

theorem mapM_congr [LawfulMonad m] {items : List α} {f g : α → m β} (same : ∀ item ∈ items, f item = g item) :
    items.mapM f = items.mapM g := by
  induction items with
  | nil => rfl
  | cons item rest ih =>
    rw [List.mapM_cons, List.mapM_cons, same item List.mem_cons_self,
      ih fun item member => same item (List.mem_cons_of_mem _ member)]

theorem foldlM_congr {items : List α} {f g : σ → α → m σ} (same : ∀ item ∈ items, ∀ state, f state item = g state item)
    (state : σ) : items.foldlM f state = items.foldlM g state := by
  induction items generalizing state with
  | nil => rfl
  | cons item rest ih =>
    rw [List.foldlM_cons, List.foldlM_cons, same item List.mem_cons_self]
    congr 1
    funext later
    exact ih (fun item member => same item (List.mem_cons_of_mem _ member)) later

theorem foldlM_flatMap [LawfulMonad m] (items : List α) (inner : α → List β) (f : σ → β → m σ) (state : σ) :
    (items.flatMap inner).foldlM f state = items.foldlM (fun state item => (inner item).foldlM f state) state := by
  induction items generalizing state with
  | nil => rfl
  | cons item rest ih =>
    rw [List.flatMap_cons, List.foldlM_append, List.foldlM_cons]
    congr 1
    funext later
    exact ih later

theorem flatMap_range_map (height width : Nat) (f : Nat → Nat → α) :
    ((List.range height).flatMap fun row => (List.range width).map (f row)) =
      (List.range (height * width)).map fun i => f (i / width) (i % width) := by
  induction height with
  | zero => simp
  | succ height ih =>
    rw [List.range_succ, List.flatMap_append, ih, Nat.succ_mul, List.range_add, List.map_append, List.map_map,
      List.flatMap_singleton]
    congr 1
    apply List.map_congr_left
    intro col member
    obtain ⟨down, across⟩ := cell_div_mod height (List.mem_range.mp member)
    simp only [Function.comp, down, across]

end

theorem foldlM_rows {σ : Type} {m : Type → Type} [Monad m] [LawfulMonad m] (height width : Nat)
    (f : σ → Nat → Nat → m σ) (state : σ) :
    (List.range height).foldlM (fun state row =>
        (List.range width).foldlM (fun state col => f state row col) state) state =
      (List.range (height * width)).foldlM (fun state i => f state (i / width) (i % width)) state := by
  have pairs := foldlM_flatMap (List.range height) (fun row => (List.range width).map (Prod.mk row))
    (fun state cell => f state cell.1 cell.2) state
  rw [flatMap_range_map, List.foldlM_map] at pairs
  simp only [List.foldlM_map] at pairs
  exact pairs.symm

namespace Cells

variable {cells : Cells}

def read? (cells : Cells) (position : Nat) : Option Element :=
  if position < cells.size then some (cells.get position) else none

def write? (cells : Cells) (position : Nat) (element : Element) : Option Cells :=
  if position < cells.size then some (cells.set position element) else none

def gather? (cells : Cells) (positions : List Nat) : Option Cells := do
  let elements ← positions.mapM cells.read?
  return collect cells.isIntegral elements

theorem read?_eq_some {position : Nat} (inside : position < cells.size) :
    cells.read? position = some (cells.get position) := if_pos inside

theorem gather?_eq_some {count : Nat} {position : Nat → Nat} (inside : ∀ i < count, position i < cells.size) :
    cells.gather? ((List.range count).map position) = some (cells.gather count position) := by
  have found : ((List.range count).map position).mapM cells.read? =
      some (((List.range count).map position).map cells.get) := by
    apply mapM_eq_some
    intro place member
    obtain ⟨i, listed, rfl⟩ := List.mem_map.mp member
    exact read?_eq_some (inside i (List.mem_range.mp listed))
  rw [gather?, found, gather_eq_collect, List.map_map]
  rfl

/-- Writing keeps the number of cells, so what is inside at first stays inside. -/
theorem foldlM_write? {items : List Nat} {place : Nat → Nat} {element : Nat → Element}
    (inside : ∀ i ∈ items, place i < cells.size) :
    items.foldlM (fun cells i => cells.write? (place i) (element i)) cells =
      some (items.foldl (fun cells i => cells.set (place i) (element i)) cells) := by
  induction items generalizing cells with
  | nil => rfl
  | cons i rest ih =>
    have first : cells.write? (place i) (element i) = some (cells.set (place i) (element i)) :=
      if_pos (inside i List.mem_cons_self)
    rw [List.foldlM_cons, first]
    apply ih
    intro j member
    rw [size_set]
    exact inside j (List.mem_cons_of_mem _ member)

@[simp] theorem size_foldl_set (items : List Nat) (place : Nat → Nat) (element : Nat → Element) :
    (items.foldl (fun cells i => cells.set (place i) (element i)) cells).size = cells.size := by
  induction items generalizing cells with
  | nil => rfl
  | cons i rest ih => rw [List.foldl_cons, ih, size_set]

section

variable {items : List Nat} {place : Nat → Nat} {element : Nat → Element}
  (inside : ∀ i ∈ items, place i < cells.size)

include inside

theorem get_foldl_set_of_not_mem {position : Nat} (apart : position ∉ items.map place) :
    (items.foldl (fun cells i => cells.set (place i) (element i)) cells).get position = cells.get position := by
  induction items generalizing cells with
  | nil => rfl
  | cons i rest ih =>
    rw [List.map_cons, List.mem_cons, not_or] at apart
    rw [List.foldl_cons, ih (fun j member => by simpa using inside j (List.mem_cons_of_mem _ member)) apart.2,
      get_set cells (inside i List.mem_cons_self), if_neg (Ne.symm apart.1)]

theorem get_foldl_set_of_mem (consistent : ∀ i ∈ items, ∀ j ∈ items, place i = place j → element i = element j)
    {i : Nat} (member : i ∈ items) :
    (items.foldl (fun cells i => cells.set (place i) (element i)) cells).get (place i) =
      (element i).storedAs cells.isIntegral := by
  induction items generalizing cells i with
  | nil => cases member
  | cons first rest ih =>
    have later : ∀ j ∈ rest, place j < (cells.set (place first) (element first)).size := fun j listed => by
      simpa using inside j (List.mem_cons_of_mem _ listed)
    rw [List.foldl_cons]
    by_cases again : place i ∈ rest.map place
    · obtain ⟨j, listed, same⟩ := List.mem_map.mp again
      rw [← same, ih later (fun k listed l listed' =>
        consistent k (List.mem_cons_of_mem _ listed) l (List.mem_cons_of_mem _ listed')) listed, isIntegral_set,
        consistent j (List.mem_cons_of_mem _ listed) i member same]
    · rcases List.mem_cons.mp member with rfl | listed
      · rw [get_foldl_set_of_not_mem later again, get_set cells (inside i List.mem_cons_self), if_pos rfl]
      · exact absurd (List.mem_map_of_mem listed) again

end

theorem get_foldl_set {items : List Nat} {place : Nat → Nat} {element : Element}
    (inside : ∀ i ∈ items, place i < cells.size) (position : Nat) :
    (items.foldl (fun cells i => cells.set (place i) element) cells).get position =
      if position ∈ items.map place then element.storedAs cells.isIntegral else cells.get position := by
  split
  · next written =>
    obtain ⟨i, member, rfl⟩ := List.mem_map.mp written
    exact get_foldl_set_of_mem inside (fun _ _ _ _ _ => rfl) member
  · next apart => exact get_foldl_set_of_not_mem inside apart

end Cells

/-- A computation on storage: nothing when it goes outside, otherwise its result or the fault that stops it. -/
abbrev Guarded (ε α : Type) := ExceptT ε Option α

namespace Guarded

variable {ε α β : Type}

def settled (outcome : Except ε α) : Guarded ε α := ExceptT.mk (some outcome)

theorem settled_bind (outcome : Except ε α) (next : α → Except ε β) :
    (settled outcome >>= fun value => settled (next value)) = settled (outcome >>= next) := by
  cases outcome <;> rfl

theorem mapM_settled {items : List α} {body : α → Guarded ε β} {plain : α → Except ε β}
    (same : ∀ item ∈ items, body item = settled (plain item)) : items.mapM body = settled (items.mapM plain) := by
  induction items with
  | nil => rfl
  | cons item rest ih =>
    rw [List.mapM_cons, List.mapM_cons, same item List.mem_cons_self,
      ih fun item member => same item (List.mem_cons_of_mem _ member), ← settled_bind]
    congr 1
    funext value
    exact settled_bind _ _

end Guarded

namespace Guarded

def get (matrix : Matrix) (row col : Nat) : Option (Option Element) :=
  if row < matrix.rows ∧ col < matrix.cols then (matrix.cells.read? (row * matrix.cols + col)).map some else some none

def row (matrix : Matrix) (row : Nat) : Option (List Element) :=
  (List.range matrix.cols).mapM fun col => matrix.cells.read? (row * matrix.cols + col)

def display (matrix : Matrix) : Option String := do
  let lines ← (List.range matrix.rows).mapM fun r => do
    let cells ← row matrix r
    return "[" ++ ", ".intercalate (cells.map Element.display) ++ "]"
  return "[" ++ ", ".intercalate lines ++ "]"

def eye (rows cols : Nat) : Guarded MatrixFault Matrix := do
  let matrix ← settled (Matrix.zeros rows cols)
  let cells ← ExceptT.lift
    ((List.range (min rows cols)).foldlM (fun cells i => cells.write? (i * cols + i) (.int 1)) matrix.cells)
  return { matrix with cells }

def transpose (matrix : Matrix) : Option Matrix := do
  let cells ← matrix.cells.gather?
    ((List.range matrix.cols).flatMap fun col => (List.range matrix.rows).map fun row => row * matrix.cols + col)
  return ⟨matrix.cols, matrix.rows, cells⟩

def mapCells {ε : Type} (matrix : Matrix) (integral : Bool) (f : Element → Except ε Element) : Guarded ε Matrix := do
  let elements ← (List.range matrix.cells.size).mapM fun i => do
    let element ← matrix.cells.read? i
    settled (f element)
  return { matrix with cells := .collect integral elements }

def combine (operator : String) (f : Element → Element → Except Fault Element) (left right : Matrix) :
    Guarded Fault Matrix :=
  if left.rows = right.rows ∧ left.cols = right.cols then do
    let elements ← (List.range left.cells.size).mapM fun i => do
      let first ← left.cells.read? i
      let second ← right.cells.read? i
      settled (f first second)
    return { left with cells := .collect (left.isIntegral && right.isIntegral) elements }
  else
    throw (MatrixFault.shapeMismatch operator left.extent right.extent).toFault

def select (matrix : Matrix) (rows cols : Selector) : Guarded MatrixFault Part := do
  let block ← settled (matrix.block rows cols)
  if rows.isPoint && cols.isPoint then
    let element ← matrix.cells.read? (block.row * matrix.cols + block.col)
    return .scalar element
  else
    let cells ← matrix.cells.gather? ((List.range block.height).flatMap fun row =>
      (List.range block.width).map fun col => (block.row + row) * matrix.cols + (block.col + col))
    return .matrix ⟨block.height, block.width, cells⟩

def cell (part : Part) (position : Nat) : Option Element :=
  match part with
  | .scalar element => some element
  | .matrix values => values.cells.read? position

def fill (matrix : Matrix) (block : Matrix.Block) (part : Part) : Option Matrix := do
  let cells ← (List.range block.height).foldlM (fun cells row =>
    (List.range block.width).foldlM (fun cells col => do
      let element ← cell part (row * block.width + col)
      cells.write? ((block.row + row) * matrix.cols + (block.col + col)) element) cells) matrix.cells
  return { matrix with cells }

def assign (matrix : Matrix) (rows cols : Selector) (part : Part) : Guarded MatrixFault Matrix := do
  let block ← settled (matrix.block rows cols)
  settled (Matrix.fits part block)
  fill matrix block part

end Guarded

/-- A scalar, or a matrix with a cell for every position. -/
def Part.WellFormed : Part → Prop
  | .scalar _ => True
  | .matrix values => values.WellFormed

theorem Selector.resolve_bounds {selector : Selector} {length first last : Nat}
    (resolved : selector.resolve length = .ok (first, last)) :
    first ≤ last ∧ last ≤ length ∧ (selector.isPoint → last = first + 1) := by
  cases selector with
  | point index =>
    simp only [resolve] at resolved
    split at resolved
    · cases resolved
      omega
    · cases resolved
  | span start stop =>
    simp only [resolve] at resolved
    split at resolved
    · cases resolved
    · split at resolved
      · cases resolved
      · split at resolved
        · cases resolved
        · cases resolved
          simp only [isPoint, Bool.false_eq_true, false_implies, and_true]
          omega

namespace Matrix

variable {matrix : Matrix}

theorem WellFormed.inside (wellFormed : matrix.WellFormed) {row col : Nat} (down : row < matrix.rows)
    (across : col < matrix.cols) : row * matrix.cols + col < matrix.cells.size := by
  rw [show matrix.cells.size = _ from wellFormed]
  exact cell_lt down across

theorem guarded_get (wellFormed : matrix.WellFormed) (row col : Nat) :
    Guarded.get matrix row col = some (matrix.get? row col) := by
  unfold Guarded.get get?
  split
  · next known =>
    rw [Cells.read?_eq_some (wellFormed.inside known.1 known.2)]
    rfl
  · rfl

theorem guarded_row (wellFormed : matrix.WellFormed) {row : Nat} (down : row < matrix.rows) :
    Guarded.row matrix row = some (matrix.row row) := by
  apply mapM_eq_some
  intro col member
  exact Cells.read?_eq_some (wellFormed.inside down (List.mem_range.mp member))

theorem guarded_display (wellFormed : matrix.WellFormed) : Guarded.display matrix = some matrix.display := by
  have lines : ((List.range matrix.rows).mapM fun r => do
      let cells ← Guarded.row matrix r
      return "[" ++ ", ".intercalate (cells.map Element.display) ++ "]") =
        some ((List.range matrix.rows).map matrix.displayRow) := by
    apply mapM_eq_some
    intro r member
    rw [guarded_row wellFormed (List.mem_range.mp member)]
    rfl
  rw [Guarded.display, lines]
  rfl

theorem guarded_transpose (wellFormed : matrix.WellFormed) : Guarded.transpose matrix = some matrix.transpose := by
  rw [Guarded.transpose, flatMap_range_map matrix.cols matrix.rows fun col row => row * matrix.cols + col,
    Cells.gather?_eq_some]
  · rfl
  · intro i small
    obtain ⟨across, down⟩ := div_mod_lt small
    exact wellFormed.inside down across

theorem guarded_mapCells {ε : Type} (integral : Bool) (f : Element → Except ε Element) :
    Guarded.mapCells matrix integral f = Guarded.settled (matrix.mapCells integral f) := by
  have read : ((List.range matrix.cells.size).mapM fun i => do
      let element ← matrix.cells.read? i
      Guarded.settled (f element) : Guarded ε (List Element)) = Guarded.settled (matrix.cells.elements.mapM f) := by
    rw [Cells.elements_eq_map_range, List.mapM_map]
    apply Guarded.mapM_settled
    intro i member
    rw [Cells.read?_eq_some (List.mem_range.mp member)]
    rfl
  rw [Guarded.mapCells, read, mapCells, ← Guarded.settled_bind]
  rfl

theorem guarded_combine (operator : String) (f : Element → Element → Except Fault Element) {left right : Matrix}
    (first : left.WellFormed) (second : right.WellFormed) :
    Guarded.combine operator f left right = Guarded.settled (combine operator f left right) := by
  unfold Guarded.combine combine
  split
  · next same =>
    have sizes : right.cells.size = left.cells.size := by
      rw [show left.cells.size = _ from first, show right.cells.size = _ from second, same.1, same.2]
    have read : ((List.range left.cells.size).mapM fun i => do
        let first ← left.cells.read? i
        let second ← right.cells.read? i
        Guarded.settled (f first second) : Guarded Fault (List Element)) =
          Guarded.settled ((left.cells.elements.zip right.cells.elements).mapM fun pair => f pair.1 pair.2) := by
      rw [Cells.zip_elements sizes, List.mapM_map]
      apply Guarded.mapM_settled
      intro i member
      have inside := List.mem_range.mp member
      rw [Cells.read?_eq_some inside, Cells.read?_eq_some (sizes ▸ inside)]
      rfl
    rw [read, ← Guarded.settled_bind]
    rfl
  · rfl

/-- A block lies within the matrix that it was found in, and has a cell where it was found by points. -/
theorem block_inside {rows cols : Selector} {block : Block} (found : matrix.block rows cols = .ok block) :
    block.row + block.height ≤ matrix.rows ∧ block.col + block.width ≤ matrix.cols ∧
      (rows.isPoint → block.height = 1) ∧ (cols.isPoint → block.width = 1) := by
  obtain ⟨⟨first, last⟩, down, found⟩ := Except.bind_eq_ok found
  obtain ⟨⟨first', last'⟩, across, found⟩ := Except.bind_eq_ok found
  cases found
  obtain ⟨forward, within, single⟩ := Selector.resolve_bounds down
  obtain ⟨forward', within', single'⟩ := Selector.resolve_bounds across
  simp only
  refine ⟨by omega, by omega, fun point => ?_, fun point => ?_⟩
  · have := single point
    omega
  · have := single' point
    omega

theorem guarded_select (wellFormed : matrix.WellFormed) (rows cols : Selector) :
    Guarded.select matrix rows cols = Guarded.settled (matrix.select rows cols) := by
  unfold Guarded.select select
  cases found : matrix.block rows cols with
  | error fault => rfl
  | ok block =>
    obtain ⟨down, across, high, wide⟩ := block_inside found
    show (if rows.isPoint && cols.isPoint then _ else _) =
      Guarded.settled (if rows.isPoint && cols.isPoint then _ else _)
    split
    · next points =>
      obtain ⟨rowPoint, colPoint⟩ := Bool.and_eq_true_iff.mp points
      have oneRow := high rowPoint
      have oneCol := wide colPoint
      rw [Cells.read?_eq_some (wellFormed.inside (by omega) (by omega))]
      rfl
    · rw [flatMap_range_map block.height block.width fun row col => (block.row + row) * matrix.cols + (block.col + col),
        Cells.gather?_eq_some]
      · rfl
      · intro i small
        obtain ⟨row, col⟩ := div_mod_lt small
        exact wellFormed.inside (by omega) (by omega)

theorem guarded_cell {part : Part} {block : Block} (wellFormed : part.WellFormed) (fitting : fits part block = .ok ())
    {i : Nat} (small : i < block.height * block.width) : Guarded.cell part i = some (part.cell i) := by
  cases part with
  | scalar element => rfl
  | matrix values =>
    simp only [fits] at fitting
    split at fitting
    · next same =>
      apply Cells.read?_eq_some
      rwa [show values.cells.size = _ from wellFormed, same.1, same.2]
    · cases fitting

theorem guarded_fill (wellFormed : matrix.WellFormed) {block : Block} {part : Part}
    (down : block.row + block.height ≤ matrix.rows) (across : block.col + block.width ≤ matrix.cols)
    (cells : ∀ i, i < block.height * block.width → Guarded.cell part i = some (part.cell i)) :
    Guarded.fill matrix block part = some (matrix.fill block part) := by
  have step (i : Nat) (member : i ∈ List.range (block.height * block.width)) (state : Cells) :
      (do
        let element ← Guarded.cell part (i / block.width * block.width + i % block.width)
        state.write? ((block.row + i / block.width) * matrix.cols + (block.col + i % block.width)) element) =
          state.write? (block.position matrix.cols i) (part.cell i) := by
    rw [Nat.div_add_mod', cells i (List.mem_range.mp member)]
    rfl
  rw [Guarded.fill, foldlM_rows, foldlM_congr step, Cells.foldlM_write?]
  · rfl
  · intro i member
    obtain ⟨row, col⟩ := div_mod_lt (List.mem_range.mp member)
    exact wellFormed.inside (by omega) (by omega)

theorem guarded_assign (wellFormed : matrix.WellFormed) (rows cols : Selector) {part : Part}
    (partWellFormed : part.WellFormed) :
    Guarded.assign matrix rows cols part = Guarded.settled (matrix.assign rows cols part) := by
  rw [assign_eq, Guarded.assign]
  cases found : matrix.block rows cols with
  | error fault => rfl
  | ok block =>
    show (Guarded.settled (fits part block) >>= fun _ => liftM (Guarded.fill matrix block part)) =
      Guarded.settled (fits part block >>= fun _ => .ok (matrix.fill block part))
    cases fitting : fits part block with
    | error fault => rfl
    | ok =>
      have inside := block_inside found
      rw [guarded_fill wellFormed inside.1 inside.2.1 fun i => guarded_cell partWellFormed fitting]
      rfl

theorem ofCells_wellFormed (rows cols : Nat) (cell : Nat → Nat → Int64) : (ofCells rows cols cell).WellFormed := by
  simp [WellFormed, ofCells, Cells.size]

theorem get_ofCells {rows cols position : Nat} {cell : Nat → Nat → Int64} (inside : position < rows * cols) :
    (ofCells rows cols cell).cells.get position = .int (cell (position / cols) (position % cols)) := by
  simp [ofCells, Cells.get, inside]

theorem mem_diagonal {rows cols position : Nat} (inside : position < rows * cols) :
    position ∈ (List.range (min rows cols)).map (fun i => i * cols + i) ↔ position / cols = position % cols := by
  obtain ⟨down, across⟩ := div_mod_lt inside
  rw [List.mem_map]
  constructor
  · rintro ⟨i, member, rfl⟩
    have small := List.mem_range.mp member
    obtain ⟨row, col⟩ := cell_div_mod i (show i < cols by omega)
    rw [row, col]
  · intro same
    refine ⟨position % cols, List.mem_range.mpr (by omega), ?_⟩
    calc position % cols * cols + position % cols
        = position / cols * cols + position % cols := by rw [same]
      _ = position := Nat.div_add_mod' position cols

theorem diagonal_inside {rows cols : Nat} (cell : Nat → Nat → Int64) :
    ∀ i ∈ List.range (min rows cols), i * cols + i < (ofCells rows cols cell).cells.size := by
  intro i member
  have small := List.mem_range.mp member
  exact (ofCells_wellFormed rows cols cell).inside (show i < rows by omega) (show i < cols by omega)

theorem foldl_set_diagonal (rows cols : Nat) :
    (List.range (min rows cols)).foldl (fun cells i => cells.set (i * cols + i) (.int 1))
        (ofCells rows cols fun _ _ => 0).cells =
      (ofCells rows cols fun row col => if row = col then 1 else 0).cells := by
  have sized (cell : Nat → Nat → Int64) : (ofCells rows cols cell).cells.size = rows * cols :=
    ofCells_wellFormed rows cols cell
  apply Cells.eq_of_get
  · rw [isIntegral_foldl_set]
    rfl
  · rw [Cells.size_foldl_set, sized, sized]
  · intro position inside
    rw [Cells.size_foldl_set, sized] at inside
    rw [Cells.get_foldl_set (diagonal_inside _), get_ofCells inside, get_ofCells inside]
    simp only [mem_diagonal inside]
    split <;> rfl

theorem guarded_eye (rows cols : Nat) : Guarded.eye rows cols = Guarded.settled (eye rows cols) := by
  unfold Guarded.eye eye zeros
  cases checkSize rows cols with
  | error fault => rfl
  | ok =>
    show (ExceptT.lift _ >>= fun cells => pure { ofCells rows cols fun _ _ => 0 with cells } :
      Guarded MatrixFault Matrix) = _
    rw [Cells.foldlM_write? (diagonal_inside _), foldl_set_diagonal]
    rfl

end Matrix

end MatrixScript
