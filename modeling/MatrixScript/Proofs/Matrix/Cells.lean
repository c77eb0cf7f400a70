import MatrixScript.Proofs.Value.Shape

/-! Cells by their positions.

Cells are known by their kind, their number and what is read at each position.
-/

set_option autoImplicit false

namespace MatrixScript

theorem cell_div_mod {width col : Nat} (row : Nat) (small : col < width) :
    (row * width + col) / width = row ∧ (row * width + col) % width = col := by
  constructor
  · rw [Nat.mul_comm, Nat.mul_add_div (by omega), Nat.div_eq_of_lt small, Nat.add_zero]
  · rw [Nat.mul_comm, Nat.mul_add_mod, Nat.mod_eq_of_lt small]

theorem cell_lt {height width row col : Nat} (down : row < height) (across : col < width) :
    row * width + col < height * width :=
  calc row * width + col < row * width + width := by omega
    _ = (row + 1) * width := (Nat.succ_mul row width).symm
    _ ≤ height * width := Nat.mul_le_mul_right width down

theorem cell_before {width row col row' col' : Nat} (across : col' < width)
    (before : row' < row ∨ row' = row ∧ col' < col) : row' * width + col' < row * width + col := by
  rcases before with above | ⟨rfl, left⟩
  · exact Nat.lt_add_right col (cell_lt above across)
  · omega

theorem div_mod_lt {height width i : Nat} (inside : i < height * width) : i / width < height ∧ i % width < width := by
  have positive : 0 < width := Nat.pos_of_lt_mul_left inside
  exact ⟨(Nat.div_lt_iff_lt_mul positive).mpr inside, Nat.mod_lt i positive⟩

namespace Element

/-- An element in the form in which cells of a kind hold it. -/
def storedAs (integral : Bool) (element : Element) : Element :=
  if integral then .int element.truncated else .float element.toFloat

@[simp] theorem truncated_comp_int : truncated ∘ int = id := rfl

@[simp] theorem toFloat_comp_float : toFloat ∘ float = id := rfl

theorem storedAs_isInt (element : Element) : element.storedAs element.isInt = element := by
  cases element <;> rfl

end Element

namespace Cells

variable (cells : Cells)

@[simp] theorem size_set (position : Nat) (element : Element) : (cells.set position element).size = cells.size := by
  cases cells <;> simp [set, size]

@[simp] theorem size_collect (integral : Bool) (elements : List Element) :
    (collect integral elements).size = elements.length := by
  cases integral <;> simp [collect, size]

@[simp] theorem size_gather (count : Nat) (position : Nat → Nat) : (cells.gather count position).size = count := by
  cases cells <;> simp [gather, size]

@[simp] theorem length_elements : cells.elements.length = cells.size := by
  cases cells <;> simp [elements, size]

theorem get_set {position other : Nat} (inside : position < cells.size) (element : Element) :
    (cells.set position element).get other =
      if position = other then element.storedAs cells.isIntegral else cells.get other := by
  cases cells <;>
    simp only [size] at inside <;>
    simp only [set, get, Array.getD_eq_getD_getElem?, Array.getElem?_setIfInBounds, inside, if_true] <;>
    split <;> rfl

theorem storedAs_get (position : Nat) : (cells.get position).storedAs cells.isIntegral = cells.get position := by
  rw [← isInt_get cells position, Element.storedAs_isInt]

theorem get_collect {integral : Bool} {elements : List Element} {position : Nat} (inside : position < elements.length) :
    (collect integral elements).get position = (elements.get ⟨position, inside⟩).storedAs integral := by
  cases integral <;> simp [collect, get, Element.storedAs, inside]

variable {cells}

theorem eq_of_get {other : Cells} (kind : cells.isIntegral = other.isIntegral) (size : cells.size = other.size)
    (same : ∀ position < cells.size, cells.get position = other.get position) : cells = other := by
  cases cells with
  | ints data =>
    cases other with
    | floats _ => cases kind
    | ints data' =>
      congr 1
      apply Array.ext size
      intro i inside inside'
      simpa [get, inside, inside'] using same i inside
  | floats data =>
    cases other with
    | ints _ => cases kind
    | floats data' =>
      congr 1
      apply Array.ext size
      intro i inside inside'
      simpa [get, inside, inside'] using same i inside

theorem elements_eq_map_range : cells.elements = (List.range cells.size).map cells.get := by
  apply List.ext_getElem
  · simp
  · intro i inside _
    rw [length_elements] at inside
    cases cells with
    | ints data => simp [elements, get, show i < data.size from inside]
    | floats data => simp [elements, get, show i < data.size from inside]

theorem zip_elements {other : Cells} (sizes : other.size = cells.size) :
    cells.elements.zip other.elements = (List.range cells.size).map fun i => (cells.get i, other.get i) := by
  rw [elements_eq_map_range, elements_eq_map_range, sizes, List.zip_map']

theorem collect_elements : collect cells.isIntegral cells.elements = cells := by
  cases cells <;> simp [collect, elements, isIntegral]

theorem get_gather {count : Nat} (position : Nat → Nat) {i : Nat} (small : i < count) :
    (cells.gather count position).get i = cells.get (position i) := by
  cases cells <;> simp [gather, get, small]

theorem gather_eq_collect (count : Nat) (position : Nat → Nat) :
    cells.gather count position =
      collect cells.isIntegral ((List.range count).map fun i => cells.get (position i)) := by
  apply eq_of_get
  · simp
  · simp
  · intro i inside
    rw [size_gather] at inside
    rw [get_gather position inside, get_collect (by simpa using inside)]
    simp [storedAs_get]

end Cells

end MatrixScript
