import MatrixScript.Proofs.Token.Coverage

/-! Lines and places.

A place knows its line from the newlines that were counted on the way to it, and the line that is shown for it is found
by its offset alone. Both are the same line.
-/

set_option autoImplicit false

namespace MatrixScript

@[simp] theorem byteLength_reverse (text : List Char) : byteLength text.reverse = byteLength text := by
  induction text with
  | nil => rfl
  | cons c rest ih => simp [ih, Nat.add_comm]

/-- A line begins where the text does or behind a newline, and it reaches through its own newline or to the end. -/
structure IsLine (front line back : List Char) : Prop where
  begins : front = [] ∨ ∃ earlier, front = earlier ++ ['\n']
  ends : (∃ body, '\n' ∉ body ∧ line = body ++ ['\n']) ∨ '\n' ∉ line ∧ back = []

/-- What is shown is the line of a text that has the byte at an offset, and where the byte is in it. -/
def SourceLine.Shows (text : List Char) (offset : Nat) (shown : SourceLine) : Prop :=
  ∃ front back, text = front ++ shown.text ++ back ∧ IsLine front shown.text back ∧
    shown.number = 1 + front.count '\n' ∧ byteLength front + shown.column = offset ∧
    shown.column < byteLength shown.text

def Located (text : List Char) (offset : Nat) : Option SourceLine → Prop
  | none => byteLength text ≤ offset
  | some shown => shown.Shows text offset

theorem lineFrom_located {number column : Nat} {front before rest : List Char}
    (begins : front = [] ∨ ∃ earlier, front = earlier ++ ['\n']) (counted : number = 1 + front.count '\n')
    (inside : '\n' ∉ before) :
    Located (front ++ (before.reverse ++ rest)) (byteLength front + column) (lineFrom number column before rest) := by
  have whole : '\n' ∉ before.reverse := fun member => inside (List.mem_reverse.mp member)
  -- what is read of a line is in `before`, and finished lines are in `front`
  induction rest generalizing number column front before with
  | nil =>
    unfold lineFrom
    split
    · next short =>
      exact ⟨front, [], by simp, ⟨begins, .inr ⟨whole, rfl⟩⟩, counted, rfl, by simpa using short⟩
    · next long =>
      show byteLength _ ≤ _
      simp only [List.append_nil, byteLength_append, byteLength_reverse]
      omega
  | cons c rest ih =>
    unfold lineFrom
    split
    · next newline =>
      subst newline
      dsimp only
      split
      · next short =>
        have line : ('\n' :: before).reverse = before.reverse ++ ['\n'] := List.reverse_cons
        refine ⟨front, rest, by simp, ⟨begins, .inl ⟨_, whole, line⟩⟩, counted, rfl, ?_⟩
        rw [byteLength_reverse]
        exact short
      · next long =>
        -- the line is complete, and the next one begins behind it
        have count : number + 1 = 1 + (front ++ (before.reverse ++ ['\n'])).count '\n' := by
          simp [counted, List.count_eq_zero_of_not_mem inside, Nat.add_assoc]
        have next := @ih _ (column - byteLength ('\n' :: before)) (front ++ (before.reverse ++ ['\n'])) []
          (.inr ⟨front ++ before.reverse, by simp⟩) count List.not_mem_nil List.not_mem_nil
        have text : front ++ (before.reverse ++ ['\n']) ++ ([].reverse ++ rest) =
            front ++ (before.reverse ++ '\n' :: rest) := by simp
        have offset : byteLength (front ++ (before.reverse ++ ['\n'])) + (column - byteLength ('\n' :: before)) =
            byteLength front + column := by
          simp only [byteLength_append, byteLength_reverse, byteLength_cons, byteLength_nil] at long ⊢
          omega
        rw [text, offset] at next
        exact next
    · next other =>
      have next := @ih number column front (c :: before) begins counted
        (by simp [inside, Ne.symm other])
      have text : (c :: before).reverse ++ rest = before.reverse ++ c :: rest := by simp
      rw [text] at next
      exact next (by simp [whole, Ne.symm other])

theorem lineAt_located (source : String) (offset : Nat) :
    Located source.toList offset (lineAt source offset) := by
  have found := @lineFrom_located 1 offset [] [] source.toList (.inl rfl) rfl List.not_mem_nil
  simp only [List.nil_append, List.reverse_nil, byteLength_nil, Nat.zero_add] at found
  exact found

theorem SourceLine.Shows.lt {text : List Char} {offset : Nat} {shown : SourceLine} (shows : shown.Shows text offset) :
    offset < byteLength text := by
  obtain ⟨front, back, rfl, _, _, rfl, inside⟩ := shows
  simp only [byteLength_append]
  omega

theorem lineAt_eq_none {source : String} {offset : Nat} :
    lineAt source offset = none ↔ source.utf8ByteSize ≤ offset := by
  have located := lineAt_located source offset
  rw [← byteLength_toList]
  cases found : lineAt source offset with
  | none =>
    rw [found] at located
    exact iff_of_true rfl located
  | some shown =>
    rw [found] at located
    exact iff_of_false nofun (Nat.not_le_of_lt located.lt)

theorem IsLine.newline_notMem {front line back part rest : List Char} (isLine : IsLine front line back)
    (split : line = part ++ rest) (more : rest ≠ []) : '\n' ∉ part := by
  intro member
  rcases isLine.ends with ⟨body, clear, same⟩ | ⟨clear, _⟩
  · obtain ⟨init, last, rfl⟩ := List.eq_nil_or_concat rest |>.resolve_left more
    rw [split, List.concat_eq_append, ← List.append_assoc] at same
    obtain ⟨rfl, _⟩ := List.append_inj' same rfl
    exact clear (List.mem_append_left _ member)
  · exact clear (split ▸ List.mem_append_left _ member)

theorem SourceLine.Shows.number_eq {before after : List Char} {shown : SourceLine}
    (shows : shown.Shows (before ++ after) (byteLength before)) : shown.number = 1 + before.count '\n' := by
  obtain ⟨front, back, same, isLine, number, offset, inside⟩ := shows
  rw [number]
  rw [List.append_assoc] at same
  rcases List.append_eq_append_iff.mp same with ⟨more, rfl, _⟩ | ⟨part, rfl, inner⟩
  · -- the line cannot begin behind the offset
    cases more with
    | nil => rw [List.append_nil]
    | cons c rest =>
      have positive := byteLength_pos (List.cons_ne_nil c rest)
      rw [byteLength_append] at offset
      omega
  · rw [byteLength_append, Nat.add_left_cancel_iff] at offset
    rcases List.append_eq_append_iff.mp inner with ⟨more, rfl, _⟩ | ⟨rest, split, _⟩
    · rw [offset, byteLength_append] at inside
      omega
    · have more : rest ≠ [] := by
        rintro rfl
        rw [offset, split, List.append_nil] at inside
        exact absurd inside (Nat.lt_irrefl _)
      rw [List.count_append, List.count_eq_zero_of_not_mem (isLine.newline_notMem split more), Nat.add_zero]

/-- A place agrees with a source: its line is counted up to its offset, which is at most the end, and that very line is
shown for it, unless it is the end. -/
structure Position.Agrees (source : String) (position : Position) : Prop where
  within : position.offset ≤ source.utf8ByteSize
  counted : ∃ before after, source.toList = before ++ after ∧ byteLength before = position.offset ∧
    position.line = 1 + before.count '\n'
  past : lineAt source position.offset = none ↔ position.offset = source.utf8ByteSize
  shown : ∀ shown, lineAt source position.offset = some shown →
    shown.number = position.line ∧ shown.Shows source.toList position.offset

theorem PlaceIn.agrees {source : String} {position : Position} (place : PlaceIn source.toList position) :
    position.Agrees source := by
  obtain ⟨before, after, split, rfl⟩ := place
  have within : byteLength before ≤ source.utf8ByteSize := by
    rw [← byteLength_toList, split, byteLength_append]
    omega
  refine ⟨within, ⟨before, after, split, rfl, rfl⟩, ?_, fun shown found => ?_⟩
  · rw [lineAt_eq_none]
    exact ⟨fun reached => Nat.le_antisymm within reached, fun same => Nat.le_of_eq same.symm⟩
  · have located := lineAt_located source (byteLength before)
    unfold placeAfter at found
    rw [found] at located
    have shows : shown.Shows source.toList (byteLength before) := located
    rw [split] at shows
    exact ⟨shows.number_eq, located⟩

end MatrixScript
