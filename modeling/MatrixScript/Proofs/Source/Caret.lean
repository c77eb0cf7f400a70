import Mathlib.Data.List.DropRight
import MatrixScript.Proofs.Source.Lines
import MatrixScript.Report
import MatrixScript.Token.Scan

/-! Where the caret of a report stands.

The report of a failure shows the line of an offset, without indentation and without blanks at its end, and a caret
below it. The caret is moved by bytes, and the line is shown in characters. It so stands below the character at the
offset exactly when all that is shown in front of it takes one byte each.
-/

set_option autoImplicit false

namespace MatrixScript

theorem length_le_byteLength (text : List Char) : text.length ≤ byteLength text := by
  induction text with
  | nil => exact Nat.le_refl 0
  | cons c rest ih =>
    have := c.utf8Size_pos
    rw [List.length_cons, byteLength_cons]
    omega

theorem byteLength_eq_length_iff {text : List Char} : byteLength text = text.length ↔ ∀ c ∈ text, c.utf8Size = 1 := by
  induction text with
  | nil => simp
  | cons c rest ih =>
    have := c.utf8Size_pos
    have := length_le_byteLength rest
    rw [List.forall_mem_cons, ← ih, byteLength_cons, List.length_cons]
    omega

section

variable {keep : Char → Bool} {c : Char}

theorem takeWhile_stops (front back : List Char) (stops : keep c = false) :
    (front ++ c :: back).takeWhile keep = front.takeWhile keep := by
  induction front with
  | nil => simp [stops]
  | cons head rest ih => simp only [List.cons_append, List.takeWhile_cons, ih]

theorem dropWhile_stops (front back : List Char) (stops : keep c = false) :
    (front ++ c :: back).dropWhile keep = front.dropWhile keep ++ c :: back := by
  induction front with
  | nil => simp [stops]
  | cons head rest ih =>
    simp only [List.cons_append, List.dropWhile_cons, ih]
    split
    · rfl
    · rfl

end

/-- The line of a character, taken apart: what a report leaves out at both ends of the line, and what it shows around
the character. -/
structure Excerpt where
  above : List Char
  indent : List Char
  before : List Char
  mark : Char
  after : List Char
  blanks : List Char
  below : List Char

namespace Excerpt

variable (excerpt : Excerpt)

def lead : List Char := excerpt.above ++ excerpt.indent ++ excerpt.before

def shown : List Char := excerpt.before ++ excerpt.mark :: excerpt.after

def line : List Char := excerpt.indent ++ excerpt.shown ++ excerpt.blanks

def number : String := toString (1 + excerpt.above.count '\n')

/-- The excerpt is of a text: its parts are those of a line of the text, and nothing more could be left out. -/
structure Of (text : List Char) : Prop where
  parts : text = excerpt.above ++ excerpt.line ++ excerpt.below
  isLine : IsLine excerpt.above excerpt.line excerpt.below
  indented : ∀ c ∈ excerpt.indent, isIndent c
  flush : ∀ c rest, excerpt.shown = c :: rest → isIndent c = false
  blank : ∀ c ∈ excerpt.blanks, Text.isBlank c
  trimmed : ∀ c front, excerpt.shown = front ++ [c] → Text.isBlank c = false

/-- What is printed of the line, with a caret behind so many dashes. The bar is in one column of all lines. -/
def print (dashes : Nat) : List String :=
  let margin := String.ofList (List.replicate (excerpt.number.length + 1) ' ')
  [margin ++ "|", excerpt.number ++ " | " ++ String.ofList excerpt.shown,
    margin ++ "| " ++ String.ofList (List.replicate dashes '-') ++ "^"]

end Excerpt

theorem trimEnd_stops (front back : List Char) {c : Char} (solid : Text.isBlank c = false) :
    trimEnd (front ++ c :: back) = front ++ c :: trimEnd back := by
  unfold trimEnd
  rw [List.reverse_append, List.reverse_cons, List.append_assoc, List.singleton_append, dropWhile_stops _ _ solid]
  simp

theorem isBlank_of_isIndent {c : Char} (indent : isIndent c = true) : Text.isBlank c = true := by
  rcases Bool.or_eq_true_iff.mp indent with space | tab
  · rw [eq_of_beq space]
    decide
  · rw [eq_of_beq tab]
    decide

theorem SourceLine.Shows.around {front back : List Char} {c : Char} {offset : Nat} {shown : SourceLine}
    (shows : shown.Shows (front ++ c :: back) offset) (starts : byteLength front ≤ offset)
    (ends : offset < byteLength front + c.utf8Size) :
    ∃ above part rest below, front = above ++ part ∧ back = rest ++ below ∧ shown.text = part ++ c :: rest ∧
      IsLine above shown.text below ∧ shown.number = 1 + above.count '\n' ∧
      byteLength above + shown.column = offset := by
  obtain ⟨above, below, same, isLine, number, column, inside⟩ := shows
  -- the line does not begin behind the character
  obtain ⟨part, rfl, split⟩ : ∃ part, front = above ++ part ∧ part ++ c :: back = shown.text ++ below := by
    rw [List.append_assoc] at same
    rcases List.append_eq_append_iff.mp same with ⟨more, rfl, split⟩ | ⟨part, rfl, split⟩
    · cases more with
      | nil => exact ⟨[], by simp, split⟩
      | cons head more =>
        obtain ⟨rfl, _⟩ := List.cons.inj split
        rw [byteLength_append, byteLength_cons] at column
        omega
    · exact ⟨part, rfl, split.symm⟩
  -- nor does it end in front of it
  obtain ⟨rest, text, behind⟩ : ∃ rest, shown.text = part ++ c :: rest ∧ back = rest ++ below := by
    rw [byteLength_append] at starts
    rcases List.append_eq_append_iff.mp split with ⟨more, text, split⟩ | ⟨more, rfl, _⟩
    · cases more with
      | nil =>
        rw [text, List.append_nil] at inside
        omega
      | cons head more =>
        obtain ⟨rfl, rfl⟩ := List.cons.inj split
        exact ⟨more, text, rfl⟩
    · rw [byteLength_append] at starts
      omega
  exact ⟨above, part, rest, below, rfl, behind, text, isLine, number, column⟩

namespace Excerpt

def cut (above part : List Char) (mark : Char) (rest below : List Char) : Excerpt :=
  ⟨above, part.takeWhile isIndent, part.dropWhile isIndent, mark, trimEnd rest, rest.rtakeWhile Text.isBlank, below⟩

section

variable {above part rest below : List Char} {c : Char}

theorem lead_cut : (cut above part c rest below).lead = above ++ part := by
  show above ++ part.takeWhile isIndent ++ part.dropWhile isIndent = _
  rw [List.append_assoc, List.takeWhile_append_dropWhile]

theorem line_cut : (cut above part c rest below).line = part ++ c :: rest := by
  show part.takeWhile isIndent ++ (part.dropWhile isIndent ++ c :: rest.rdropWhile Text.isBlank) ++
    rest.rtakeWhile Text.isBlank = _
  rw [← List.append_assoc, List.takeWhile_append_dropWhile, List.append_assoc, List.cons_append,
    List.rdropWhile_append_rtakeWhile]

theorem isIndent_of_solid (solid : Text.isBlank c = false) : isIndent c = false := by
  apply Bool.eq_false_iff.mpr
  intro indent
  rw [isBlank_of_isIndent indent] at solid
  cases solid

theorem cut_of_line (solid : Text.isBlank c = false) (isLine : IsLine above (part ++ c :: rest) below) :
    (cut above part c rest below).Of (above ++ (part ++ c :: rest) ++ below) := by
  -- what is shown is what is left when the line is cut on either side
  have front : (cut above part c rest below).shown = (part ++ c :: trimEnd rest).dropWhile isIndent :=
    (dropWhile_stops _ _ (isIndent_of_solid solid)).symm
  have back : (cut above part c rest below).shown =
      (part.dropWhile isIndent ++ c :: rest).rdropWhile Text.isBlank := (trimEnd_stops _ _ solid).symm
  constructor
  case parts => rw [line_cut]; rfl
  case isLine => rw [line_cut]; exact isLine
  case indented => exact fun _ => List.mem_takeWhile_imp
  case flush =>
    intro head tail same
    have first := List.head?_dropWhile_not isIndent (part ++ c :: trimEnd rest)
    rw [← front, same] at first
    exact first
  case blank => exact fun _ => List.mem_rtakeWhile_imp
  case trimmed =>
    intro final init same
    have last := List.rdropWhile_last_not Text.isBlank (part.dropWhile isIndent ++ c :: rest)
    simp only [← back, same] at last
    simpa using last

theorem print_cut (below : List Char) {number column : Nat} (solid : Text.isBlank c = false)
    (counted : number = 1 + above.count '\n') :
    (⟨number, part ++ c :: rest, column⟩ : SourceLine).excerpt =
      (cut above part c rest below).print (column - byteLength (part.takeWhile isIndent)) := by
  have shown : trimEnd ((part ++ c :: rest).dropWhile isIndent) = (cut above part c rest below).shown := by
    rw [dropWhile_stops _ _ (isIndent_of_solid solid), trimEnd_stops _ _ solid]
    rfl
  subst counted
  simp only [SourceLine.excerpt, takeWhile_stops _ _ (isIndent_of_solid solid), shown]
  have bar (rest : String) : String.ofList ['|'] ++ (" " ++ rest) = "| " ++ rest := by
    rw [← String.append_assoc]
    rfl
  simp only [print, String.ofList_append, String.append_assoc, bar]
  rfl

end

end Excerpt

/-- The report of a failure at a character that is not blank shows the line of the character, cut at both ends, and a
caret below it. The caret stands below the character exactly when the offset is that of its first byte and the
characters shown in front of it take one byte each. -/
theorem caret_under_character_iff (source file : String) (failure : Failure) (front back : List Char) (c : Char)
    (text : source.toList = front ++ c :: back) (solid : Text.isBlank c = false)
    (starts : byteLength front ≤ failure.position.offset)
    (ends : failure.position.offset < byteLength front + c.utf8Size) :
    ∃ excerpt : Excerpt, excerpt.Of source.toList ∧ excerpt.lead = front ∧ excerpt.mark = c ∧ ∃ dashes,
      failure.report file source =
        String.join ((failure.heading :: ("-> " ++ file) :: excerpt.print dashes).map (· ++ "\n")) ∧
      (dashes = excerpt.before.length ↔
        failure.position.offset = byteLength front ∧ ∀ x ∈ excerpt.before, x.utf8Size = 1) := by
  have located := lineAt_located source failure.position.offset
  cases found : lineAt source failure.position.offset with
  | none =>
    -- the offset is in front of the end
    rw [found, text] at located
    have past : byteLength (front ++ c :: back) ≤ failure.position.offset := located
    rw [byteLength_append, byteLength_cons] at past
    omega
  | some line =>
    rw [found, text] at located
    obtain ⟨above, part, rest, below, rfl, rfl, same, isLine, number, column⟩ := located.around starts ends
    obtain ⟨lineNumber, lineText, lineColumn⟩ := line
    subst same
    dsimp only at isLine column
    refine ⟨.cut above part c rest below, ?_, Excerpt.lead_cut, rfl,
      lineColumn - byteLength (part.takeWhile isIndent), ?_, ?_⟩
    · rw [text, List.append_assoc, ← List.cons_append, ← List.append_assoc part, ← List.append_assoc]
      exact Excerpt.cut_of_line solid isLine
    · rw [← Excerpt.print_cut below solid number, Failure.report, Failure.reportLines, found]
      rfl
    · -- bytes in front of the character are counted from the indentation on
      have split := byteLength_append (part.takeWhile isIndent) (part.dropWhile isIndent)
      rw [List.takeWhile_append_dropWhile] at split
      rw [byteLength_append] at starts ends ⊢
      have few := length_le_byteLength (part.dropWhile isIndent)
      rw [← byteLength_eq_length_iff]
      show lineColumn - _ = (part.dropWhile isIndent).length ↔
        _ ∧ byteLength (part.dropWhile isIndent) = (part.dropWhile isIndent).length
      omega

/-- In an indented line, with blanks at its end, the caret is where it should be. -/
theorem caret_under_dollar :
    let source := "x = 1;\n \ty = 2 + $;  \n"
    let front := "x = 1;\n \ty = 2 + ".toList
    let failure : Failure := ⟨.unrecognised "$", ⟨17, 2⟩⟩
    scan source = .error failure ∧ source.toList = front ++ '$' :: ";  \n".toList ∧ Text.isBlank '$' = false ∧
      byteLength front ≤ failure.position.offset ∧ failure.position.offset < byteLength front + '$'.utf8Size ∧
      ∃ excerpt : Excerpt, excerpt.Of source.toList ∧ excerpt.lead = front ∧ excerpt.mark = '$' ∧
        failure.report "prog.m" source = String.join ((failure.heading :: "-> prog.m" ::
          excerpt.print excerpt.before.length).map (· ++ "\n")) := by
  intro source front failure
  have text : source.toList = front ++ '$' :: ";  \n".toList := by decide +kernel
  have solid : Text.isBlank '$' = false := by decide
  have place : byteLength front = failure.position.offset := by decide +kernel
  have starts := Nat.le_of_eq place
  have ends : failure.position.offset < byteLength front + '$'.utf8Size := by
    rw [place]
    exact Nat.lt_add_of_pos_right (Char.utf8Size_pos _)
  have narrow : front.all (·.utf8Size = 1) = true := by decide +kernel
  refine ⟨by decide +kernel, text, solid, starts, ends, ?_⟩
  obtain ⟨excerpt, of, lead, mark, dashes, report, below⟩ :=
    caret_under_character_iff source "prog.m" failure front _ '$' text solid starts ends
  have counted : dashes = excerpt.before.length :=
    below.mpr ⟨place.symm, fun c member =>
      of_decide_eq_true (List.all_eq_true.mp narrow c (lead ▸ List.mem_append_right _ member))⟩
  rw [counted] at report
  exact ⟨excerpt, of, lead, mark, report⟩

/-- Behind a character of two bytes, the caret is moved too far. -/
theorem caret_behind_accent :
    let source := "x = \"é\" $;"
    let failure : Failure := ⟨.unrecognised "$", ⟨9, 1⟩⟩
    let excerpt : Excerpt := ⟨[], [], "x = \"é\" ".toList, '$', [';'], [], []⟩
    scan source = .error failure ∧ excerpt.Of source.toList ∧ byteLength excerpt.lead = failure.position.offset ∧
      failure.report "prog.m" source =
        "Error: UnrecognisedToken\n-> prog.m\n  |\n1 | x = \"é\" $;\n  | ---------^\n" ∧
      failure.report "prog.m" source ≠ String.join ((failure.heading :: "-> prog.m" ::
        excerpt.print excerpt.before.length).map (· ++ "\n")) := by
  intro source failure excerpt
  refine ⟨by decide +kernel, ?_, by decide +kernel, by decide +kernel, by decide +kernel⟩
  constructor
  case parts => decide +kernel
  case isLine => exact ⟨.inl rfl, .inr ⟨by decide +kernel, rfl⟩⟩
  case indented => exact nofun
  case flush =>
    rintro _ _ ⟨⟩
    rfl
  case blank => exact nofun
  case trimmed =>
    intro c init same
    have last := congrArg List.getLast? same
    rw [List.getLast?_concat] at last
    have final : excerpt.shown.getLast? = some ';' := by decide +kernel
    rw [final] at last
    cases last
    decide

end MatrixScript
