import MatrixScript.Matrix.Basic
import MatrixScript.Program
import MatrixScript.Proofs.Grammar.Language
import MatrixScript.Proofs.Token.Rendering

/-! The text of a printed integer matrix.

A number is printed as its digits, with a dash in front of them when it is negative, and a list as its items between
brackets with commas between them. Scanning finds just these marks and numbers again, and the grammar derives an array
of arrays from them.
-/

set_option autoImplicit false

namespace MatrixScript

namespace Integer

theorem toList_toString (n : Nat) : (toString n).toList = Nat.toDigits 10 n := by
  rw [Nat.toString_eq_ofList_toDigits, String.toList_ofList]

theorem splitSign_of_isDigit {digits : List Char} (all : ∀ c ∈ digits, c.isDigit) :
    Decimal.splitSign digits = (false, digits) := by
  unfold Decimal.splitSign
  split
  · exact absurd (all '-' List.mem_cons_self) (by decide)
  · exact absurd (all '+' List.mem_cons_self) (by decide)
  · rfl

theorem read?_toString {n : Nat} (small : (n : Int) ≤ greatest) : read? (toString n) = some (Int64.ofInt n) := by
  have all : ∀ c ∈ Nat.toDigits 10 n, c.isDigit := fun c member =>
    Nat.isDigit_of_mem_toDigits (by decide) (by decide) member
  have value : Decimal.digitsValue (Nat.toDigits 10 n) = n := Nat.ofDigitChars_ten_toDigits
  have fits : least ≤ (n : Int) ∧ (n : Int) ≤ greatest := ⟨by unfold least; omega, small⟩
  have written : Nat.toDigits 10 n ≠ [] ∧ (Nat.toDigits 10 n).all Char.isDigit :=
    ⟨Nat.toDigits_ne_nil, List.all_eq_true.mpr all⟩
  unfold read?
  rw [toList_toString, splitSign_of_isDigit all]
  simp only [if_pos written, value, fit?, if_pos fits, Bool.false_eq_true, if_false]

theorem write_eq (value : Int64) :
    write value = (if value.toInt < 0 then "-" else "") ++ toString value.toInt.natAbs := by
  unfold write
  cases value.toInt with
  | ofNat n => simp; rfl
  | negSucc n => simp; rfl

end Integer

theorem Text.isDigit_of_isDigit {c : Char} (digit : c.isDigit) : isDigit c := by
  have bounds : 48 ≤ c.toNat ∧ c.toNat ≤ 57 := by
    simpa [Char.isDigit, UInt32.le_iff_toNat_le] using digit
  unfold isDigit digitRanges inRanges
  rw [if_neg (by omega), if_pos bounds.2]

theorem allDigits_toString (n : Nat) : AllDigits (toString n).toList := by
  intro c member
  rw [Integer.toList_toString] at member
  exact Text.isDigit_of_isDigit (Nat.isDigit_of_mem_toDigits (by decide) (by decide) member)

theorem toString_ne_nil (n : Nat) : (toString n).toList ≠ [] := by
  rw [Integer.toList_toString]
  exact Nat.toDigits_ne_nil

namespace Printing

def cellWords (value : Int64) : List (Kind × String) :=
  (if value.toInt < 0 then [(.dash, "-")] else []) ++ [(.int, toString value.toInt.natAbs)]

def listWords (items : List (List (Kind × String))) : List (Kind × String) :=
  (.openBracket, "[") :: ([(.comma, ",")].intercalate items ++ [(.closeBracket, "]")])

def listText (items : List (List Char)) : List Char :=
  '[' :: ([',', ' '].intercalate items ++ [']'])

/-- A text that is found as these words, whatever it stands in front of. -/
structure Reads (text : List Char) (words : List (Kind × String)) : Prop where
  opens : ∀ after, ∀ c ∈ (text ++ after).head?, c ≠ '='
  scans : ∀ {after later}, Rule.Detached after → Scans after later → Scans (text ++ after) (words ++ later)

theorem digits_not_equals {text : List Char} (some : text ≠ []) (all : AllDigits text) (after : List Char) :
    ∀ c ∈ (text ++ after).head?, c ≠ '=' := by
  cases text with
  | nil => contradiction
  | cons first rest =>
    rintro c ⟨⟩ rfl
    exact absurd (all '=' List.mem_cons_self) (by decide)

theorem Reads.number (n : Nat) : Reads (toString n).toList [(.int, toString n)] where
  opens := digits_not_equals (toString_ne_nil n) (allDigits_toString n)
  scans detached rest := by
    have written := Lexeme.int (toString_ne_nil n) (allDigits_toString n)
    rw [String.ofList_toList] at written
    exact rest.lexeme written detached

theorem Reads.cell (value : Int64) : Reads (Integer.write value).toList (cellWords value) := by
  have number := Reads.number value.toInt.natAbs
  rw [Integer.write_eq, cellWords]
  split
  · constructor
    · intro after
      simp
    · intro after later detached rest
      have behind := number.scans detached rest
      have signed := behind.mark (show (Kind.dash, "-") ∈ Rule.marks by decide) (number.opens after)
      simpa using signed
  · simpa using number

section

variable {α : Type} {text : α → List Char} {words : α → List (Kind × String)} {items : List α}

theorem detached_comma (after : List Char) : Rule.Detached (',' :: after) := by
  rintro c ⟨⟩
  decide

theorem detached_bracket (after : List Char) : Rule.Detached (']' :: after) := by
  rintro c ⟨⟩
  decide

theorem scans_items {after : List Char} {later : List (Kind × String)}
    (each : ∀ item ∈ items, Reads (text item) (words item)) (ends : ∀ c ∈ after.head?, c ≠ '=')
    (rest : Scans after later) :
    Scans ([',', ' '].intercalate (items.map text) ++ ']' :: after)
      ([(.comma, ",")].intercalate (items.map words) ++ (.closeBracket, "]") :: later) := by
  have closing : Scans (']' :: after) ((.closeBracket, "]") :: later) :=
    rest.mark (show (Kind.closeBracket, "]") ∈ Rule.marks by decide) ends
  induction items with
  | nil => exact closing
  | cons item others ih =>
    have here := each item List.mem_cons_self
    have behind := ih fun item member => each item (List.mem_cons_of_mem _ member)
    cases others with
    | nil => simpa using here.scans (detached_bracket after) closing
    | cons next others =>
      have comma := behind.gap (Gap.blank (by decide) .nil : Gap _ [' ']) |>.mark
        (show (Kind.comma, ",") ∈ Rule.marks by decide) (by simp)
      simpa using here.scans (detached_comma _) comma

theorem items_open (each : ∀ item ∈ items, Reads (text item) (words item)) (after : List Char) :
    ∀ c ∈ ([',', ' '].intercalate (items.map text) ++ ']' :: after).head?, c ≠ '=' := by
  cases items with
  | nil => simp
  | cons item others =>
    have opens := (each item List.mem_cons_self).opens
    cases others with
    | nil =>
      rw [List.map_singleton, List.intercalate_singleton]
      exact opens _
    | cons next others =>
      rw [List.map_cons, List.map_cons, List.intercalate_cons_cons, List.append_assoc, List.append_assoc]
      exact opens _

theorem Reads.list (each : ∀ item ∈ items, Reads (text item) (words item)) :
    Reads (listText (items.map text)) (listWords (items.map words)) := by
  constructor
  · simp [listText]
  · intro after later detached rest
    have behind := scans_items each (fun c member => (detached c member).2.2.2) rest
    have opened := behind.mark (show (Kind.openBracket, "[") ∈ Rule.marks by decide) (items_open each after)
    simpa [listText, listWords] using opened

end

def gridWords (grid : List (List Int64)) : List (Kind × String) :=
  listWords (grid.map fun row => listWords (row.map cellWords))

def gridText (grid : List (List Int64)) : List Char :=
  listText (grid.map fun row => listText (row.map fun value => (Integer.write value).toList))

theorem reads_grid (grid : List (List Int64)) : Reads (gridText grid) (gridWords grid) :=
  .list fun _ _ => .list fun value _ => .cell value

def assignmentText (grid : List (List Int64)) : List Char := 'A' :: ' ' :: '=' :: ' ' :: (gridText grid ++ [';'])

theorem scans_assignment (grid : List (List Int64)) :
    Scans (assignmentText grid) ((.name, "A") :: (.assign, "=") :: (gridWords grid ++ [(.semicolon, ";")])) := by
  have blank (after : List Char) : Gap after [' '] := .blank (by decide) .nil
  have semicolon : Scans [';'] [(.semicolon, ";")] :=
    Scans.nil.mark (show (Kind.semicolon, ";") ∈ Rule.marks by decide) (by simp)
  have value := (reads_grid grid).scans (by rintro c ⟨⟩; decide) semicolon
  have assigned := (value.gap (blank _)).mark (show (Kind.assign, "=") ∈ Rule.marks by decide) (by simp)
  have word : Genuine .name "A" := .name (by decide) (by simp [reservedWords])
  -- named before it is compared with the goal, which would scan the text otherwise
  have named := (assigned.gap (blank _)).lexeme word.lexeme (by rintro c ⟨⟩; decide)
  exact named

open Grammar

def Derives (level : Level) (words : List (Kind × String)) (term : Term) : Prop :=
  ∀ tokens : List Token, tokens.map Token.word = words → Expression level tokens term ∧ Readable tokens

theorem Token.kind_of_word {token : Token} {kind : Kind} {value : String} (same : token.word = (kind, value)) :
    token.kind = kind ∧ token.value = value := Prod.mk.inj same

theorem readable_mark {token : Token} (int : token.kind ≠ .int) (float : token.kind ≠ .float) : Readable [token] := by
  intro other member
  rw [List.mem_singleton.mp member]
  exact ⟨fun kind => absurd kind int, fun kind => absurd kind float⟩

theorem Derives.number {n : Nat} (small : (n : Int) ≤ Integer.greatest) :
    Derives .primary [(.int, toString n)] (.int (toString n)) := by
  intro tokens same
  obtain ⟨token, rfl, word⟩ := List.map_eq_singleton_iff.mp same
  obtain ⟨kind, value⟩ := Token.kind_of_word word
  rw [← value]
  refine ⟨.int kind, fun other member => ?_⟩
  rw [List.mem_singleton.mp member, kind, value, Integer.read?_toString small]
  exact ⟨fun _ => rfl, nofun⟩

/-- A negative number is a negated one. -/
def cellTerm (value : Int64) : Term :=
  if value.toInt < 0 then .negate (.int (toString value.toInt.natAbs)) else .int (toString value.toInt.natAbs)

theorem Derives.cell {value : Int64} (small : (value.toInt.natAbs : Int) ≤ Integer.greatest) :
    Derives .relational (cellWords value) (cellTerm value) := by
  have number := Derives.number small
  unfold cellWords cellTerm
  split
  · intro tokens same
    obtain ⟨mark, digits, rfl, sign, rest⟩ := List.map_eq_cons_iff.mp same
    obtain ⟨kind, _⟩ := Token.kind_of_word sign
    obtain ⟨inner, readable⟩ := number digits rest
    have operand : Expression .signed digits _ := inner.relax (by decide)
    constructor
    · exact (Expression.negate kind operand).relax (by decide)
    · exact (readable_mark (by simp [kind]) (by simp [kind])).append readable
  · intro tokens same
    obtain ⟨inner, readable⟩ := number tokens same
    exact ⟨inner.relax (by decide), readable⟩

section

variable {α : Type} {words : α → List (Kind × String)} {term : α → Term} {items : List α}

theorem listed_items (some : items ≠ []) (each : ∀ item ∈ items, Derives .relational (words item) (term item)) :
    ∀ tokens : List Token, tokens.map Token.word = [(.comma, ",")].intercalate (items.map words) →
      Listed (Expression .relational) tokens (items.map term) ∧ Readable tokens := by
  induction items with
  | nil => contradiction
  | cons item others ih =>
    intro tokens same
    have here := each item List.mem_cons_self
    cases others with
    | nil =>
      obtain ⟨derived, readable⟩ := here tokens (by simpa using same)
      exact ⟨.last derived, readable⟩
    | cons next others =>
      rw [List.map_cons, List.map_cons, List.intercalate_cons_cons, List.append_assoc] at same
      obtain ⟨front, back, rfl, first, same⟩ := List.map_eq_append_iff.mp same
      obtain ⟨comma, rest, rfl, mark, same⟩ := List.map_eq_cons_iff.mp same
      obtain ⟨kind, _⟩ := Token.kind_of_word mark
      obtain ⟨derived, readable⟩ := here front first
      obtain ⟨listed, readable'⟩ := ih (List.cons_ne_nil _ _)
        (fun item member => each item (List.mem_cons_of_mem _ member)) rest same
      exact ⟨.more derived kind listed,
        readable.append ((readable_mark (by simp [kind]) (by simp [kind])).append readable')⟩

theorem Derives.list (each : ∀ item ∈ items, Derives .relational (words item) (term item)) :
    Derives .relational (listWords (items.map words)) (.array (items.map term)) := by
  intro tokens whole
  obtain ⟨first, rest, rfl, opening, behind⟩ := List.map_eq_cons_iff.mp whole
  obtain ⟨inner, ending, rfl, same, closing⟩ := List.map_eq_append_iff.mp behind
  obtain ⟨last, rfl, mark⟩ := List.map_eq_singleton_iff.mp closing
  obtain ⟨opens, _⟩ := Token.kind_of_word opening
  obtain ⟨closes, _⟩ := Token.kind_of_word mark
  have derived : Items (Expression .relational) inner (items.map term) ∧ Readable inner := by
    cases items with
    | nil =>
      rw [List.map_nil, List.intercalate_nil, List.map_eq_nil_iff] at same
      rw [same]
      exact ⟨.none, nofun⟩
    | cons item others =>
      obtain ⟨listed, readable⟩ := listed_items (List.cons_ne_nil _ _) each inner same
      exact ⟨.some listed, readable⟩
  refine ⟨(Expression.array (.mk opens derived.1 closes)).relax (by decide), ?_⟩
  exact (readable_mark (by simp [opens]) (by simp [opens])).append
    (derived.2.append (readable_mark (by simp [closes]) (by simp [closes])))

end

def gridTerm (grid : List (List Int64)) : Term := .array (grid.map fun row => .array (row.map cellTerm))

theorem derives_grid {grid : List (List Int64)}
    (small : ∀ row ∈ grid, ∀ value ∈ row, (value.toInt.natAbs : Int) ≤ Integer.greatest) :
    Derives .relational (gridWords grid) (gridTerm grid) :=
  .list fun row member => .list fun value inside => .cell (small row member value inside)

theorem start_of_ended {used : List Token} {last : Token} (isEnd : last.kind = .eof) :
    (Parser.start (used ++ [last])).tokens = used ++ [last] := by
  obtain ⟨front, closing, stream, _, given⟩ := start_tokens (used ++ [last])
  rcases given with same | ⟨_, other⟩
  · rw [stream, same]
  · exact absurd isEnd (other last (by simp))

def assignmentPhrase (grid : List (List Int64)) : Phrase := .assign (.name "A") .plain (gridTerm grid)

theorem represents_assignment {tree : Tree} {grid : List (List Int64)}
    (represents : tree.Represents [assignmentPhrase grid]) :
    ∃ lo hi statement target value, tree.body = [statement] ∧
      tree.stmtKind? statement = some (.assign target .plain value) ∧ tree.kind? target = some (.name "A") ∧
      ExprLayout tree lo hi value (gridTerm grid) := by
  unfold Tree.Represents assignmentPhrase at represents
  generalize tree.body = ids at represents ⊢
  generalize tree.mark = last at represents
  generalize (⟨0, 0⟩ : Mark) = first at represents
  cases represents with
  | cons item rest =>
    cases rest
    cases item with
    | assign target value node =>
      cases target with
      | name named => exact ⟨_, _, _, _, _, rfl, node, named, value⟩

section

variable {grid : List (List Int64)}
  (small : ∀ row ∈ grid, ∀ value ∈ row, (value.toInt.natAbs : Int) ≤ Integer.greatest)
include small

theorem derives_assignment {tokens : List Token}
    (words : tokens.map Token.word = (.name, "A") :: (.assign, "=") :: (gridWords grid ++ [(.semicolon, ";")])) :
    Stated tokens (assignmentPhrase grid) ∧ Readable tokens := by
  obtain ⟨name, behindName, rfl, first, afterName⟩ := List.map_eq_cons_iff.mp words
  obtain ⟨mark, behindMark, rfl, second, afterMark⟩ := List.map_eq_cons_iff.mp afterName
  obtain ⟨value, ending, rfl, valueWords, closing⟩ := List.map_eq_append_iff.mp afterMark
  obtain ⟨semicolon, rfl, last⟩ := List.map_eq_singleton_iff.mp closing
  obtain ⟨isName, same⟩ := Token.kind_of_word first
  obtain ⟨isMark, _⟩ := Token.kind_of_word second
  obtain ⟨isLast, _⟩ := Token.kind_of_word last
  obtain ⟨derived, readable⟩ := derives_grid small value valueWords
  have target : Expression .relational [name] (.name "A") := same ▸ (Expression.name isName).relax (by decide)
  constructor
  · exact .assign target (by rw [isMark]; decide) derived isLast
  · have before : Readable ([name] ++ [mark]) :=
      (readable_mark (by simp [isName]) (by simp [isName])).append (readable_mark (by simp [isMark]) (by simp [isMark]))
    exact before.append (readable.append (readable_mark (by simp [isLast]) (by simp [isLast])))

/-- The assignment of a printed grid is parsed as one statement. -/
theorem parse_assignment :
    ∃ tree, Tree.ofSource (String.ofList (assignmentText grid)) = .ok tree ∧
      tree.Represents [assignmentPhrase grid] := by
  obtain ⟨tokens, scanned, words⟩ := (scans_assignment grid).scanned
  obtain ⟨used, ending, rfl, front, back⟩ := List.map_eq_append_iff.mp words
  obtain ⟨last, rfl, ended⟩ := List.map_eq_singleton_iff.mp back
  obtain ⟨isEnd, _⟩ := Token.kind_of_word ended
  obtain ⟨derived, readable⟩ := derives_assignment small front
  have sequence : Sequence Stated (used ++ []) [assignmentPhrase grid] := .cons derived .nil
  rw [List.append_nil] at sequence
  obtain ⟨tree, parsed, represents, _⟩ := parse_of_sequence sequence isEnd readable (start_of_ended isEnd)
  refine ⟨tree, ?_, represents⟩
  rw [Tree.ofSource, scanned]
  simp only [parsed]

end

end Printing

end MatrixScript
