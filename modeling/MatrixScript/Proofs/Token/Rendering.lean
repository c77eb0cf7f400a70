import MatrixScript.Proofs.Token.Steps

/-! Scanning undoes writing.

Tokens that are written one behind the other, with a separator between any two of them, are found again in the same
order. The argument goes backwards through the text: when the tokens of its rest are known, so are those of the rest
with a token or a gap in front of it.
-/

set_option autoImplicit false

namespace MatrixScript

namespace Cursor

variable {place : Position}

theorem tokensFrom_blank {c : Char} (isBlank : Text.isBlank c) (text : List Char) :
    tokensFrom place (c :: text) = tokensFrom (place.past [c]) text := by
  obtain ⟨blanks, after, rfl, _, all, ends⟩ := Rule.run_split Text.isBlank text
  have first := Rule.first?_blank (List.cons_ne_nil c blanks) (List.forall_mem_cons.mpr ⟨isBlank, all⟩) ends
  have together : tokensFrom place (c :: (blanks ++ after)) = tokensFrom (place.past (c :: blanks)) after :=
    tokensFrom_gap (List.cons_ne_nil c blanks) first rfl
  have split : place.past (c :: blanks) = (place.past [c]).past blanks := Position.past_append place [c] blanks
  rw [together, split]
  by_cases single : blanks = []
  · rw [single]
    rfl
  · exact (tokensFrom_gap single (Rule.first?_blank single all ends) rfl).symm

theorem tokensFrom_skip {part after : List Char} (gap : Gap after part) :
    tokensFrom place (part ++ after) = tokensFrom (place.past part) after := by
  induction gap generalizing place with
  | nil => rfl
  | @blank c rest isBlank _ ih =>
    rw [List.cons_append, tokensFrom_blank isBlank, ih, ← Position.past_append]
    rfl
  | @comment body rest oneLine ends _ ih =>
    have first := Rule.first?_comment oneLine ends
    calc tokensFrom place ('#' :: (body ++ rest) ++ after)
        = tokensFrom place ('#' :: body ++ (rest ++ after)) := by simp
      _ = tokensFrom (place.past ('#' :: body)) (rest ++ after) := tokensFrom_gap nofun first rfl
      _ = tokensFrom (place.past ('#' :: (body ++ rest))) after := by
        rw [ih, ← Position.past_append]
        rfl

end Cursor

def Token.word (token : Token) : Kind × String := (token.kind, token.value)

/-- Scanning a text succeeds, from any place on, and comes to tokens of these kinds and values, and the end. -/
def Scans (text : List Char) (words : List (Kind × String)) : Prop :=
  ∀ place, ∃ tokens, Cursor.tokensFrom place text = .ok tokens ∧ tokens.map Token.word = words ++ [(.eof, "EOF")]

namespace Scans

variable {after : List Char} {words : List (Kind × String)}

theorem nil : Scans [] [] := fun place => ⟨[Token.atEnd place], rfl, rfl⟩

theorem taken {kind : Kind} {value : String} {lexeme : List Char} {rule : Rule} (written : Lexeme kind value lexeme)
    (nonempty : lexeme ≠ []) (first : Rule.first? (lexeme ++ after) = some (rule, lexeme.length))
    (made : rule.token? lexeme = some (kind, value)) (rest : Scans after words) :
    Scans (lexeme ++ after) ((kind, value) :: words) := by
  intro place
  obtain ⟨tokens, same, found⟩ := rest (place.past lexeme)
  rw [Cursor.tokensFrom_lexeme written nonempty first made, same]
  exact ⟨_, rfl, by rw [List.map_cons, found]; rfl⟩

theorem lexeme {kind : Kind} {value : String} {lexeme : List Char} (written : Lexeme kind value lexeme)
    (detached : Rule.Detached after) (rest : Scans after words) : Scans (lexeme ++ after) ((kind, value) :: words) := by
  obtain ⟨rule, first, made⟩ := Rule.first?_lexeme written detached
  exact rest.taken written written.nonempty first made

theorem mark {kind : Kind} {value : String} (listed : (kind, value) ∈ Rule.marks)
    (ends : ∀ c ∈ after.head?, c ≠ '=') (rest : Scans after words) :
    Scans (value.toList ++ after) ((kind, value) :: words) :=
  rest.taken (.mark listed) (Lexeme.mark listed).nonempty (Rule.first?_mark listed ends) rfl

theorem gap {part : List Char} (isGap : Gap after part) (rest : Scans after words) : Scans (part ++ after) words := by
  intro place
  rw [Cursor.tokensFrom_skip isGap]
  exact rest (place.past part)

theorem scanned {text : List Char} (scans : Scans text words) :
    ∃ tokens, scan (String.ofList text) = .ok tokens ∧ tokens.map Token.word = words ++ [(.eof, "EOF")] := by
  obtain ⟨tokens, found, same⟩ := scans ⟨0, 1⟩
  refine ⟨tokens, ?_, same⟩
  rw [← found, scan, Cursor.start, String.toList_ofList]
  rfl

end Scans

/-- The kinds and values that tokens of a source can have, but for the end. -/
inductive Genuine : Kind → String → Prop where
  | reserved {kind : Kind} {word : String} : (word, kind) ∈ reservedWords → Genuine kind word
  | name {word : String} : IsWord word.toList → (∀ kind, (word, kind) ∉ reservedWords) → Genuine .name word
  | int {digits : String} : digits.toList ≠ [] → AllDigits digits.toList → Genuine .int digits
  | float {text : String} : IsFloat text.toList → Genuine .float text
  | text (value : String) : Genuine .text value
  | mark {kind : Kind} {lexeme : String} : (kind, lexeme) ∈ Rule.marks → Genuine kind lexeme

def escape (c : Char) : List Char :=
  if c = '\\' then ['\\', '\\'] else if c = '"' then ['\\', '"'] else if c = '\n' then ['\\', 'n'] else [c]

def spelling : Kind → String → List Char
  | .text, value => '"' :: (value.toList.flatMap escape ++ ['"'])
  | _, value => value.toList

theorem isRaw_escape (text : List Char) : IsRaw (text.flatMap escape) := by
  induction text with
  | nil => exact .nil
  | cons c rest ih =>
    rw [List.flatMap_cons, escape]
    split
    · exact .escaped (by decide) ih
    · split
      · exact .escaped (by decide) ih
      · split
        · exact .escaped (by decide) ih
        · next backslash quote newline => exact .plain quote backslash newline ih

theorem Rule.unescape_cons {c : Char} (other : c ≠ '\\') (rest : List Char) :
    unescape (c :: rest) = c :: unescape rest := by
  cases rest with
  | nil => rfl
  | cons d rest => simp [unescape, other]

theorem unescape_escape (text : List Char) : Rule.unescape (text.flatMap escape) = text := by
  induction text with
  | nil => rfl
  | cons c rest ih =>
    rw [List.flatMap_cons, escape]
    split
    · simp [Rule.unescape, Rule.escaped, *]
    · split
      · simp [Rule.unescape, Rule.escaped, *]
      · split
        · simp [Rule.unescape, Rule.escaped, *]
        · next backslash _ _ => simp [Rule.unescape_cons backslash, ih]

theorem reservedWords_known :
    ∀ entry ∈ reservedWords, IsWord entry.1.toList ∧ wordKind entry.1 = entry.2 ∧ entry.2 ≠ .text := by
  decide +kernel

theorem wordKind_of_not_reserved {word : String} (free : ∀ kind, (word, kind) ∉ reservedWords) :
    wordKind word = .name := by
  have missing : reservedWords.lookup word = none := by
    rw [List.lookup_eq_none_iff]
    intro entry member
    rw [bne_iff_ne]
    rintro rfl
    exact free entry.2 member
  rw [wordKind, missing]
  rfl

theorem spelling_of_ne_text {kind : Kind} (other : kind ≠ .text) (value : String) :
    spelling kind value = value.toList := by
  cases kind <;> first | rfl | contradiction

theorem Genuine.lexeme {kind : Kind} {value : String} (genuine : Genuine kind value) :
    Lexeme kind value (spelling kind value) := by
  cases genuine with
  | reserved member =>
    obtain ⟨isWord, same, other⟩ := reservedWords_known _ member
    have written := Lexeme.word isWord
    rw [String.ofList_toList, same] at written
    rwa [spelling_of_ne_text other]
  | name isWord free =>
    have written := Lexeme.word isWord
    rwa [String.ofList_toList, wordKind_of_not_reserved free] at written
  | int many digits => simpa [spelling] using Lexeme.int many digits
  | float isFloat => simpa [spelling] using Lexeme.float isFloat
  | text => simpa [spelling, unescape_escape] using Lexeme.text (isRaw_escape value.toList)
  | mark listed =>
    have known : ∀ mark ∈ Rule.marks, mark.1 ≠ .text := by decide
    rw [spelling_of_ne_text (known _ listed)]
    exact .mark listed

/-- Blanks and whole comment lines, at least one of them. -/
inductive Separator : List Char → Prop where
  | blank {c : Char} : Text.isBlank c → Separator [c]
  | comment {body : List Char} : '\n' ∉ body → Separator ('#' :: (body ++ ['\n']))
  | append {first second : List Char} : Separator first → Separator second → Separator (first ++ second)

theorem Separator.gap {separator : List Char} (separates : Separator separator) (after : List Char) :
    Gap after separator := by
  induction separates generalizing after with
  | blank isBlank => exact .blank isBlank .nil
  | comment oneLine => exact .comment oneLine (by simp [EndsLine]) (.blank (by decide) .nil)
  | append _ _ front back => exact (front _).append (back after)

theorem Separator.detached {separator : List Char} (separates : Separator separator) (after : List Char) :
    Rule.Detached (separator ++ after) := by
  induction separates generalizing after with
  | @blank c isBlank =>
    intro d same
    cases same
    have bounds := Text.isBlank_bounds isBlank
    refine ⟨fun part => ?_, fun digit => Text.not_isBlank_of_isDigit digit isBlank, ?_, ?_⟩
    · have := Rule.isWordPart_bounds part
      omega
    · rintro rfl
      exact absurd isBlank (by decide)
    · rintro rfl
      exact absurd isBlank (by decide)
  | comment =>
    intro d same
    cases same
    decide
  | append _ _ front _ =>
    rw [List.append_assoc]
    exact front _

/-- Tokens written one behind the other, each but the last with a separator behind it. -/
def joined : List (Kind × String) → (Nat → List Char) → List Char
  | [], _ => []
  | [(kind, value)], _ => spelling kind value
  | (kind, value) :: next :: rest, separator =>
    spelling kind value ++ (separator 0 ++ joined (next :: rest) fun i => separator (i + 1))

theorem Scans.joined {words : List (Kind × String)} {separator : Nat → List Char}
    (genuine : ∀ word ∈ words, Genuine word.1 word.2) (separates : ∀ i, Separator (separator i)) :
    Scans (joined words separator) words := by
  induction words generalizing separator with
  | nil => exact nil
  | cons word rest ih =>
    have written := (genuine word List.mem_cons_self).lexeme
    cases rest with
    | nil =>
      have alone := nil.lexeme written (by simp [Rule.Detached])
      rwa [List.append_nil] at alone
    | cons next rest =>
      have behind := ih (fun word member => genuine word (List.mem_cons_of_mem _ member)) fun i => separates (i + 1)
      have first := separates 0
      -- no separator can begin with anything that would prolong the token in front of it
      exact (behind.gap (first.gap _)).lexeme written (first.detached _)

/-- Whatever tokens are written with whatever separators between them, scanning finds those tokens and then the end. -/
theorem scan_joined (words : List (Kind × String)) (separator : Nat → List Char)
    (genuine : ∀ word ∈ words, Genuine word.1 word.2) (separates : ∀ i, Separator (separator i)) :
    ∃ tokens, scan (String.ofList (joined words separator)) = .ok tokens ∧
      tokens.map (fun token => (token.kind, token.value)) = words ++ [(.eof, "EOF")] :=
  (Scans.joined genuine separates).scanned

/-- A text that needs every escape, among words, numbers and marks, and a comment in each separator. -/
theorem quotedAmidComments_scanned :
    let words := [(Kind.float, ".5e-3"), (Kind.text, "a\\\"\n"), (Kind.name, "if_"), (Kind.ifWord, "if"),
      (Kind.openParen, "("), (Kind.int, "07"), (Kind.dotPlus, ".+"), (Kind.assign, "=")]
    let separator : List Char := "#= \"\n".toList
    (∀ word ∈ words, Genuine word.1 word.2) ∧ Separator separator ∧
      ∃ tokens, scan (String.ofList (joined words fun _ => separator)) = .ok tokens ∧
        tokens.map (fun token => (token.kind, token.value)) = words ++ [(.eof, "EOF")] := by
  intro words separator
  have genuine : ∀ word ∈ words, Genuine word.1 word.2 := by
    simp only [words, List.forall_mem_cons]
    refine ⟨.float ?_, .text _, .name ?_ ?_, .reserved ?_, .mark ?_, .int nofun ?_, .mark ?_, .mark ?_, nofun⟩
    · show IsFloat ([] ++ '.' :: (['5'] ++ 'e' :: (['-'] ++ ['3'])))
      exact .mk (by decide) (by decide) (by decide) (.some (by decide) (by decide) (by decide) (by decide))
    · decide
    · simp [reservedWords]
    all_goals decide
  have separates : Separator ('#' :: (['=', ' ', '"'] ++ ['\n'])) := .comment (by decide)
  exact ⟨genuine, separates, scan_joined words _ genuine fun _ => separates⟩

end MatrixScript
