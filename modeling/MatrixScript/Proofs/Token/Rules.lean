import MatrixScript.Proofs.Token.Lexeme

/-! What the lexical rules take from a text. -/

set_option autoImplicit false

namespace MatrixScript

namespace Rule

theorem run_split (inClass : Char → Bool) (text : List Char) :
    ∃ front after, text = front ++ after ∧ front.length = run inClass text ∧ (∀ c ∈ front, inClass c) ∧
      ∀ c ∈ after.head?, ¬inClass c := by
  refine ⟨text.takeWhile inClass, text.dropWhile inClass, List.takeWhile_append_dropWhile.symm, rfl,
    List.all_eq_true.mp List.all_takeWhile, fun c member holds => ?_⟩
  have stopped := List.head?_dropWhile_not inClass text
  rw [Option.mem_def.mp member] at stopped
  exact absurd holds (by simpa using stopped)

theorem run_append {inClass : Char → Bool} {front after : List Char} (all : ∀ c ∈ front, inClass c)
    (stops : ∀ c ∈ after.head?, ¬inClass c) : run inClass (front ++ after) = front.length := by
  rw [run, List.takeWhile_append_of_pos all]
  cases after with
  | nil => simp
  | cons c rest => simp [stops c rfl]

theorem someRun?_split {inClass : Char → Bool} {text : List Char} {length : Nat}
    (took : someRun? inClass text = some length) :
    ∃ front after, text = front ++ after ∧ front.length = length ∧ front ≠ [] ∧ ∀ c ∈ front, inClass c := by
  obtain ⟨front, after, same, count, all, _⟩ := run_split inClass text
  unfold someRun? at took
  split at took
  · cases took
  · next nonzero =>
    cases took
    refine ⟨front, after, same, count, ?_, all⟩
    rintro rfl
    exact nonzero count.symm

theorem wordLength?_split {text : List Char} {length : Nat} (took : wordLength? text = some length) :
    ∃ front after, text = front ++ after ∧ front.length = length ∧ IsWord front := by
  cases text with
  | nil => cases took
  | cons c rest =>
    simp only [wordLength?] at took
    split at took
    · next start =>
      cases took
      obtain ⟨front, after, rfl, count, all, _⟩ := run_split isWordPart rest
      exact ⟨c :: front, after, rfl, by rw [List.length_cons, count], .mk start all⟩
    · cases took

theorem exponentLength_cons (c : Char) (rest : List Char) :
    ∃ sign tail, rest = sign ++ tail ∧ sign ∈ [[], ['+'], ['-']] ∧ exponentLength (c :: rest) =
      if (c = 'e' ∨ c = 'E') ∧ 0 < run Text.isDigit tail then 1 + sign.length + run Text.isDigit tail else 0 := by
  simp only [exponentLength]
  split
  · exact ⟨['+'], _, rfl, by simp, rfl⟩
  · exact ⟨['-'], _, rfl, by simp, rfl⟩
  · exact ⟨[], rest, rfl, by simp, rfl⟩

theorem exponentLength_split (text : List Char) :
    ∃ front after, text = front ++ after ∧ front.length = exponentLength text ∧ IsExponent front := by
  cases text with
  | nil => exact ⟨[], [], rfl, rfl, .none⟩
  | cons c rest =>
    obtain ⟨sign, tail, rfl, listed, count⟩ := exponentLength_cons c rest
    obtain ⟨digits, after, rfl, many, all, _⟩ := run_split Text.isDigit tail
    rw [count, ← many]
    split
    · next marked =>
      have some : digits ≠ [] := List.length_pos_iff.mp marked.2
      exact ⟨c :: (sign ++ digits), after, by simp, by simp; omega, .some marked.1 listed some all⟩
    · exact ⟨[], _, rfl, rfl, .none⟩

theorem floatLength?_split {text : List Char} {length : Nat} (took : floatLength? text = some length) :
    ∃ front after, text = front ++ after ∧ front.length = length ∧ IsFloat front := by
  obtain ⟨whole, tail, rfl, count, all, _⟩ := run_split Text.isDigit text
  simp only [floatLength?, ← count, List.drop_left] at took
  split at took
  · next rest _ =>
    obtain ⟨fraction, tail, rfl, many, digits, _⟩ := run_split Text.isDigit rest
    obtain ⟨exponent, after, rfl, size, isExponent⟩ := exponentLength_split tail
    rw [← many, List.drop_left, ← size] at took
    split at took
    · cases took
    · next some =>
      cases took
      refine ⟨whole ++ '.' :: (fraction ++ exponent), after, by simp, by simp; omega, .mk all digits ?_ isExponent⟩
      rwa [List.length_eq_zero_iff, List.length_eq_zero_iff, Classical.not_and_iff_not_or_not] at some
  · cases took

theorem closingLength?_split {taken length : Nat} {text : List Char} (took : closingLength? taken text = some length) :
    ∃ raw after, text = raw ++ '"' :: after ∧ taken + raw.length + 1 = length ∧ IsRaw raw := by
  fun_induction closingLength? taken text with
  | case1 => cases took
  | case2 taken =>
    cases took
    exact ⟨[], [], rfl, rfl, .nil⟩
  | case3 => cases took
  | case4 taken d rest =>
    cases took
    exact ⟨[], d :: rest, rfl, rfl, .nil⟩
  | case5 => cases took
  | case6 => cases took
  | case7 taken d rest other _ _ ih =>
    obtain ⟨raw, after, rfl, count, isRaw⟩ := ih took
    exact ⟨'\\' :: d :: raw, after, rfl, by simp; omega, .escaped other isRaw⟩
  | case8 taken c d rest quote newline backslash ih =>
    obtain ⟨raw, after, same, count, isRaw⟩ := ih took
    exact ⟨c :: raw, after, by rw [same]; rfl, by simp; omega, .plain quote backslash newline isRaw⟩

theorem commentLength?_split {text : List Char} {length : Nat} (took : commentLength? text = some length) :
    ∃ body after, text = '#' :: (body ++ after) ∧ body.length + 1 = length ∧ '\n' ∉ body ∧ EndsLine after := by
  unfold commentLength? at took
  split at took
  · next rest =>
    cases took
    obtain ⟨body, after, rfl, count, all, stops⟩ := run_split (· != '\n') rest
    refine ⟨body, after, rfl, by rw [count], fun member => absurd (all _ member) (by decide), fun c member => ?_⟩
    simpa using stops c member
  · cases took

/-- What a rule takes is the writing of the token that it makes, or a part of a gap when it makes none. -/
structure Takes (rule : Rule) (lexeme after : List Char) : Prop where
  nonempty : lexeme ≠ []
  written : ∀ kind value, rule.token? lexeme = some (kind, value) → Lexeme kind value lexeme
  gap : rule.token? lexeme = none → Gap after lexeme

theorem length?_takes {rule : Rule} {text : List Char} {length : Nat} (listed : rule ∈ table)
    (took : rule.length? text = some length) :
    ∃ lexeme after, text = lexeme ++ after ∧ lexeme.length = length ∧ rule.Takes lexeme after := by
  cases rule with
  | word =>
    obtain ⟨front, after, same, count, isWord⟩ := wordLength?_split took
    refine ⟨front, after, same, count, ⟨isWord.nonempty, ?_, nofun⟩⟩
    intro kind value made
    cases made
    exact .word isWord
  | float =>
    obtain ⟨front, after, same, count, isFloat⟩ := floatLength?_split took
    refine ⟨front, after, same, count, ⟨isFloat.nonempty, ?_, nofun⟩⟩
    intro kind value made
    cases made
    exact .float isFloat
  | int =>
    obtain ⟨front, after, same, count, some, all⟩ := someRun?_split took
    refine ⟨front, after, same, count, ⟨some, ?_, nofun⟩⟩
    intro kind value made
    cases made
    exact .int some all
  | blank =>
    obtain ⟨front, after, same, count, some, all⟩ := someRun?_split took
    exact ⟨front, after, same, count, ⟨some, nofun, fun _ => .blanks all⟩⟩
  | quoted =>
    simp only [length?, textLength?] at took
    split at took
    · obtain ⟨raw, after, rfl, count, isRaw⟩ := closingLength?_split took
      refine ⟨'"' :: (raw ++ ['"']), after, by simp, by simp; omega, ⟨nofun, ?_, nofun⟩⟩
      intro kind value made
      -- the value is what stands between the quotes
      simp only [token?, List.drop_succ_cons, List.drop_zero, List.dropLast_concat] at made
      cases made
      exact .text isRaw
    · cases took
  | comment =>
    obtain ⟨body, after, same, count, oneLine, ends⟩ := commentLength?_split took
    refine ⟨'#' :: body, after, same, count, ⟨nofun, nofun, fun _ => ?_⟩⟩
    have gap : Gap after ('#' :: (body ++ [])) := .comment oneLine ends .nil
    rwa [List.append_nil] at gap
  | mark kind lexeme =>
    have member : (kind, lexeme) ∈ marks := by simpa [table] using listed
    simp only [length?, markLength?] at took
    split at took
    · next isPrefix =>
      cases took
      obtain ⟨after, same⟩ := List.isPrefixOf_iff_prefix.mp isPrefix
      refine ⟨lexeme.toList, after, same.symm, rfl, ⟨(Lexeme.mark member).nonempty, ?_, nofun⟩⟩
      intro kind value made
      cases made
      exact .mark member
    · cases took

theorem first?_eq_some {text : List Char} {rule : Rule} {length : Nat} (found : first? text = some (rule, length)) :
    rule ∈ table ∧ rule.length? text = some length := by
  obtain ⟨listed, member, took⟩ := List.exists_of_findSome?_eq_some found
  obtain ⟨_, took, same⟩ := Option.map_eq_some_iff.mp took
  cases same
  exact ⟨member, took⟩

theorem first?_eq_none {text : List Char} (nothing : first? text = none) :
    ∀ rule ∈ table, rule.length? text = none := by
  intro rule member
  exact Option.map_eq_none_iff.mp (List.findSome?_eq_none_iff.mp nothing rule member)

theorem first?_of_earlier (earlier : List Rule) {text : List Char} {later : List Rule} {rule : Rule} {length : Nat}
    (place : table = earlier ++ rule :: later) (took : rule.length? text = some length)
    (nothing : ∀ other ∈ earlier, other.length? text = none) : first? text = some (rule, length) := by
  apply List.findSome?_eq_some_iff.mpr
  refine ⟨earlier, rule, later, place, by rw [took]; rfl, fun other member => ?_⟩
  rw [nothing other member]
  rfl

section

variable {c : Char} {rest : List Char}

theorem wordLength?_of_start (other : ¬isWordStart c) : wordLength? (c :: rest) = none := by
  simp [wordLength?, other]

theorem someRun?_of_start {inClass : Char → Bool} (other : ¬inClass c) : someRun? inClass (c :: rest) = none := by
  simp [someRun?, run, other]

theorem floatLength?_of_start (other : ¬Text.isDigit c) (point : c = '.' → ∀ d ∈ rest.head?, ¬Text.isDigit d) :
    floatLength? (c :: rest) = none := by
  have whole : run Text.isDigit (c :: rest) = 0 := by simp [run, other]
  simp only [floatLength?, whole, List.drop_zero]
  split
  · next tail same =>
    cases same
    have fraction : run Text.isDigit ([] ++ rest) = 0 := run_append (by simp) (point rfl)
    simp_all
  · rfl

end

/-- What cannot belong to the word, number or mark in front of it. -/
def Detached (after : List Char) : Prop :=
  ∀ c ∈ after.head?, ¬isWordPart c ∧ ¬Text.isDigit c ∧ c ≠ '.' ∧ c ≠ '='

/-- A mark stands before all that it begins with, and is prolonged to an earlier mark by an equals sign only. -/
theorem marks_ordered : marks.Pairwise fun earlier later =>
    ¬earlier.2.toList <+: later.2.toList ∧
      (later.2.toList <+: earlier.2.toList → earlier.2.toList = later.2.toList ++ ['=']) := by
  decide +kernel

/-- The start of a mark: nothing that a word, a number, a gap or a text could begin with. -/
def opensMark : List Char → Bool
  | '.' :: d :: _ => !Text.isDigit d
  | c :: _ => !isWordStart c && !Text.isDigit c && !Text.isBlank c && c != '"' && c != '#' && c != '.'
  | [] => false

theorem marks_open : ∀ mark ∈ marks, opensMark mark.2.toList := by decide

theorem length?_of_opensMark {lexeme : List Char} (opens : opensMark lexeme) (after : List Char) :
    ∀ rule ∈ [word, float, int, blank, quoted, comment], rule.length? (lexeme ++ after) = none := by
  have start : ∃ c rest, lexeme ++ after = c :: rest ∧ ¬isWordStart c ∧ ¬Text.isDigit c ∧ ¬Text.isBlank c ∧
      c ≠ '"' ∧ c ≠ '#' ∧ (c = '.' → ∀ d ∈ rest.head?, ¬Text.isDigit d) := by
    unfold opensMark at opens
    split at opens
    · next d rest =>
      refine ⟨'.', d :: (rest ++ after), rfl, by decide, by decide, by decide, by decide, by decide, fun _ => ?_⟩
      simpa using opens
    · next c rest _ =>
      simp only [Bool.and_eq_true, Bool.not_eq_true', bne_iff_ne, ← Bool.not_eq_true] at opens
      obtain ⟨⟨⟨⟨⟨word, digit⟩, blank⟩, quote⟩, comment⟩, point⟩ := opens
      exact ⟨c, rest ++ after, rfl, word, digit, blank, quote, comment, fun same => absurd same point⟩
    · cases opens
  obtain ⟨c, rest, same, word, digit, blank, quote, comment, point⟩ := start
  rw [same]
  simp only [List.forall_mem_cons, length?]
  refine ⟨wordLength?_of_start word, floatLength?_of_start digit point, someRun?_of_start digit,
    someRun?_of_start blank, ?_, ?_, nofun⟩
  · simp [textLength?, quote]
  · simp [commentLength?, comment]

theorem first?_mark {kind : Kind} {lexeme : String} {after : List Char} (listed : (kind, lexeme) ∈ marks)
    (ends : ∀ c ∈ after.head?, c ≠ '=') :
    first? (lexeme.toList ++ after) = some (.mark kind lexeme, lexeme.toList.length) := by
  obtain ⟨earlier, later, place⟩ := List.append_of_mem listed
  have place' : table = ([word, float, int, blank, quoted, comment] ++ earlier.map fun mark => .mark mark.1 mark.2) ++
      mark kind lexeme :: later.map fun mark => .mark mark.1 mark.2 := by
    simp [table, place]
  have took : (mark kind lexeme).length? (lexeme.toList ++ after) = some lexeme.toList.length := by
    simp [length?, markLength?, List.isPrefixOf_iff_prefix]
  apply first?_of_earlier _ place' took
  intro rule member
  rcases List.mem_append.mp member with member | member
  · exact length?_of_opensMark (marks_open _ listed) after rule member
  · obtain ⟨⟨other, longer⟩, earlierMark, rfl⟩ := List.mem_map.mp member
    have ordered := marks_ordered
    rw [place, List.pairwise_append] at ordered
    obtain ⟨notShorter, prolonged⟩ := ordered.2.2 _ earlierMark _ List.mem_cons_self
    -- an earlier mark could only go on behind this one, with an equals sign
    have refused : ¬longer.toList <+: lexeme.toList ++ after := by
      intro isPrefix
      rcases List.prefix_or_prefix_of_prefix isPrefix (List.prefix_append _ _) with shorter | contained
      · exact notShorter shorter
      · rw [prolonged contained, List.prefix_append_right_inj] at isPrefix
        obtain ⟨more, rfl⟩ := isPrefix
        exact ends '=' rfl rfl
    simp [length?, markLength?, List.isPrefixOf_iff_prefix, refused]

section

variable {lexeme after : List Char}

theorem first?_word (isWord : IsWord lexeme) (detached : Detached after) :
    first? (lexeme ++ after) = some (.word, lexeme.length) := by
  cases isWord with
  | @mk first rest start parts =>
    have took : wordLength? (first :: (rest ++ after)) = some (rest.length + 1) := by
      rw [wordLength?, if_pos start, run_append parts fun c member => (detached c member).1]
    exact first?_of_earlier [] rfl took (by simp)

theorem exponentLength_append (exponent : IsExponent lexeme) (detached : Detached after) :
    exponentLength (lexeme ++ after) = lexeme.length := by
  have stops : ∀ c ∈ after.head?, ¬Text.isDigit c := fun c member => (detached c member).2.1
  cases exponent with
  | none =>
    cases after with
    | nil => rfl
    | cons c rest =>
      have other : ¬(c = 'e' ∨ c = 'E') := by
        rintro (rfl | rfl) <;> exact (detached _ rfl).1 (by decide)
      simp [exponentLength, other]
  | @some mark sign digits marked signed many all =>
    have count : run Text.isDigit (digits ++ after) = digits.length := run_append all stops
    have positive : 0 < digits.length := List.length_pos_iff.mpr many
    simp only [List.mem_cons, List.not_mem_nil, or_false] at signed
    rcases signed with rfl | rfl | rfl
    · obtain ⟨first, rest, rfl⟩ := List.exists_cons_of_ne_nil many
      have digit := all first List.mem_cons_self
      have unsigned : first ≠ '+' ∧ first ≠ '-' := by
        constructor <;> rintro rfl <;> exact absurd digit (by decide)
      simp only [List.nil_append, List.cons_append] at count ⊢
      simp [exponentLength, count, marked, unsigned]
      omega
    · simp [exponentLength, count, marked, positive]
      omega
    · simp [exponentLength, count, marked, positive]
      omega

theorem first?_float (isFloat : IsFloat lexeme) (detached : Detached after) :
    first? (lexeme ++ after) = some (.float, lexeme.length) := by
  cases isFloat with
  | @mk whole fraction exponent digits decimals point isExponent =>
    have stops : ∀ c ∈ (exponent ++ after).head?, ¬Text.isDigit c := by
      cases isExponent with
      | none => exact fun c member => (detached c member).2.1
      | some marked _ _ _ =>
        intro c member
        cases member
        rcases marked with rfl | rfl <;> decide
    have count : run Text.isDigit (whole ++ '.' :: (fraction ++ (exponent ++ after))) = whole.length :=
      run_append digits (by simp; decide)
    have took : floatLength? (whole ++ '.' :: (fraction ++ (exponent ++ after))) =
        some (whole.length + 1 + fraction.length + exponent.length) := by
      have some : ¬(whole.length = 0 ∧ fraction.length = 0) := by
        rwa [List.length_eq_zero_iff, List.length_eq_zero_iff, Classical.not_and_iff_not_or_not]
      simp only [floatLength?, count, List.drop_left, run_append decimals stops,
        exponentLength_append isExponent detached, if_neg some]
    -- words are looked for first, and none begins with a digit or a point
    have noWord : wordLength? (whole ++ '.' :: (fraction ++ (exponent ++ after))) = none := by
      cases whole with
      | nil => exact wordLength?_of_start (by decide)
      | cons c rest =>
        refine wordLength?_of_start fun start => ?_
        have := isWordStart_bounds start
        have := Text.isDigit_bounds (digits c List.mem_cons_self)
        omega
    have found := first?_of_earlier [.word] rfl took (List.forall_mem_singleton.mpr noWord)
    simp only [List.append_assoc, List.cons_append, List.length_append, List.length_cons]
    rw [found]
    simp
    omega

theorem first?_int (many : lexeme ≠ []) (digits : AllDigits lexeme) (detached : Detached after) :
    first? (lexeme ++ after) = some (.int, lexeme.length) := by
  have count : run Text.isDigit (lexeme ++ after) = lexeme.length :=
    run_append digits fun c member => (detached c member).2.1
  obtain ⟨first, rest, rfl⟩ := List.exists_cons_of_ne_nil many
  have noWord : wordLength? (first :: rest ++ after) = none := by
    refine wordLength?_of_start fun start => ?_
    have := isWordStart_bounds start
    have := Text.isDigit_bounds (digits first List.mem_cons_self)
    omega
  have noFloat : floatLength? (first :: rest ++ after) = none := by
    simp only [floatLength?, count, List.drop_left]
    split
    · next tail => exact absurd rfl (detached '.' rfl).2.2.1
    · rfl
  have took : someRun? Text.isDigit (first :: rest ++ after) = some (first :: rest).length := by
    rw [someRun?, count]
    rfl
  apply first?_of_earlier [.word, .float] rfl took
  exact List.forall_mem_cons.mpr ⟨noWord, List.forall_mem_singleton.mpr noFloat⟩

theorem closingLength?_append {raw : List Char} (isRaw : IsRaw raw) (taken : Nat) (after : List Char) :
    closingLength? taken (raw ++ '"' :: after) = some (taken + raw.length + 1) := by
  induction isRaw generalizing taken with
  | nil =>
    cases after with
    | nil => simp [closingLength?]
    | cons c rest => simp [closingLength?]
  | @plain c rest quote backslash newline _ ih =>
    obtain ⟨d, more, same⟩ : ∃ d more, rest ++ '"' :: after = d :: more := by
      cases rest with
      | nil => exact ⟨_, _, rfl⟩
      | cons d rest => exact ⟨_, _, rfl⟩
    have next := ih (taken + 1)
    rw [same] at next
    rw [List.cons_append, same, closingLength?, if_neg quote, if_neg newline, if_neg backslash, next]
    simp
    omega
  | escaped newline _ ih =>
    simp only [List.cons_append, closingLength?, ih]
    simp [newline]
    omega

theorem first?_quoted {raw : List Char} (isRaw : IsRaw raw) (after : List Char) :
    first? ('"' :: (raw ++ '"' :: after)) = some (.quoted, raw.length + 2) := by
  have took : quoted.length? ('"' :: (raw ++ '"' :: after)) = some (raw.length + 2) := by
    rw [length?, textLength?, closingLength?_append isRaw]
    simp
    omega
  apply first?_of_earlier [.word, .float, .int, .blank] rfl took
  simp only [List.forall_mem_cons, length?]
  exact ⟨wordLength?_of_start (by decide), floatLength?_of_start (by decide) nofun, someRun?_of_start (by decide),
    someRun?_of_start (by decide), by simp⟩

theorem first?_blank (many : lexeme ≠ []) (blanks : ∀ c ∈ lexeme, Text.isBlank c)
    (ends : ∀ c ∈ after.head?, ¬Text.isBlank c) : first? (lexeme ++ after) = some (.blank, lexeme.length) := by
  have count : run Text.isBlank (lexeme ++ after) = lexeme.length := run_append blanks ends
  obtain ⟨first, rest, rfl⟩ := List.exists_cons_of_ne_nil many
  have blank := blanks first List.mem_cons_self
  have bounds := Text.isBlank_bounds blank
  have took : someRun? Text.isBlank (first :: rest ++ after) = some (first :: rest).length := by
    rw [someRun?, count]
    rfl
  have noWord : ¬isWordStart first := fun start => by
    have := isWordStart_bounds start
    omega
  have noDigit : ¬Text.isDigit first := fun digit => Text.not_isBlank_of_isDigit digit blank
  apply first?_of_earlier [.word, .float, .int] rfl took
  simp only [List.forall_mem_cons, length?]
  refine ⟨wordLength?_of_start noWord, floatLength?_of_start noDigit ?_, someRun?_of_start noDigit, by simp⟩
  rintro rfl
  exact absurd blank (by decide)

theorem first?_comment {body : List Char} (oneLine : '\n' ∉ body) (ends : EndsLine after) :
    first? ('#' :: (body ++ after)) = some (.comment, body.length + 1) := by
  have took : comment.length? ('#' :: (body ++ after)) = some (body.length + 1) := by
    rw [length?, commentLength?, run_append]
    · exact fun c member => bne_iff_ne.mpr fun same => oneLine (same ▸ member)
    · exact fun c member => by simp [ends c member]
  apply first?_of_earlier [.word, .float, .int, .blank, .quoted] rfl took
  simp only [List.forall_mem_cons, length?]
  exact ⟨wordLength?_of_start (by decide), floatLength?_of_start (by decide) nofun, someRun?_of_start (by decide),
    someRun?_of_start (by decide), rfl, by simp⟩

end

/-- A lexeme is taken as a whole, by a rule that makes its token of it, when what follows cannot belong to it. -/
theorem first?_lexeme {kind : Kind} {value : String} {lexeme after : List Char} (written : Lexeme kind value lexeme)
    (detached : Detached after) :
    ∃ rule, first? (lexeme ++ after) = some (rule, lexeme.length) ∧ rule.token? lexeme = some (kind, value) := by
  cases written with
  | word isWord => exact ⟨.word, first?_word isWord detached, rfl⟩
  | int many digits => exact ⟨.int, first?_int many digits detached, rfl⟩
  | float isFloat => exact ⟨.float, first?_float isFloat detached, rfl⟩
  | text isRaw => exact ⟨.quoted, by simpa using first?_quoted isRaw after, by simp [token?]⟩
  | mark listed => exact ⟨.mark _ _, first?_mark listed fun c member => (detached c member).2.2.2, rfl⟩

end Rule

end MatrixScript
