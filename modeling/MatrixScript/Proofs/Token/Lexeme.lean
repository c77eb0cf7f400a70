import MatrixScript.Token.Rule

/-! How tokens are written.

Every token has a writing: a word, a number, a text between quotes, or a mark. Tokens are kept apart by gaps of blanks
and comments. What a rule takes from the start of a text is the writing of a token or a part of a gap.
-/

set_option autoImplicit false

namespace MatrixScript

namespace Text

theorem mem_of_inRanges {ranges : List (Nat × Nat)} {point : Nat} (inside : inRanges ranges point = true) :
    ∃ range ∈ ranges, range.1 ≤ point ∧ point ≤ range.2 := by
  induction ranges with
  | nil => cases inside
  | cons range rest ih =>
    obtain ⟨low, high⟩ := range
    simp only [inRanges] at inside
    split at inside
    · cases inside
    · split at inside
      · exact ⟨(low, high), List.mem_cons_self, by omega, by omega⟩
      · obtain ⟨range, member, bounds⟩ := ih inside
        exact ⟨range, List.mem_cons_of_mem _ member, bounds⟩

theorem isDigit_bounds {c : Char} (digit : isDigit c) : 48 ≤ c.toNat ∧ c.toNat ≤ 57 ∨ 0x660 ≤ c.toNat := by
  obtain ⟨range, member, bounds⟩ := mem_of_inRanges digit
  have known : ∀ range ∈ digitRanges, range = (48, 57) ∨ 0x660 ≤ range.1 := by decide
  rcases known range member with rfl | above
  · exact .inl bounds
  · exact .inr (Nat.le_trans above bounds.1)

theorem isBlank_bounds {c : Char} (blank : isBlank c) : c.toNat ≤ 32 ∨ 0x85 ≤ c.toNat := by
  obtain ⟨range, member, bounds⟩ := mem_of_inRanges blank
  have known : ∀ range ∈ blankRanges, range.2 ≤ 32 ∨ 0x85 ≤ range.1 := by decide
  have := known range member
  omega

theorem not_isBlank_of_isDigit {c : Char} (digit : isDigit c) : ¬isBlank c := by
  intro blank
  obtain ⟨digits, listed, within⟩ := mem_of_inRanges digit
  obtain ⟨blanks, listed', within'⟩ := mem_of_inRanges blank
  have apart : ∀ digits ∈ digitRanges, ∀ blanks ∈ blankRanges, digits.2 < blanks.1 ∨ blanks.2 < digits.1 := by
    decide
  have := apart digits listed blanks listed'
  omega

end Text

namespace Rule

theorem isWordPart_bounds {c : Char} (part : isWordPart c) :
    48 ≤ c.toNat ∧ c.toNat ≤ 57 ∨ 65 ≤ c.toNat ∧ c.toNat ≤ 90 ∨ c.toNat = 95 ∨ 97 ≤ c.toNat ∧ c.toNat ≤ 122 := by
  delta isWordPart Char.isAlphanum Char.isAlpha Char.isUpper Char.isLower Char.isDigit at part
  simp only [Bool.or_eq_true, Bool.and_eq_true, decide_eq_true_eq, beq_iff_eq, ge_iff_le, UInt32.le_iff_toNat_le,
    Char.toNat_val, Char.reduceToNat] at part
  rcases part with ((part | part) | part) | rfl
  · omega
  · omega
  · omega
  · decide

theorem isWordStart_bounds {c : Char} (start : isWordStart c) : 65 ≤ c.toNat ∧ c.toNat ≤ 122 := by
  delta isWordStart Char.isAlpha Char.isUpper Char.isLower at start
  simp only [Bool.or_eq_true, Bool.and_eq_true, decide_eq_true_eq, beq_iff_eq, ge_iff_le, UInt32.le_iff_toNat_le,
    Char.toNat_val, Char.reduceToNat] at start
  rcases start with (start | start) | rfl
  · omega
  · omega
  · decide

end Rule

/-- A letter or an underscore, and then letters, digits and underscores. -/
inductive IsWord : List Char → Prop where
  | mk {first : Char} {rest : List Char} :
      Rule.isWordStart first → (∀ c ∈ rest, Rule.isWordPart c) → IsWord (first :: rest)

instance (text : List Char) : Decidable (IsWord text) :=
  match text with
  | [] => isFalse nofun
  | first :: rest =>
    decidable_of_iff (Rule.isWordStart first ∧ rest.all Rule.isWordPart)
      ⟨fun ⟨start, parts⟩ => .mk start (List.all_eq_true.mp parts),
        fun (.mk start parts) => ⟨start, List.all_eq_true.mpr parts⟩⟩

def AllDigits (text : List Char) : Prop := ∀ c ∈ text, Text.isDigit c

instance (text : List Char) : Decidable (AllDigits text) :=
  decidable_of_iff (text.all Text.isDigit) List.all_eq_true

inductive IsExponent : List Char → Prop where
  | none : IsExponent []
  | some {mark : Char} {sign digits : List Char} :
      mark = 'e' ∨ mark = 'E' → sign ∈ [[], ['+'], ['-']] → digits ≠ [] → AllDigits digits →
        IsExponent (mark :: (sign ++ digits))

/-- Digits around a point, on one side of it at least, and then an exponent. -/
inductive IsFloat : List Char → Prop where
  | mk {whole fraction exponent : List Char} :
      AllDigits whole → AllDigits fraction → whole ≠ [] ∨ fraction ≠ [] → IsExponent exponent →
        IsFloat (whole ++ '.' :: (fraction ++ exponent))

/-- What stands between the quotes of a text: no quote, backslash or newline but a backslash together with a character
behind it. -/
inductive IsRaw : List Char → Prop where
  | nil : IsRaw []
  | plain {c : Char} {rest : List Char} : c ≠ '"' → c ≠ '\\' → c ≠ '\n' → IsRaw rest → IsRaw (c :: rest)
  | escaped {c : Char} {rest : List Char} : c ≠ '\n' → IsRaw rest → IsRaw ('\\' :: c :: rest)

/-- The writing of a token with the given kind and value. Only a text is written in another way than its value. -/
inductive Lexeme : Kind → String → List Char → Prop where
  | word {text : List Char} : IsWord text → Lexeme (wordKind (String.ofList text)) (String.ofList text) text
  | int {digits : List Char} : digits ≠ [] → AllDigits digits → Lexeme .int (String.ofList digits) digits
  | float {text : List Char} : IsFloat text → Lexeme .float (String.ofList text) text
  | text {raw : List Char} :
      IsRaw raw → Lexeme .text (String.ofList (Rule.unescape raw)) ('"' :: (raw ++ ['"']))
  | mark {kind : Kind} {lexeme : String} : (kind, lexeme) ∈ Rule.marks → Lexeme kind lexeme lexeme.toList

def EndsLine (text : List Char) : Prop := ∀ c ∈ text.head?, c = '\n'

/-- Blanks and comments in front of the text `after`. A comment takes the rest of its line. -/
inductive Gap (after : List Char) : List Char → Prop where
  | nil : Gap after []
  | blank {c : Char} {rest : List Char} : Text.isBlank c → Gap after rest → Gap after (c :: rest)
  | comment {body rest : List Char} :
      '\n' ∉ body → EndsLine (rest ++ after) → Gap after rest → Gap after ('#' :: (body ++ rest))

theorem Gap.append {first second after : List Char} (front : Gap (second ++ after) first) (back : Gap after second) :
    Gap after (first ++ second) := by
  induction front with
  | nil => exact back
  | blank blank _ ih => exact .blank blank ih
  | comment oneLine ends _ ih =>
    rw [List.cons_append, List.append_assoc]
    exact .comment oneLine (by rwa [List.append_assoc]) ih

theorem Gap.blanks {blanks after : List Char} (all : ∀ c ∈ blanks, Text.isBlank c) : Gap after blanks := by
  induction blanks with
  | nil => exact .nil
  | cons c rest ih =>
    exact .blank (all c List.mem_cons_self) (ih fun c member => all c (List.mem_cons_of_mem _ member))

theorem AllDigits.oneLine {text : List Char} (all : AllDigits text) : '\n' ∉ text :=
  fun member => absurd (all '\n' member) (by decide)

theorem IsExponent.oneLine {text : List Char} (exponent : IsExponent text) : '\n' ∉ text := by
  cases exponent with
  | none => exact nofun
  | some mark sign _ all =>
    simp only [List.mem_cons, List.not_mem_nil, or_false] at sign
    rcases mark with rfl | rfl <;> rcases sign with rfl | rfl | rfl <;> simp [all.oneLine]

theorem IsRaw.oneLine {text : List Char} (raw : IsRaw text) : '\n' ∉ text := by
  induction raw with
  | nil => exact nofun
  | plain _ _ other _ ih => simp [Ne.symm other, ih]
  | escaped other _ ih => simp [Ne.symm other, ih]

theorem IsWord.nonempty {text : List Char} (isWord : IsWord text) : text ≠ [] := by
  cases isWord
  exact nofun

theorem IsFloat.nonempty {text : List Char} (isFloat : IsFloat text) : text ≠ [] := by
  cases isFloat
  simp

theorem Lexeme.nonempty {kind : Kind} {value : String} {lexeme : List Char} (written : Lexeme kind value lexeme) :
    lexeme ≠ [] := by
  cases written with
  | word isWord => exact isWord.nonempty
  | int many _ => exact many
  | float isFloat => exact isFloat.nonempty
  | text _ => exact nofun
  | mark listed =>
    have known : ∀ mark ∈ Rule.marks, mark.2.toList ≠ [] := by decide
    exact known _ listed

theorem Lexeme.oneLine {kind : Kind} {value : String} {lexeme : List Char} (written : Lexeme kind value lexeme) :
    '\n' ∉ lexeme := by
  cases written with
  | word isWord =>
    obtain ⟨start, parts⟩ := isWord
    rintro (_ | ⟨_, member⟩)
    · exact absurd start (by decide)
    · exact absurd (parts '\n' member) (by decide)
  | int _ all => exact all.oneLine
  | float isFloat =>
    obtain ⟨whole, fraction, _, exponent⟩ := isFloat
    simp [whole.oneLine, fraction.oneLine, exponent.oneLine]
  | text raw => simp [raw.oneLine]
  | mark listed =>
    have known : ∀ mark ∈ Rule.marks, '\n' ∉ mark.2.toList := by decide
    exact known _ listed

end MatrixScript
