import MatrixScript.Proofs.Token.Steps

/-! The first rule is the longest.

Two different rules never take equally much from one text, and of two rules that take something the one that stands
earlier in the table takes more. So the first rule that takes anything is the only one that takes most, and scanning is
the same as taking the longest match at every step, whatever the order of the rules.
-/

set_option autoImplicit false

namespace MatrixScript

namespace Rule

/-- Where both rules take something from a text, the first takes more. -/
def Outlasts (longer shorter : Rule) : Prop :=
  ∀ text taken fewer, longer.length? text = some taken → shorter.length? text = some fewer → fewer < taken

structure Longest (rule : Rule) (text : List Char) (length : Nat) : Prop where
  listed : rule ∈ table
  takes : rule.length? text = some length
  most : ∀ other ∈ table, ∀ taken, other.length? text = some taken → taken ≤ length

/-- The characters that something with no fixed spelling can begin with. -/
def begins : Rule → Char → Prop
  | word, c => isWordStart c
  | float, c => Text.isDigit c ∨ c = '.'
  | int, c => Text.isDigit c
  | blank, c => Text.isBlank c
  | quoted, c => c = '"'
  | comment, c => c = '#'
  | mark _ _, _ => False

def unfixed : List Rule := [word, float, int, blank, quoted, comment]

theorem table_eq : table = unfixed ++ marks.map fun (kind, lexeme) => mark kind lexeme := rfl

theorem begins_of_length? {rule : Rule} (listed : rule ∈ unfixed) {text : List Char} {length : Nat}
    (took : rule.length? text = some length) : ∃ c ∈ text.head?, rule.begins c := by
  cases text with
  | nil =>
    have nothing : ∀ rule ∈ unfixed, rule.length? [] = none := by
      simp [unfixed, length?, wordLength?, floatLength?, someRun?, run, textLength?, commentLength?]
    rw [nothing rule listed] at took
    cases took
  | cons c rest =>
    refine ⟨c, rfl, Classical.byContradiction fun other => ?_⟩
    have nothing : rule.length? (c :: rest) = none := by
      simp only [unfixed, List.mem_cons, List.not_mem_nil, or_false] at listed
      rcases listed with rfl | rfl | rfl | rfl | rfl | rfl
      · exact wordLength?_of_start other
      · obtain ⟨digit, point⟩ := not_or.mp other
        exact floatLength?_of_start digit fun same => absurd same point
      · exact someRun?_of_start other
      · exact someRun?_of_start other
      · simp [length?, textLength?, show c ≠ '"' from other]
      · simp [length?, commentLength?, show c ≠ '#' from other]
    rw [nothing] at took
    cases took

theorem float_outlasts_int : float.Outlasts int := by
  intro text taken fewer long short
  have whole : fewer = run Text.isDigit text := by
    simp only [length?, someRun?] at short
    split at short
    · cases short
    · exact (Option.some.inj short).symm
  simp only [length?, floatLength?] at long
  split at long
  · split at long
    · cases long
    · have := Option.some.inj long
      omega
  · cases long

theorem begins_bounds {rule : Rule} {c : Char} (begun : rule.begins c) :
    match rule with
    | word => 65 ≤ c.toNat ∧ c.toNat ≤ 122
    | float => c.toNat = 46 ∨ 48 ≤ c.toNat ∧ c.toNat ≤ 57 ∨ 0x660 ≤ c.toNat
    | int => 48 ≤ c.toNat ∧ c.toNat ≤ 57 ∨ 0x660 ≤ c.toNat
    | blank => c.toNat ≤ 32 ∨ 0x85 ≤ c.toNat
    | quoted => c.toNat = 34
    | comment => c.toNat = 35
    | mark _ _ => False := by
  cases rule with
  | word => exact isWordStart_bounds begun
  | float => exact begun.symm.imp (congrArg Char.toNat) Text.isDigit_bounds
  | int => exact Text.isDigit_bounds begun
  | blank => exact Text.isBlank_bounds begun
  | quoted | comment => exact congrArg Char.toNat begun
  | mark => exact begun

theorem begins_apart : unfixed.Pairwise fun first second =>
    first = float ∧ second = int ∨ ∀ c, first.begins c → ¬second.begins c := by
  -- digits and blanks are mixed behind ASCII, all others are apart by their places
  have integers (c : Char) (digit : int.begins c) : ¬blank.begins c := Text.not_isBlank_of_isDigit digit
  have floats (c : Char) (start : float.begins c) : ¬blank.begins c := by
    rcases start with digit | rfl
    · exact integers c digit
    · exact (by decide : ¬Text.isBlank '.')
  simp only [unfixed, List.pairwise_cons, List.forall_mem_cons]
  refine ⟨⟨.inr ?_, .inr ?_, .inr ?_, .inr ?_, .inr ?_, nofun⟩,
    ⟨.inl ⟨trivial, trivial⟩, .inr floats, .inr ?_, .inr ?_, nofun⟩,
    ⟨.inr integers, .inr ?_, .inr ?_, nofun⟩, ⟨.inr ?_, .inr ?_, nofun⟩, ⟨.inr ?_, nofun⟩, nofun, .nil⟩
  all_goals
    intro c first second
    have place := begins_bounds first
    have place' := begins_bounds second
    simp only at place place'
    omega

theorem unfixed_ordered : unfixed.Pairwise Outlasts := by
  refine begins_apart.imp_of_mem fun {first second} listed listed' apart => ?_
  rcases apart with ⟨rfl, rfl⟩ | apart
  · exact float_outlasts_int
  · intro text taken fewer long short
    obtain ⟨c, head, begun⟩ := begins_of_length? listed long
    obtain ⟨c', head', begun'⟩ := begins_of_length? listed' short
    cases Option.some.inj (head.symm.trans head')
    exact absurd begun' (apart c begun)

theorem length?_mark {kind : Kind} {lexeme : String} {text : List Char} {length : Nat} :
    (mark kind lexeme).length? text = some length ↔ lexeme.toList <+: text ∧ lexeme.toList.length = length := by
  simp [length?, markLength?, List.isPrefixOf_iff_prefix]

/-- Of two marks that a text begins with, one begins with the other, and is the earlier one. -/
theorem marks_outlast : (marks.map fun (kind, lexeme) => mark kind lexeme).Pairwise Outlasts := by
  refine List.pairwise_map.mpr (marks_ordered.imp fun {earlier later} ordered text taken fewer long short => ?_)
  obtain ⟨begun, rfl⟩ := length?_mark.mp long
  obtain ⟨begun', rfl⟩ := length?_mark.mp short
  rcases List.prefix_or_prefix_of_prefix begun begun' with within | within
  · exact absurd within ordered.1
  · rw [ordered.2 within, List.length_append]
    exact Nat.lt_succ_self _

theorem table_ordered : table.Pairwise Outlasts := by
  rw [table_eq]
  refine List.pairwise_append.mpr ⟨unfixed_ordered, marks_outlast, ?_⟩
  -- a text that begins with a mark is left alone by all other rules
  intro rule listed other listed' text taken fewer long short
  obtain ⟨⟨kind, lexeme⟩, member, rfl⟩ := List.mem_map.mp listed'
  obtain ⟨⟨after, rfl⟩, _⟩ := length?_mark.mp short
  rw [length?_of_opensMark (marks_open _ member) after rule listed] at long
  cases long

theorem first?_longest {text : List Char} {rule : Rule} {length : Nat} (first : first? text = some (rule, length)) :
    rule.Longest text length ∧
      ∀ other ∈ table, other ≠ rule → ∀ taken, other.length? text = some taken → taken < length := by
  obtain ⟨listed, takes⟩ := first?_eq_some first
  have shorter : ∀ other ∈ table, other ≠ rule → ∀ taken, other.length? text = some taken → taken < length := by
    intro other member different taken took
    obtain ⟨earlier, winner, later, place, won, nothing⟩ := List.findSome?_eq_some_iff.mp first
    obtain ⟨_, _, same⟩ := Option.map_eq_some_iff.mp won
    cases same
    have ordered := table_ordered
    rw [place] at member ordered
    rcases List.mem_append.mp member with before | behind
    · have none := nothing other before
      rw [took] at none
      cases none
    · rcases List.mem_cons.mp behind with rfl | behind
      · exact absurd rfl different
      · have outlasts := (List.pairwise_cons.mp (List.pairwise_append.mp ordered).2.1).1 other behind
        exact outlasts text length taken takes took
  refine ⟨⟨listed, takes, fun other member taken took => ?_⟩, shorter⟩
  by_cases same : other = rule
  · subst same
    exact Nat.le_of_eq (Option.some.inj (took.symm.trans takes))
  · exact Nat.le_of_lt (shorter other member same taken took)

theorem first?_eq_none_iff {text : List Char} : first? text = none ↔ ∀ rule ∈ table, rule.length? text = none := by
  refine ⟨first?_eq_none, fun nothing => List.findSome?_eq_none_iff.mpr fun rule listed => ?_⟩
  rw [nothing rule listed]
  rfl

theorem first?_isSome {text : List Char} {rule : Rule} (listed : rule ∈ table) {taken : Nat}
    (took : rule.length? text = some taken) : ∃ winner longest, first? text = some (winner, longest) := by
  cases first : first? text with
  | none =>
    rw [first?_eq_none first rule listed] at took
    cases took
  | some won => exact ⟨won.1, won.2, rfl⟩

theorem first?_eq_some_iff_longest {text : List Char} {rule : Rule} {length : Nat} :
    first? text = some (rule, length) ↔ rule.Longest text length := by
  refine ⟨fun first => (first?_longest first).1, fun longest => ?_⟩
  obtain ⟨winner, most, first⟩ := first?_isSome longest.listed longest.takes
  obtain ⟨won, shorter⟩ := first?_longest first
  by_cases same : rule = winner
  · subst same
    rw [first, Option.some.inj (won.takes.symm.trans longest.takes)]
  · have := shorter rule longest.listed same length longest.takes
    have := longest.most winner won.listed most won.takes
    omega

end Rule

/-- What taking the longest match at every step makes of a text from a place on. The order of the rules plays no
part. -/
inductive Munches : Position → List Char → Except Failure (List Token) → Prop where
  | finished {place : Position} : Munches place [] (.ok [Token.atEnd place])
  | refused {place : Position} {c : Char} {rest : List Char} :
      (∀ rule ∈ Rule.table, rule.length? (c :: rest) = none) →
        Munches place (c :: rest) (.error ⟨.unrecognised c.toString, place⟩)
  | taken {place : Position} {rule : Rule} {lexeme after : List Char} {result : Except Failure (List Token)} :
      rule.Longest (lexeme ++ after) lexeme.length → Munches (place.past lexeme) after result →
        Munches place (lexeme ++ after)
          (result.map ((Cursor.token? ⟨lexeme ++ after, place⟩ rule lexeme.length).toList ++ ·))

namespace Cursor

variable {place : Position}

theorem tokensFrom_step {rule : Rule} {lexeme after : List Char} (nonempty : lexeme ≠ [])
    (first : Rule.first? (lexeme ++ after) = some (rule, lexeme.length)) :
    tokensFrom place (lexeme ++ after) =
      (tokensFrom (place.past lexeme) after).map
        ((token? ⟨lexeme ++ after, place⟩ rule lexeme.length).toList ++ ·) := by
  obtain ⟨c, rest, rfl⟩ := List.exists_cons_of_ne_nil nonempty
  have enough : after.length ≤ (rest ++ after).length := by simp
  have flipped (token : Option Token) : (token.toList ++ []).reverse = token.toList := by cases token <;> rfl
  calc tokensFrom place (c :: rest ++ after)
      = scanFrom ((rest ++ after).length + 1) ⟨c :: rest ++ after, place⟩ [] := rfl
    _ = scanFrom (rest ++ after).length ⟨after, _⟩ _ := scanFrom_step nonempty first
    _ = _ := (tokensFrom_spec _ after).2 _ _ enough
    _ = _ := by rw [flipped]

theorem tokensFrom_munches (place : Position) (text : List Char) : Munches place text (tokensFrom place text) := by
  induction size : text.length using Nat.strongRecOn generalizing text place with
  | ind n ih =>
    subst size
    cases text with
    | nil => exact .finished
    | cons c rest =>
      cases first : Rule.first? (c :: rest) with
      | none =>
        have refused : tokensFrom place (c :: rest) = .error ⟨.unrecognised c.toString, place⟩ := scanFrom_none first
        rw [refused]
        exact .refused (Rule.first?_eq_none first)
      | some won =>
        obtain ⟨rule, length⟩ := won
        obtain ⟨listed, took⟩ := Rule.first?_eq_some first
        obtain ⟨lexeme, after, same, rfl, takes⟩ := Rule.length?_takes listed took
        have positive := List.length_pos_iff.mpr takes.nonempty
        have shorter : after.length < (c :: rest).length := by
          rw [same, List.length_append]
          omega
        have rest := ih _ shorter (place.past lexeme) after rfl
        rw [same] at first ⊢
        rw [tokensFrom_step takes.nonempty first]
        exact .taken (Rule.first?_longest first).1 rest

theorem munches_iff {text : List Char} {result : Except Failure (List Token)} :
    Munches place text result ↔ tokensFrom place text = result := by
  constructor
  · intro munches
    induction munches with
    | finished => rfl
    | refused nothing => exact scanFrom_none (Rule.first?_eq_none_iff.mpr nothing)
    | @taken place rule lexeme after result longest _ ih =>
      obtain ⟨front, behind, same, count, takes⟩ := Rule.length?_takes longest.listed longest.takes
      obtain ⟨rfl, rfl⟩ := List.append_inj same count.symm
      rw [tokensFrom_step takes.nonempty (Rule.first?_eq_some_iff_longest.mpr longest), ih]
  · rintro rfl
    exact tokensFrom_munches place text

end Cursor

/-- When a rule takes something from a text, the first rule of the table that takes anything takes at least as much, and
more unless it is the same rule. So scanning a source takes the longest match at every step. -/
theorem first_match_is_longest :
    (∀ text, ∀ rule ∈ Rule.table, ∀ taken, rule.length? text = some taken →
      ∃ winner longest, Rule.first? text = some (winner, longest) ∧ taken ≤ longest ∧
        (rule ≠ winner → taken < longest)) ∧
    ∀ source result, scan source = result ↔ Munches ⟨0, 1⟩ source.toList result := by
  refine ⟨fun text rule listed taken took => ?_, fun source result => Cursor.munches_iff.symm⟩
  obtain ⟨winner, longest, first⟩ := Rule.first?_isSome listed took
  obtain ⟨won, shorter⟩ := Rule.first?_longest first
  exact ⟨winner, longest, first, won.most rule listed taken took,
    fun different => shorter rule listed different taken took⟩

/-- An integer is the beginning of a float, and `+` that of `+=`. -/
theorem prolonged_match_is_longest :
    (Rule.int ∈ Rule.table ∧ Rule.int.length? "1.5e3 += x".toList = some 1 ∧
      ∃ winner longest, Rule.first? "1.5e3 += x".toList = some (winner, longest) ∧ 1 ≤ longest ∧
        (.int ≠ winner → 1 < longest)) ∧
    (Rule.mark .plus "+" ∈ Rule.table ∧ (Rule.mark .plus "+").length? "+= x".toList = some 1 ∧
      ∃ winner longest, Rule.first? "+= x".toList = some (winner, longest) ∧ 1 ≤ longest ∧
        (.mark .plus "+" ≠ winner → 1 < longest)) ∧
    Munches ⟨0, 1⟩ "1.5e3 += x".toList (scan "1.5e3 += x") := by
  obtain ⟨longest, munches⟩ := first_match_is_longest
  have integer : Rule.int ∈ Rule.table ∧ Rule.int.length? "1.5e3 += x".toList = some 1 := by decide
  have plus : Rule.mark .plus "+" ∈ Rule.table ∧ (Rule.mark .plus "+").length? "+= x".toList = some 1 := by decide
  exact ⟨⟨integer.1, integer.2, longest _ _ integer.1 _ integer.2⟩, ⟨plus.1, plus.2, longest _ _ plus.1 _ plus.2⟩,
    (munches _ _).mp rfl⟩

end MatrixScript
