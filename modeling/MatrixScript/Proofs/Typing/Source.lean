import MatrixScript.Proofs.Grammar.Language
import MatrixScript.Proofs.Typing.Statement

/-! From a source text to an accepted program. -/

set_option autoImplicit false

namespace MatrixScript

variable {source : String} {program : Program} {tokens : List Token}

theorem Tree.ofSource_eq_ok {tree : Tree} (read : Tree.ofSource source = .ok tree) :
    ∃ tokens, scan source = .ok tokens ∧ parse tokens = .ok tree := by
  unfold Tree.ofSource at read
  cases scanned : scan source with
  | error failure =>
    rw [scanned] at read
    cases read
  | ok tokens =>
    refine ⟨tokens, rfl, ?_⟩
    rw [scanned] at read
    dsimp only at read
    cases parsed : parse tokens with
    | error failure =>
      rw [parsed] at read
      cases read
    | ok tree =>
      rw [parsed] at read
      cases read
      rfl

theorem Tree.ofSource_ne_static {findings : List Finding} : Tree.ofSource source ≠ .error (.static findings) := by
  unfold Tree.ofSource
  intro failed
  split at failed
  · cases failed
  · split at failed
    · cases failed
    · cases failed

theorem ofSource_eq_ok (accepted : Program.ofSource source = .ok program) :
    ∃ tokens tree, scan source = .ok tokens ∧ parse tokens = .ok tree ∧ (check tree).hasFindings = false ∧
      program = ⟨tree, (check tree).types⟩ := by
  unfold Program.ofSource at accepted
  cases read : Tree.ofSource source with
  | error rejection =>
    rw [read] at accepted
    cases accepted
  | ok tree =>
    obtain ⟨tokens, scanned, parsed⟩ := Tree.ofSource_eq_ok read
    rw [read] at accepted
    simp only at accepted
    split at accepted
    · cases accepted
    · next clean =>
      cases accepted
      exact ⟨tokens, tree, scanned, parsed, Bool.eq_false_iff.mpr clean, rfl⟩

theorem ofSource_eq_static {findings : List Finding} :
    Program.ofSource source = .error (.static findings) ↔
      ∃ tree, Tree.ofSource source = .ok tree ∧ (check tree).findings = findings ∧ findings ≠ [] := by
  have found (result : CheckResult) : result.hasFindings = true ↔ result.findings ≠ [] := by
    rw [CheckResult.hasFindings, Bool.not_eq_true', List.isEmpty_eq_false_iff]
  unfold Program.ofSource
  cases read : Tree.ofSource source with
  | error rejection =>
    constructor
    · intro refused
      cases refused
      exact absurd read Tree.ofSource_ne_static
    · rintro ⟨_, same, _⟩
      cases same
  | ok tree =>
    simp only
    split
    · next any =>
      constructor
      · intro refused
        cases refused
        exact ⟨tree, rfl, rfl, (found _).mp any⟩
      · rintro ⟨_, same, rfl, _⟩
        cases same
        rfl
    · next none =>
      constructor
      · intro accepted
        cases accepted
      · rintro ⟨_, same, rfl, any⟩
        cases same
        exact absurd ((found _).mpr any) none

theorem accepted_of_source (accepted : Program.ofSource source = .ok program) : Accepted program := by
  obtain ⟨tokens, tree, _, parsed, clean, rfl⟩ := ofSource_eq_ok accepted
  obtain ⟨body, represents, _⟩ := parse_represents parsed
  exact accepted_of_check represents clean

theorem scanFrom_length {steps : Nat} {cursor : Cursor} {found : List Token}
    (scanned : cursor.scanFrom steps found = .ok tokens) : tokens.length ≤ found.length + steps + 1 := by
  induction steps generalizing cursor found with
  | zero =>
    cases scanned
    simp
  | succ steps ih =>
    unfold Cursor.scanFrom at scanned
    split at scanned
    · cases scanned
      simp
    · split at scanned
      · cases scanned
      · next rule length _ =>
        have rest := ih scanned
        rw [List.length_append] at rest
        have few : (cursor.token? rule length).toList.length ≤ 1 := by
          cases cursor.token? rule length with
          | none => exact Nat.zero_le _
          | some token => exact Nat.le_refl _
        omega

theorem length_le_bytes (text : String) : text.toList.length ≤ text.utf8ByteSize := by
  induction text using String.push_induction with
  | empty => exact Nat.le_refl _
  | push text c ih =>
    have positive := c.utf8Size_pos
    rw [String.toList_push, String.utf8ByteSize_push, List.length_append, List.length_singleton]
    omega

/-- The tree of a source has no more expressions than the source has bytes, and one. -/
theorem exprs_of_source (accepted : Program.ofSource source = .ok program) :
    program.tree.exprs.size ≤ source.utf8ByteSize + 1 := by
  obtain ⟨tokens, tree, scanned, parsed, _, rfl⟩ := ofSource_eq_ok accepted
  obtain ⟨_, _, few⟩ := parse_represents parsed
  have count := scanFrom_length scanned
  have bytes := length_le_bytes source
  simp only [List.length_nil, Cursor.start] at count
  exact Nat.le_trans few (by omega)

theorem exists_ok {ε α : Type} {outcome : Except ε α} {test : α → Bool} (passes : outcome.toOption.any test) :
    ∃ result, outcome = .ok result ∧ test result := by
  cases outcome with
  | ok result => exact ⟨result, rfl, passes⟩
  | error failure => cases passes

theorem exists_accepted {test : Program → Bool} (passes : (Program.ofSource source).toOption.any test) :
    ∃ program, Program.ofSource source = .ok program ∧ test program :=
  exists_ok passes

end MatrixScript
