import MatrixScript.Proofs.Evaluation.Simulation

/-! Runs of statements keep the memory in agreement. -/

set_option autoImplicit false

namespace MatrixScript

open Typing Execution

variable {Fits : ExprId → Value → Prop} {Allowed : Fault → Prop}

/-- How a run leaves a statement: what was declared outside the current scope holds in any case, and what the
statement declared holds when control goes on behind it. -/
def Leaves (Fits : ExprId → Value → Prop) (before after : Declarations ExprId) (flow : Flow) (machine : Machine) : Prop :=
  AgreesOutside Fits before machine.memory ∧ (flow = .normal → Agrees Fits after machine.memory)

theorem Agrees.leaves {before after : Declarations ExprId} {machine : Machine} (within : Within Fits before after)
    (agrees : Agrees Fits after machine.memory) (flow : Flow) : Leaves Fits before after flow machine :=
  ⟨within.symm.outside agrees.outside, fun _ => agrees⟩

theorem Around.leaves {before after : Declarations ExprId} {machine : Machine} (around : Around Fits before after)
    (agrees : Agrees Fits before machine.memory) (flow : Flow) : Leaves Fits before after flow machine :=
  ⟨agrees.outside, fun _ => around.agrees agrees⟩

theorem AgreesOutside.leave {before declared : Declarations ExprId} {memory : Memory Value} {label : String}
    (around : Around Fits before declared) (outside : AgreesOutside Fits (declared.push label) memory) :
    Agrees Fits before memory.exit.2 := by
  have agrees := outside.exit rfl
  rw [declared.pop_push] at agrees
  exact around.symm.agrees agrees

section

variable {statement : StmtId → Check Unit} {run : StmtId → Run Flow} {checker : Checker} {ids : List StmtId}

theorem sequence_leaves
    (within : ∀ before next after, ids = before ++ next :: after →
      Within Fits (before.forM statement checker).2.declared
        (statement next (before.forM statement checker).2).2.declared)
    (each : ∀ before next after machine, ids = before ++ next :: after →
      Agrees Fits (before.forM statement checker).2.declared machine.memory →
      Ends Allowed (Leaves Fits (before.forM statement checker).2.declared
        (statement next (before.forM statement checker).2).2.declared) (run next machine))
    {before after : List StmtId} (split : ids = before ++ after) {machine : Machine}
    (agrees : Agrees Fits (before.forM statement checker).2.declared machine.memory) :
    Ends Allowed (Leaves Fits checker.declared (ids.forM statement checker).2.declared)
      (sequence run after machine) := by
  induction after generalizing before machine with
  | nil =>
    rw [List.append_nil] at split
    subst split
    exact agrees.leaves (forM_within within (List.append_nil _).symm) .normal
  | cons next rest ih =>
    have kept := forM_within within split
    refine (each before next rest machine split agrees).bind fun flow later leaves => ?_
    have outside := kept.symm.outside leaves.1
    -- any other flow skips the rest, and the outer scopes are the same at the end of the list
    cases flow with
    | normal =>
      have behind : ids = (before ++ [next]) ++ rest := by rw [split, List.append_assoc, List.singleton_append]
      refine ih behind ?_
      rw [forM_append]
      exact leaves.2 rfl
    | breaking | continuing | returning _ => exact ⟨outside, fun same => (nomatch same)⟩

variable (statement) in
theorem Sequenced.agrees
    (each : ∀ before next after machine, ids = before ++ next :: after →
      Agrees Fits (before.forM statement checker).2.declared machine.memory →
      Ends Allowed (Leaves Fits (before.forM statement checker).2.declared
        (statement next (before.forM statement checker).2).2.declared) (run next machine))
    {before after : List StmtId} {next : StmtId} {machine later : Machine}
    (sequenced : Sequenced run after machine next later) (split : ids = before ++ after)
    (agrees : Agrees Fits (before.forM statement checker).2.declared machine.memory) :
    ∃ front back, ids = front ++ next :: back ∧
      Agrees Fits (front.forM statement checker).2.declared later.memory := by
  induction sequenced generalizing before with
  | @first id rest machine => exact ⟨before, rest, split, agrees⟩
  | @next id _ rest machine between _ ran _ ih =>
    have leaves := each before id rest machine split agrees
    rw [ran] at leaves
    have behind : ids = (before ++ [id]) ++ rest := by rw [split, List.append_assoc, List.singleton_append]
    refine ih behind ?_
    rw [forM_append]
    exact leaves.2 rfl

end

section

variable {declared : Declarations ExprId} {name : String} {start : ExprId} {body : Run Flow}

/-- A body may be run whenever the names of its own scope agree, and may change and forget them. -/
def Loops (Fits : ExprId → Value → Prop) (Allowed : Fault → Prop) (declared : Declarations ExprId)
    (body : Run Flow) : Prop :=
  ∀ machine, Agrees Fits declared machine.memory →
    Ends Allowed (fun _ later => AgreesOutside Fits declared later.memory) (body machine)

theorem counted_round (only : declared.innermost.names = [name]) (found : declared.lookup? name = some start)
    (fits : ∀ counter, Fits start (.int counter)) {machine : Machine}
    (outside : AgreesOutside Fits declared machine.memory) (counter : Int64) :
    Agrees Fits declared (machine.bind name (.int counter)).memory :=
  outside.bind only found (fits counter)

theorem counted_outside (only : declared.innermost.names = [name]) (found : declared.lookup? name = some start)
    (fits : ∀ counter, Fits start (.int counter)) (loops : Loops Fits Allowed declared body) {count : Nat}
    {counter : Int64} {machine : Machine} (outside : AgreesOutside Fits declared machine.memory) :
    Ends Allowed (fun _ later => AgreesOutside Fits declared later.memory)
      (counted name body count counter machine) := by
  induction count generalizing counter machine with
  | zero => exact outside
  | succ count ih =>
    have round := counted_round only found fits outside counter
    have first : Ends Allowed (fun _ later => Agrees Fits declared later.memory)
        (Execution.bind name (.int counter) machine) := round
    refine first.bind fun _ entered agrees => (loops entered agrees).bind fun flow later outside => ?_
    cases flow with
    | normal | continuing => exact ih outside
    | breaking | returning _ => exact outside

theorem Counted.agrees (only : declared.innermost.names = [name]) (found : declared.lookup? name = some start)
    (fits : ∀ counter, Fits start (.int counter)) (loops : Loops Fits Allowed declared body) {count : Nat}
    {counter : Int64} {machine later : Machine} (counted : Counted name body count counter machine later)
    (outside : AgreesOutside Fits declared machine.memory) : Agrees Fits declared later.memory := by
  induction counted with
  | first => exact counted_round only found fits outside _
  | @next _ counter _ _ _ _ ran _ _ ih =>
    have round := loops _ (counted_round only found fits outside counter)
    rw [ran] at round
    exact ih round

variable {label : String} {condition : Run Bool}

def Reads (Fits : ExprId → Value → Prop) (Allowed : Fault → Prop) (declared : Declarations ExprId)
    (condition : Run Bool) : Prop :=
  ∀ machine, Shows Fits declared machine.memory → Ends Allowed (fun _ later => later = machine) (condition machine)

theorem repeated_outside (reads : Reads Fits Allowed declared condition)
    (loops : Loops Fits Allowed (declared.push label) body) {steps : Nat} {machine : Machine}
    (outside : AgreesOutside Fits (declared.push label) machine.memory) :
    Ends Allowed (fun _ later => AgreesOutside Fits (declared.push label) later.memory)
      (repeated condition body steps machine) := by
  induction steps generalizing machine with
  | zero => trivial
  | succ steps ih =>
    have agrees := outside.again
    refine (reads machine agrees.shows).bind fun truth tested same => ?_
    subst same
    cases truth with
    | false => exact outside
    | true =>
      refine (loops _ agrees).bind fun flow later outside => ?_
      cases flow with
      | normal | continuing => exact ih outside
      | breaking | returning _ => exact outside

theorem Tested.outside (reads : Reads Fits Allowed declared condition)
    (loops : Loops Fits Allowed (declared.push label) body) {steps : Nat} {machine later : Machine}
    (tested : Tested condition body steps machine later)
    (outside : AgreesOutside Fits (declared.push label) machine.memory) :
    AgreesOutside Fits (declared.push label) later.memory := by
  induction tested with
  | first => exact outside
  | next held ran _ _ ih =>
    have agrees := outside.again
    have same := reads _ agrees.shows
    rw [held] at same
    cases same
    have round := loops _ agrees
    rw [ran] at round
    exact ih round

end

section

variable {program : Program} {depth steps : Nat} {id : StmtId} {checker : Checker} {machine : Machine} {span : Span}
  (accepted : Accepted program) (sound : SoundProgram program.tree Fits Allowed)
  (visited : Visited program.tree (depth + 1) id checker) (agrees : Agrees Fits checker.declared machine.memory)

def InnerLeaves (Fits : ExprId → Value → Prop) (Allowed : Fault → Prop) (tree : Tree) (steps depth : Nat) (stmt : Stmt)
    (checker : Checker) : Prop :=
  ∀ next later, Enters tree depth stmt checker next later → ∀ machine, Agrees Fits later.declared machine.memory →
    Ends Allowed (Leaves Fits later.declared (checkWithin tree depth next later).2.declared)
      (execute tree steps next machine)

theorem InnerLeaves.loops {tree : Tree} {stmt : Stmt} (inner : InnerLeaves Fits Allowed tree steps depth stmt checker)
    {next : StmtId} {later : Checker} (enters : Enters tree depth stmt checker next later) :
    Loops Fits Allowed later.declared (execute tree steps next) :=
  fun machine agrees => (inner next later enters machine agrees).mono fun _ _ leaves => leaves.1

theorem execute_apply {tree : Tree} {stmt : Stmt} (found : tree.stmt? id = some stmt) (steps : Nat) :
    execute tree (steps + 1) id = node tree (execute tree steps) steps stmt := by
  rw [execute, found]

include accepted visited agrees

theorem forRange_rounds {name : String} {range : ExprId} {body : StmtId}
    (safe : Sound program.tree Fits Allowed checker ⟨.forRange name range body, span⟩)
    (found : program.tree.stmt? id = some ⟨.forRange name range body, span⟩) :
    ∃ start, (∀ counter, Fits start (.int counter)) ∧ checker.declared.lookup? name = none ∧
      (declareCounter program.tree span.start.line name range
        (enter "loop" 1 (typeOf program.tree range checker).2)).2.declared =
          (checker.declared.push "loop").declare name start ∧
      AgreesOutside Fits ((checker.declared.push "loop").declare name start) (machine.enter "loop").memory := by
  obtain ⟨lo, hi, sits⟩ := accepted.sits visited
  obtain ⟨new, ⟨start, stop, node, fits⟩, _⟩ := safe
  have entered := (agrees.enter "loop" "loop").outside
  exact ⟨start, fits, new, sits.counter_declared found node new _, (Within.declare_push new "loop" start).outside entered⟩

theorem forRange_agrees {name : String} {range : ExprId} {body : StmtId}
    (safe : Sound program.tree Fits Allowed checker ⟨.forRange name range body, span⟩)
    (found : program.tree.stmt? id = some ⟨.forRange name range body, span⟩)
    (inner : InnerLeaves Fits Allowed program.tree steps depth ⟨.forRange name range body, span⟩ checker) :
    Ends Allowed (fun _ later => Agrees Fits checker.declared later.memory)
      (execute program.tree (steps + 1) id machine) := by
  obtain ⟨start, fits, new, declared, outside⟩ := forRange_rounds accepted visited agrees safe found
  have loops := inner.loops (.forRange rfl)
  simp only at loops
  rw [declared] at loops
  rw [execute_apply found]
  refine (safe.2.2 machine agrees.shows).bind fun bounds later same => ?_
  subst same
  obtain ⟨first, last⟩ := bounds
  refine Ends.inScope ((counted_outside (checker.declared.names_declare_push new "loop" start) ?_ fits loops
    outside).mono fun _ later outside => ?_)
  · rw [Declarations.lookup?_declare, if_pos rfl]
  · exact AgreesOutside.leave (.refl _) ((Within.declare_push new "loop" start).symm.outside outside)

theorem while_agrees {condition : ExprId} {body : StmtId}
    (safe : Sound program.tree Fits Allowed checker ⟨.whileLoop condition body, span⟩)
    (found : program.tree.stmt? id = some ⟨.whileLoop condition body, span⟩)
    (inner : InnerLeaves Fits Allowed program.tree steps depth ⟨.whileLoop condition body, span⟩ checker) :
    Ends Allowed (fun _ later => Agrees Fits checker.declared later.memory)
      (execute program.tree (steps + 1) id machine) := by
  obtain ⟨lo, hi, sits⟩ := accepted.sits visited
  have loops := inner.loops (.whileLoop rfl)
  simp only [enter] at loops
  rw [sits.while_declared found] at loops
  rw [execute_apply found]
  refine Ends.inScope ((repeated_outside safe loops (agrees.enter "loop" "loop").outside).mono fun _ later outside => ?_)
  exact AgreesOutside.leave (.refl _) outside

theorem branch_agrees {condition : ExprId} {thenBody : StmtId} {elseBody : Option StmtId}
    (safe : Sound program.tree Fits Allowed checker ⟨.branch condition thenBody elseBody, span⟩)
    (found : program.tree.stmt? id = some ⟨.branch condition thenBody elseBody, span⟩)
    (within : InnerWithin program.tree Fits depth ⟨.branch condition thenBody elseBody, span⟩ checker)
    (inner : InnerLeaves Fits Allowed program.tree steps depth ⟨.branch condition thenBody elseBody, span⟩ checker) :
    Ends Allowed (fun _ later => Agrees Fits checker.declared later.memory)
      (execute program.tree (steps + 1) id machine) := by
  obtain ⟨lo, hi, sits⟩ := accepted.sits visited
  rw [execute_apply found]
  refine Ends.inScope ((safe (machine.enter "if") (agrees.enter "if" "if").shows).bind fun truth later same => ?_)
  subst same
  cases truth with
  | true =>
    have first := inner _ _ (.thenBody rfl)
    simp only [enter] at first
    rw [sits.branch_declared found] at first
    refine (first _ (agrees.enter "if" "if")).mono fun flow later leaves => ?_
    exact AgreesOutside.leave (.refl _) leaves.1
  | false =>
    cases elseBody with
    | none => exact AgreesOutside.leave (.refl _) (agrees.enter "if" "if").outside
    | some elseBody =>
      have around := then_around accepted visited found within
      have second := inner _ _ (.elseBody rfl) (machine.enter "if") ((around.agrees agrees).enter "else" "if")
      refine second.mono fun flow later leaves => ?_
      exact AgreesOutside.leave around leaves.1

end

theorem printLine_ends (output : ∀ reason, Allowed (.output reason)) (line : String) (position : Position)
    (machine : Machine) :
    Ends Allowed (fun _ later => later.memory = machine.memory) (printLine line position machine) := by
  show Ends Allowed _ ((if (machine.sink.write (line ++ "\n")).1 then pure () else
    fail position (.output "sink is full") : Run Unit) { machine with sink := (machine.sink.write (line ++ "\n")).2 })
  split
  · rfl
  · exact output _

section

variable {program : Program} {depth steps : Nat} {id : StmtId} {checker : Checker} {machine : Machine}

/-- A statement may be run in any state that agrees with what was declared in front of it, and leaves the machine in
agreement, however it is left. -/
theorem execute_leaves (accepted : Accepted program) (sound : SoundProgram program.tree Fits Allowed)
    (visited : Visited program.tree depth id checker) (agrees : Agrees Fits checker.declared machine.memory) :
    Ends Allowed (Leaves Fits checker.declared (checkWithin program.tree depth id checker).2.declared)
      (execute program.tree steps id machine) := by
  induction steps generalizing depth id checker machine with
  | zero => trivial
  | succ steps ih =>
    obtain ⟨lo, hi, sits⟩ := accepted.sits visited
    obtain ⟨⟨kind, span⟩, found⟩ := sits.found
    obtain ⟨depth, rfl⟩ := sits.deeper
    have safe := sound.statement visited found
    have kept := accepted.within sound visited
    have within : InnerWithin program.tree Fits depth ⟨kind, span⟩ checker :=
      fun next later enters => accepted.within sound (.inside visited found enters)
    -- whatever it runs inside itself has a step less
    have inner : InnerLeaves Fits Allowed program.tree steps depth ⟨kind, span⟩ checker :=
      fun next later enters machine agrees => ih (.inside visited found enters) agrees
    cases kind with
    | block ids =>
      rw [execute_apply found, checkWithin_apply found]
      refine sequence_leaves (fun before next after split => ?_) (fun before next after machine split agrees => ?_)
        (List.nil_append ids).symm agrees
      · exact within _ _ (.block (congrArg StmtKind.block split))
      · exact inner _ _ (.block (congrArg StmtKind.block split)) machine agrees
    | assign target op value =>
      rw [execute_apply found]
      rw [checkWithin_apply found] at kept ⊢
      exact (safe.2 machine agrees).bind fun _ later agrees => agrees.leaves kept .normal
    | forRange name range body =>
      have around := forRange_around accepted visited safe found within
      exact (forRange_agrees accepted visited agrees safe found inner).mono fun flow _ agrees =>
        around.leaves agrees flow
    | whileLoop condition body =>
      have around := while_around accepted visited found within
      exact (while_agrees accepted visited agrees safe found inner).mono fun flow _ agrees =>
        around.leaves agrees flow
    | branch condition thenBody elseBody =>
      have around := branch_around accepted visited found within
      exact (branch_agrees accepted visited agrees safe found within inner).mono fun flow _ agrees =>
        around.leaves agrees flow
    | breakLoop | continueLoop =>
      rw [execute_apply found]
      exact ⟨agrees.outside, fun same => (nomatch same)⟩
    | giveBack values =>
      rw [execute_apply found]
      refine (safe machine agrees.shows).bind fun shown later same => ?_
      subst same
      exact ⟨agrees.outside, fun same => (nomatch same)⟩
    | print values =>
      rw [execute_apply found]
      rw [checkWithin_apply found] at kept ⊢
      refine (safe machine agrees.shows).bind fun shown later same => ?_
      subst same
      refine (printLine_ends sound.output _ _ later).bind fun _ last same => ?_
      have declared := sits.values_declared found (.inr rfl)
      refine Agrees.leaves kept ?_ .normal
      show Agrees Fits (values.forM (fun id => discard (typeOf program.tree id)) checker).2.declared last.memory
      rw [declared, same]
      exact agrees

/-- The tests of a loop are made in its frame, and nothing of it has to be known. -/
theorem tested_outside (accepted : Accepted program) (sound : SoundProgram program.tree Fits Allowed)
    (visited : Visited program.tree (depth + 1) id checker) (agrees : Agrees Fits checker.declared machine.memory)
    {condition : ExprId} {body : StmtId} {span : Span} {later : Machine}
    (found : program.tree.stmt? id = some ⟨.whileLoop condition body, span⟩)
    (tested : Tested (holds program.tree condition) (execute program.tree steps body) steps (machine.enter "loop") later) :
    AgreesOutside Fits (checker.declared.push "loop") later.memory := by
  obtain ⟨lo, hi, sits⟩ := accepted.sits visited
  have loops : Loops Fits Allowed _ (execute program.tree steps body) := fun machine agrees =>
    (execute_leaves accepted sound (.inside visited found (.whileLoop rfl)) agrees).mono fun _ _ leaves => leaves.1
  simp only [enter] at loops
  rw [sits.while_declared found] at loops
  exact tested.outside (sound.statement visited found) loops (agrees.enter "loop" "loop").outside

/-- Wherever a run comes to, the checker has been there, and what it declared there can be read. -/
theorem Moment.shows (accepted : Accepted program) (sound : SoundProgram program.tree Fits Allowed) {last : StmtId}
    {later : Machine} (moment : Moment program.tree steps id machine last later)
    (visited : Visited program.tree depth id checker) (agrees : Agrees Fits checker.declared machine.memory) :
    ∃ depth checker, Visited program.tree depth last checker ∧ Shows Fits checker.declared later.memory := by
  induction moment generalizing depth checker with
  | here => exact ⟨depth, checker, visited, agrees.shows⟩
  | @block steps id next last stmt machine between after body found known sequenced _ ih =>
    obtain ⟨lo, hi, sits⟩ := accepted.sits visited
    obtain ⟨depth, rfl⟩ := sits.deeper
    obtain ⟨front, back, split, agrees⟩ := Sequenced.agrees (checkWithin program.tree depth)
      (fun before next after machine split agrees =>
        execute_leaves accepted sound (.inside visited found (.block (known.trans (congrArg _ split)))) agrees)
      sequenced (List.nil_append body).symm agrees
    exact ih (.inside visited found (.block (known.trans (congrArg _ split)))) agrees
  | @forRange steps id body last stmt machine entered between after name range first stop found known ran counted _
      ih =>
    obtain ⟨lo, hi, sits⟩ := accepted.sits visited
    obtain ⟨depth, rfl⟩ := sits.deeper
    obtain ⟨kind, span⟩ := stmt
    simp only at known
    subst known
    have safe := sound.statement visited found
    have visited' : Visited program.tree depth body _ := .inside visited found (.forRange rfl)
    have same := safe.2.2 machine agrees.shows
    rw [ran] at same
    cases same
    obtain ⟨start, fits, new, declared, outside⟩ := forRange_rounds accepted visited agrees safe found
    refine ih visited' ?_
    have loops : Loops Fits Allowed _ (execute program.tree steps body) := fun machine agrees =>
      (execute_leaves accepted sound visited' agrees).mono fun _ _ leaves => leaves.1
    simp only at loops ⊢
    rw [declared] at loops ⊢
    refine counted.agrees (checker.declared.names_declare_push new "loop" start) ?_ fits loops outside
    rw [Declarations.lookup?_declare, if_pos rfl]
  | @test steps id body stmt machine after condition found known tested =>
    obtain ⟨lo, hi, sits⟩ := accepted.sits visited
    obtain ⟨depth, rfl⟩ := sits.deeper
    obtain ⟨kind, span⟩ := stmt
    simp only at known
    subst known
    have outside := tested_outside accepted sound visited agrees found tested
    exact ⟨depth + 1, checker, visited, outside.again.shows⟩
  | choice _ _ => exact ⟨depth, checker, visited, (agrees.enter "if" "if").shows⟩
  | @whileLoop steps id body last stmt machine tested between after condition found known reached held _ ih =>
    obtain ⟨lo, hi, sits⟩ := accepted.sits visited
    obtain ⟨depth, rfl⟩ := sits.deeper
    obtain ⟨kind, span⟩ := stmt
    simp only at known
    subst known
    have again := (tested_outside accepted sound visited agrees found reached).again
    have same := sound.statement visited found tested again.shows
    rw [held] at same
    cases same
    refine ih (.inside visited found (.whileLoop rfl)) ?_
    simp only [enter]
    rw [sits.while_declared found]
    exact again
  | @thenBody steps id body last stmt machine between after condition elseBody found known held _ ih =>
    obtain ⟨lo, hi, sits⟩ := accepted.sits visited
    obtain ⟨depth, rfl⟩ := sits.deeper
    obtain ⟨kind, span⟩ := stmt
    simp only at known
    subst known
    have entered := agrees.enter "if" "if"
    have same := sound.statement visited found (machine.enter "if") entered.shows
    rw [held] at same
    cases same
    refine ih (.inside visited found (.thenBody rfl)) ?_
    simp only [enter]
    rw [sits.branch_declared found]
    exact entered
  | @elseBody steps id thenBody body last stmt machine between after condition found known held _ ih =>
    obtain ⟨lo, hi, sits⟩ := accepted.sits visited
    obtain ⟨depth, rfl⟩ := sits.deeper
    obtain ⟨kind, span⟩ := stmt
    simp only at known
    subst known
    have same := sound.statement visited found (machine.enter "if") (agrees.enter "if" "if").shows
    rw [held] at same
    cases same
    -- the checker went through the first body, which this run did not take
    have around := then_around accepted visited found fun next later enters =>
      accepted.within sound (.inside visited found enters)
    exact ih (.inside visited found (.elseBody rfl)) ((around.agrees agrees).enter "else" "if")

theorem body_leaves (accepted : Accepted program) (sound : SoundProgram program.tree Fits Allowed)
    (steps : Nat) {before after : List StmtId} {next : StmtId} (split : program.tree.body = before ++ next :: after)
    (agrees : Agrees Fits (before.forM (checkStatement program.tree) (.start program.tree)).2.declared machine.memory) :
    Ends Allowed (Leaves Fits (before.forM (checkStatement program.tree) (.start program.tree)).2.declared
      (checkStatement program.tree next
        (before.forM (checkStatement program.tree) (.start program.tree)).2).2.declared)
      (execute program.tree steps next machine) :=
  execute_leaves accepted sound (.program split) agrees

/-- A run of a sound program ends well, with an allowed fault, or not within its steps. -/
theorem run_ends (accepted : Accepted program) (sound : SoundProgram program.tree Fits Allowed) (steps : Nat)
    (sink : Sink) {failure : Failure} (failed : (program.tree.run steps sink).outcome = .error (.failed failure)) :
    Allowed failure.fault := by
  have ends : Ends Allowed (fun _ _ => True) (runBody program.tree steps { sink }) := by
    refine (sequence_leaves (fun before next after split => ?_)
      (fun before next after machine split agrees => body_leaves accepted sound steps split agrees)
      (List.nil_append program.tree.body).symm Agrees.start).bind fun flow later _ => ?_
    · exact accepted.within sound (.program split)
    · cases flow with
      | normal | breaking | continuing | returning _ => trivial
  obtain ⟨later, failed⟩ := Tree.run_eq_error failed
  rw [failed] at ends
  exact ends

theorem runsTo_shows (accepted : Accepted program) (sound : SoundProgram program.tree Fits Allowed) {sink : Sink}
    (runs : program.tree.RunsTo steps sink id machine) :
    ∃ depth checker, Visited program.tree depth id checker ∧ Shows Fits checker.declared machine.memory := by
  obtain ⟨first, between, sequenced, moment⟩ := runs
  obtain ⟨front, back, split, agrees⟩ := Sequenced.agrees (checkStatement program.tree)
    (fun before next after machine split agrees => body_leaves accepted sound steps split agrees)
    sequenced (List.nil_append program.tree.body).symm Agrees.start
  exact moment.shows accepted sound (.program split) agrees

end

end MatrixScript
