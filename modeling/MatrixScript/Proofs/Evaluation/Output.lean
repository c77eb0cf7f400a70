import MatrixScript.Proofs.Evaluation.Walk

/-! A limit on the output only cuts the output.

Beside a run without a limit runs the same program with room for a number of bytes. The two agree in memory and output
until a line does not fit. There the limited run fails, and it leaves the first bytes of all that the other one writes.
-/

set_option autoImplicit false

namespace MatrixScript

variable {α β : Type}

/-- The same machine, with a limit on all of its output. -/
def Machine.limited (limit : Nat) (machine : Machine) : Machine :=
  { machine with sink := { machine.sink with capacity := some limit } }

def leaving (change : Machine → Machine) : EStateM.Result Stop Machine α → EStateM.Result Stop Machine α
  | .ok value machine => .ok value (change machine)
  | .error stop machine => .error stop (change machine)

/-! Actions that are blind for the output. -/

/-- The action does the same whatever the output is, and leaves it as it is. -/
def Blind (action : Run α) : Prop :=
  ∀ machine sink, action { machine with sink } = leaving (fun later => { later with sink }) (action machine)

namespace Blind

theorem pure (value : α) : Blind (pure value) := fun _ _ => rfl

theorem fail (position : Position) (fault : Fault) : Blind (Execution.fail position fault : Run α) := fun _ _ => rfl

theorem bindName (name : String) (value : Value) : Blind (Execution.bind name value) := fun _ _ => rfl

theorem readVariable (name : String) : Blind (Execution.readVariable name) := fun _ _ => rfl

theorem of_gives (outcome : Memory Value → Eval α) {action : Run α}
    (gives : ∀ machine, Gives machine (outcome machine.memory) action) : Blind action := by
  intro machine sink
  rw [gives machine, gives { machine with sink }]
  cases outcome machine.memory with
  | ok value => rfl
  | error stop => rfl

theorem locate (position : Position) (outcome : Except Fault α) : Blind (locate position outcome : Run α) := by
  cases outcome with
  | ok value => exact .pure value
  | error fault => exact .fail position fault

theorem bind {action : Run α} {next : α → Run β} (first : Blind action) (second : ∀ value, Blind (next value)) :
    Blind (action >>= next) := by
  intro machine sink
  rw [Execution.bind_apply, Execution.bind_apply, first machine sink]
  cases action machine with
  | ok value later => exact second value later sink
  | error stop later => rfl

theorem sink {action : Run α} (blind : Blind action) (machine : Machine) :
    (remaining (action machine)).sink = machine.sink := by
  have same := congrArg (fun outcome => (remaining outcome).sink) (blind machine machine.sink)
  refine Eq.trans same ?_
  cases action machine with
  | ok value later => rfl
  | error stop later => rfl

end Blind

namespace Execution

variable (tree : Tree)

theorem valueOf_blind (id : ExprId) : Blind (valueOf tree id) :=
  .of_gives (fun memory => evaluate tree memory id) fun _ => valueOf_gives id

theorem valuesOf_blind (ids : List ExprId) : Blind (valuesOf tree ids) :=
  .of_gives (fun memory => ids.mapM (evaluate tree memory)) fun _ => valuesOf_gives ids

theorem selectors_blind (ids : List ExprId) : Blind (Evaluation.selectors tree (valueOf tree) ids) :=
  .of_gives (fun memory => Evaluation.selectors tree (evaluate tree memory) ids)
    fun _ => Evaluation.selectors_gives valueOf_gives ids

theorem holds_blind (condition : ExprId) : Blind (holds tree condition) := by
  refine (valueOf_blind tree condition).bind fun value => ?_
  cases value.truth? with
  | some truth => exact .pure truth
  | none => exact .fail _ _

theorem loopBounds_blind (range : ExprId) : Blind (loopBounds tree range) := by
  unfold loopBounds
  split
  · exact .of_gives (fun memory => Evaluation.bounds tree (evaluate tree memory) _ _)
      fun _ => Evaluation.bounds_gives valueOf_gives _ _
  · exact .fail _ _

theorem changeAt_blind (position : Position) (name : String) (change : Change Fault Value Unit) :
    Blind (changeAt position name change) := by
  refine (Blind.readVariable name).bind fun found => ?_
  cases found with
  | none => exact .fail _ _
  | some current =>
    dsimp only
    cases change current with
    | ok _ updated => exact .bindName name updated
    | error fault left => exact (Blind.bindName name left).bind fun _ => .fail position fault

theorem assignTo_blind (target : ExprId) (value : Value) : Blind (assignTo tree target value) := by
  unfold assignTo
  split
  · exact .bindName _ value
  · split
    · exact (selectors_blind tree _).bind fun selected => changeAt_blind _ _ _
    · exact .fail _ _
  · exact .fail _ _

theorem assign_blind (target : ExprId) (op : Assign) (value : ExprId) : Blind (assign tree target op value) := by
  refine (valueOf_blind tree value).bind fun right => ?_
  cases op with
  | plain => exact assignTo_blind tree target right
  | compound op =>
    refine (valueOf_blind tree target).bind fun left => ?_
    exact (Blind.locate _ _).bind fun combined => assignTo_blind tree target combined

end Execution

/-! Output that grows. -/

/-- What was written stays in front of what is written later, and the limit stays as it is. -/
structure Machine.Extends (before after : Machine) : Prop where
  grown : ∃ text, after.sink.written = before.sink.written ++ text
  kept : after.sink.capacity = before.sink.capacity

namespace Machine.Extends

theorem of_sink {before after : Machine} (same : after.sink = before.sink) : Machine.Extends before after :=
  ⟨⟨.empty, by rw [same, ByteArray.append_empty]⟩, by rw [same]⟩

instance : Std.Refl Machine.Extends := ⟨fun _ => of_sink rfl⟩

instance : IsTrans Machine Machine.Extends where
  trans := by
    rintro first second third ⟨⟨more, grown⟩, kept⟩ ⟨⟨rest, later⟩, still⟩
    exact ⟨⟨more ++ rest, by rw [later, grown, ByteArray.append_assoc]⟩, still.trans kept⟩

theorem size_le {before after : Machine} (grows : Machine.Extends before after) :
    before.sink.written.size ≤ after.sink.written.size := by
  obtain ⟨text, grown⟩ := grows.grown
  rw [grown, ByteArray.size_append]
  omega

/-- Once the output has passed a limit, its part up to there is settled. -/
theorem front {before after : Machine} (grows : Machine.Extends before after) {limit : Nat}
    (passed : limit < before.sink.written.size) :
    after.sink.written.extract 0 limit = before.sink.written.extract 0 limit := by
  obtain ⟨text, grown⟩ := grows.grown
  have none : text.extract 0 (limit - before.sink.written.size) = .empty := by
    rw [ByteArray.extract_eq_empty_iff]
    omega
  rw [grown, ByteArray.extract_append, Nat.zero_sub, none, ByteArray.append_empty]

end Machine.Extends

namespace Sink

variable {written : ByteArray} {limit : Nat} {text : String}

theorem write_extends (sink : Sink) (text : String) :
    (∃ added, (sink.write text).2.written = sink.written ++ added) ∧ (sink.write text).2.capacity = sink.capacity := by
  unfold write
  cases sink.capacity with
  | none => exact ⟨⟨_, rfl⟩, rfl⟩
  | some capacity =>
    dsimp only
    split
    · exact ⟨⟨_, rfl⟩, rfl⟩
    · exact ⟨⟨_, rfl⟩, rfl⟩

theorem write_within (small : (written ++ text.toByteArray).size ≤ limit) :
    write ⟨written, some limit⟩ text = (true, ⟨written ++ text.toByteArray, some limit⟩) := by
  rw [ByteArray.size_append] at small
  exact if_pos (by dsimp only; omega)

theorem write_beyond (fits : written.size ≤ limit) (large : limit < (written ++ text.toByteArray).size) :
    write ⟨written, some limit⟩ text = (false, ⟨(written ++ text.toByteArray).extract 0 limit, some limit⟩) := by
  rw [ByteArray.size_append] at large
  have kept : written.extract 0 limit = written := by
    rw [ByteArray.extract_eq_extract_append_extract written.size (Nat.zero_le _) fits, ByteArray.extract_zero_size,
      ByteArray.extract_eq_empty_iff.mpr (by omega), ByteArray.append_empty]
  rw [ByteArray.extract_append, kept, Nat.zero_sub]
  exact if_neg (by dsimp only; omega)

end Sink

theorem Execution.printLine_apply (line : String) (position : Position) (machine : Machine) :
    printLine line position machine =
      (if (machine.sink.write (line ++ "\n")).1 then pure () else fail position (.output "sink is full") : Run Unit)
        { machine with sink := (machine.sink.write (line ++ "\n")).2 } := rfl

theorem Execution.printLine_extends (line : String) (position : Position) :
    Keeps Machine.Extends (printLine line position) := by
  intro machine
  obtain ⟨grown, kept⟩ := machine.sink.write_extends (line ++ "\n")
  rw [printLine_apply]
  split
  · exact ⟨grown, kept⟩
  · exact ⟨grown, kept⟩

/-! Two runs beside each other. -/

/-- How an outcome with a limit stands to the one without: it is the same, or the output was full at a place. -/
inductive CutOff (place : Position → Prop) (limit : Nat) (free : EStateM.Result Stop Machine α) :
    EStateM.Result Stop Machine α → Prop where
  | fits : (remaining free).sink.written.size ≤ limit → CutOff place limit free (leaving (Machine.limited limit) free)
  | full {position : Position} {memory : Memory Value} : limit < (remaining free).sink.written.size → place position →
      CutOff place limit free (.error (.failed ⟨.output "sink is full", position⟩)
        ⟨memory, ⟨(remaining free).sink.written.extract 0 limit, some limit⟩⟩)

/-- An action only adds to the output, and a limit only cuts that. -/
structure Limits (place : Position → Prop) (limit : Nat) (action : Run α) : Prop where
  grows : Keeps Machine.Extends action
  cuts : ∀ machine, machine.sink.capacity = none → machine.sink.written.size ≤ limit →
    CutOff place limit (action machine) (action (machine.limited limit))

namespace Limits

variable {place : Position → Prop} {limit : Nat}

theorem of_blind {action : Run α} (blind : Blind action) : Limits place limit action where
  grows machine := .of_sink (blind.sink machine)
  cuts machine _ fits := by
    have same : action (machine.limited limit) = leaving (Machine.limited limit) (action machine) := by
      have kept := blind.sink machine
      refine (blind machine { machine.sink with capacity := some limit }).trans ?_
      cases outcome : action machine with
      | ok value later | error stop later =>
        rw [outcome] at kept
        simp only [leaving, Machine.limited, show later.sink = machine.sink from kept]
    rw [same]
    exact .fits (blind.sink machine ▸ fits)

theorem bind {action : Run α} {next : α → Run β} (first : Limits place limit action)
    (second : ∀ value, Limits place limit (next value)) : Limits place limit (action >>= next) where
  grows := first.grows.bind fun value => (second value).grows
  cuts machine free fits := by
    have grown := first.grows machine
    have cut := first.cuts machine free fits
    rw [Execution.bind_apply, Execution.bind_apply]
    generalize action machine = one at grown cut ⊢
    generalize action (machine.limited limit) = two at cut ⊢
    cases cut with
    | fits small =>
      cases one with
      | ok value later => exact (second value).cuts later (grown.kept.trans free) small
      | error stop later => exact .fits small
    | full large here =>
      -- the run without a limit goes on, but the first bytes of its output are settled
      cases one with
      | ok value later =>
        have more := (second value).grows later
        have passed : limit < (remaining (next value later)).sink.written.size := Nat.lt_of_lt_of_le large more.size_le
        rw [show (remaining (.ok value later)).sink.written.extract 0 limit = _ from (more.front large).symm]
        exact .full passed here
      | error stop later => exact .full large here

theorem inScope {body : Run α} (limits : Limits place limit body) (label : String) :
    Limits place limit (Execution.inScope label body) where
  grows := limits.grows.inScope label fun _ _ inside => ⟨inside.grown, inside.kept⟩
  cuts machine free fits := by
    have cut := limits.cuts (machine.enter label) free fits
    have same : (machine.limited limit).enter label = (machine.enter label).limited limit := rfl
    unfold Execution.inScope
    rw [← same] at cut
    unfold Machine.enter at cut
    generalize body { machine with memory := machine.memory.enter label } = one at cut ⊢
    generalize body { machine.limited limit with memory := (machine.limited limit).memory.enter label } = two at cut ⊢
    cases cut with
    | fits small =>
      cases one with
      | ok value later => exact .fits small
      | error stop later => exact .fits small
    | full large here =>
      cases one with
      | ok value later => exact .full large here
      | error stop later => exact .full large here

theorem printLine {position : Position} (here : place position) (line : String) :
    Limits place limit (Execution.printLine line position) where
  grows := Execution.printLine_extends line position
  cuts machine free fits := by
    obtain ⟨memory, written, capacity⟩ := machine
    cases free
    rw [Execution.printLine_apply, Execution.printLine_apply]
    by_cases small : (written ++ (line ++ "\n").toByteArray).size ≤ limit
    · rw [Machine.limited, Sink.write_within small]
      exact .fits small
    · have large := Nat.lt_of_not_le small
      rw [Machine.limited, Sink.write_beyond fits large]
      exact .full large here

theorem closed : Execution.Closed fun {α} => @Limits α place limit where
  pure value := .of_blind (.pure value)
  unfinished := .of_blind fun _ _ => rfl
  bind := bind
  inScope label limits := limits.inScope label
  counter name _ := .of_blind (.bindName name _)

theorem parts {tree : Tree} {stmt : Stmt}
    (here : ∀ values, stmt.kind = .print values → place stmt.span.start) :
    Execution.Parts (fun {α} => @Limits α place limit) tree stmt := by
  obtain ⟨kind, span⟩ := stmt
  cases kind with
  | assign target op value => exact .of_blind (Execution.assign_blind tree target op value)
  | forRange name range body => exact .of_blind (Execution.loopBounds_blind tree range)
  | whileLoop condition body => exact .of_blind (Execution.holds_blind tree condition)
  | branch condition thenBody elseBody => exact .of_blind (Execution.holds_blind tree condition)
  | giveBack values => exact .of_blind (Execution.valuesOf_blind tree values)
  | print values => exact ⟨.of_blind (Execution.valuesOf_blind tree values), printLine (here values rfl)⟩
  | block _ | breakLoop | continueLoop => trivial

end Limits

def Tree.PrintsAt (tree : Tree) (position : Position) : Prop :=
  ∃ id values span, tree.Reachable id ∧ tree.stmt? id = some ⟨.print values, span⟩ ∧ span.start = position

/-- With room for all that a run writes, the run is the same. With less room it ends where it prints, with an output
error and the first bytes of its output. -/
theorem limit_cuts_output (tree : Tree) (steps limit : Nat) :
    if (tree.run steps {}).machine.sink.written.size ≤ limit then
      (tree.run steps { capacity := some limit }).outcome = (tree.run steps {}).outcome ∧
        (tree.run steps { capacity := some limit }).machine = (tree.run steps {}).machine.limited limit
    else
      (∃ position, tree.PrintsAt position ∧ (tree.run steps { capacity := some limit }).outcome =
          .error (.failed ⟨.output "sink is full", position⟩)) ∧
        (tree.run steps { capacity := some limit }).machine.sink.written =
          (tree.run steps {}).machine.sink.written.extract 0 limit := by
  have limits : Limits tree.PrintsAt limit (runBody tree steps) :=
    runBody_walk Limits.closed (fun id stmt reachable found => Limits.parts fun values kind =>
      ⟨id, values, stmt.span, reachable, kind ▸ found, rfl⟩) steps
  have cut := limits.cuts { sink := {} } rfl (Nat.zero_le _)
  have start : ({ sink := { capacity := some limit } } : Machine) = Machine.limited limit { sink := {} } := rfl
  unfold Tree.run EStateM.run
  rw [start]
  generalize runBody tree steps { sink := {} } = free at cut ⊢
  generalize runBody tree steps (Machine.limited limit { sink := {} }) = bounded at cut ⊢
  cases cut with
  | fits small =>
    cases free with
    | ok values machine => exact (if_pos small).mpr ⟨rfl, rfl⟩
    | error stop machine => exact (if_pos small).mpr ⟨rfl, rfl⟩
  | full large here =>
    cases free with
    | ok values machine => exact (if_neg (Nat.not_le_of_lt large)).mpr ⟨⟨_, here, rfl⟩, rfl⟩
    | error stop machine => exact (if_neg (Nat.not_le_of_lt large)).mpr ⟨⟨_, here, rfl⟩, rfl⟩

/-- `print "é"` with room for one byte, which is the first one of the letter. -/
example :
    let here : Span := ⟨⟨1, 1⟩, ⟨1, 1⟩⟩
    let tree : Tree := { exprs := #[⟨.text "é", here⟩], stmts := #[⟨.print [⟨0⟩], here⟩], body := [⟨0⟩] }
    (tree.run 1 { capacity := some 1 }).machine.sink.written = ⟨#[0xC3]⟩ := by
  decide +kernel

end MatrixScript
