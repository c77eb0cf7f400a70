import MatrixScript.Proofs.Grammar.Levels

/-! Whatever expression the grammar derives is parsed, and to the derived syntax tree.

An expression of a level is parsed as the beginning of a longer expression: the parser comes to the loop of
continuations with the root in hand. It leaves that loop at a token that does not bind more tightly.
-/

set_option autoImplicit false

namespace MatrixScript.Grammar

open Parse

/-- The numbers among the tokens can be read. -/
def Readable (tokens : List Token) : Prop :=
  ∀ token ∈ tokens, (token.kind = .int → (Integer.read? token.value).isSome) ∧
    (token.kind = .float → (Decimal.read? token.value).isSome)

theorem Readable.left {left right : List Token} (readable : Readable (left ++ right)) : Readable left :=
  fun token member => readable token (List.mem_append_left _ member)

theorem Readable.right {left right : List Token} (readable : Readable (left ++ right)) : Readable right :=
  fun token member => readable token (List.mem_append_right _ member)

theorem Readable.tail {token : Token} {rest : List Token} (readable : Readable (token :: rest)) : Readable rest :=
  fun other member => readable other (List.mem_cons_of_mem _ member)

/-- The parser has passed the tokens `used` and stands before `rest`. A token makes one node at most. -/
structure Advances (before after : Parser) (used rest : List Token) : Prop where
  tokens : after.tokens = rest
  grows : before.tree.Grows after.tree
  few : after.tree.exprs.size ≤ before.tree.exprs.size + used.length

/-- The tokens passed are part of one statement. -/
structure Passes (before after : Parser) (used rest : List Token) : Prop extends
    Advances before after used rest where
  stmts : after.tree.stmts.size = before.tree.stmts.size

section

variable {first second third : Parser} {left right middle rest : List Token}

theorem Advances.trans (earlier : Advances first second left middle) (later : Advances second third right rest) :
    Advances first third (left ++ right) rest where
  tokens := later.tokens
  grows := earlier.grows.trans later.grows
  few := by
    have := earlier.few
    have := later.few
    rw [List.length_append]
    omega

theorem Advances.following (passes : Advances first second left rest) (stream : first.tokens = left ++ rest) :
    second.following.length + left.length = first.following.length := by
  have here := congrArg List.length stream
  have there := congrArg List.length passes.tokens
  simp only [Parser.length_tokens, List.length_append] at here there
  omega

theorem Passes.trans (earlier : Passes first second left middle) (later : Passes second third right rest) :
    Passes first third (left ++ right) rest where
  toAdvances := earlier.toAdvances.trans later.toAdvances
  stmts := later.stmts.trans earlier.stmts

theorem Passes.next {parser : Parser} {token : Token} (stream : parser.tokens = token :: rest) (more : rest ≠ []) :
    Passes parser parser.next [token] rest where
  tokens := Parser.tokens_next stream more
  grows := by rw [Parser.tree_next]; exact .refl _
  few := by rw [Parser.tree_next]; exact Nat.le_add_right _ _
  stmts := by rw [Parser.tree_next]

end

@[simp] theorem size_addExpr (tree : Tree) (kind : ExprKind) (span : Span) :
    (tree.addExpr kind span).2.exprs.size = tree.exprs.size + 1 := Array.size_push _

theorem Passes.addExpr {before after : Parser} {used rest : List Token} (passes : Passes before after used rest)
    (room : after.tree.exprs.size < before.tree.exprs.size + used.length) (kind : ExprKind) (span : Span) :
    Passes before { after with tree := (after.tree.addExpr kind span).2 } used rest where
  tokens := passes.tokens
  grows := passes.grows.trans (.addExpr _ _ _)
  few := by rw [size_addExpr]; exact room
  stmts := passes.stmts

def Followed (ends : Kind → Prop) (tokens : List Token) : Prop :=
  ∃ token rest, tokens = token :: rest ∧ ends token.kind

theorem Followed.ne_nil {ends : Kind → Prop} {tokens : List Token} (followed : Followed ends tokens) :
    tokens ≠ [] := by
  obtain ⟨token, rest, rfl, _⟩ := followed
  exact List.cons_ne_nil _ _

/-- A token of such a kind does not bind more tightly than the power. -/
def Loose (power : Power) (kind : Kind) : Prop := kind.power.rank ≤ power.rank

instance (power : Power) (kind : Kind) : Decidable (Loose power kind) :=
  inferInstanceAs (Decidable (_ ≤ _))

section

variable {ι α : Type}

/-- An action takes the tokens `used` and gives what `lies` where the new nodes are. -/
def Yields (lies : Tree → Nat → Nat → ι → α → Prop) (action : Parse ι) (before : Parser) (used rest : List Token)
    (x : α) : Prop :=
  ∃ id after, action before = .ok id after ∧ Passes before after used rest ∧
    lies after.tree before.tree.exprs.size after.tree.exprs.size id x

/-- An action takes every derived list of fewer than `size` tokens, when it may nest deeply enough. -/
def Completes (lies : Tree → Nat → Nat → ι → α → Prop) (derives : List Token → α → Prop) (ends : Kind → Prop)
    (action : Parse ι) (size limit : Nat) : Prop :=
  ∀ before used rest x, derives used x → used.length < size → Readable used → before.tokens = used ++ rest →
    before.following.length < limit → Followed ends rest → Yields lies action before used rest x

end

theorem itemsAfter_comma (item : Parse ExprId) (bound : Nat) (found : List ExprId) {parser : Parser}
    (comma : parser.current.kind = .comma) :
    itemsAfter item (bound + 1) found parser =
      (item >>= fun next => itemsAfter item bound (next :: found)) parser.next := by
  simp only [itemsAfter, bind_apply, peek_apply, choice_apply, comma, if_true, advance_apply]

theorem itemsAfter_stop (item : Parse ExprId) (bound : Nat) (found : List ExprId) {parser : Parser}
    (other : parser.current.kind ≠ .comma) : itemsAfter item bound found parser = .ok found.reverse parser := by
  cases bound with
  | zero => rfl
  | succ bound => simp only [itemsAfter, bind_apply, peek_apply, choice_apply, other, if_false, pure_apply]

section

variable {α : Type} {lies : Tree → Nat → Nat → ExprId → α → Prop} {derives : List Token → α → Prop}
  {ends : Kind → Prop} {item : Parse ExprId} {size limit : Nat}

theorem listed_yields (complete : Completes lies derives ends item size limit) (separates : ends .comma)
    (grow : ∀ {tree later : Tree} {lo hi : Nat} {id : ExprId} {x : α}, tree.Grows later →
      lies tree lo hi id x → lies later lo hi id x)
    {used : List Token} {xs : List α} (listed : Listed derives used xs) {closing : Token} {rest : List Token}
    (closes : ends closing.kind) (apart : closing.kind ≠ .comma) :
    ∀ (bound : Nat) (found : List ExprId) (before : Parser), used.length < size → Readable used →
      before.tokens = used ++ closing :: rest → before.following.length < limit → used.length ≤ bound →
      ∃ ids after, (item >>= fun first => itemsAfter item bound (first :: found)) before =
          .ok (found.reverse ++ ids) after ∧ Passes before after used (closing :: rest) ∧ ids ≠ [] ∧
        Stretch (lies after.tree) before.tree.exprs.size after.tree.exprs.size ids xs := by
  induction listed with
  | @last used x derivation =>
    intro bound found before short readable stream fits _
    obtain ⟨id, after, parsed, passes, layout⟩ :=
      complete before used _ x derivation short readable stream fits ⟨closing, rest, rfl, closes⟩
    refine ⟨[id], after, ?_, passes, List.cons_ne_nil _ _, .cons layout .nil⟩
    have stands := Parser.current_of_tokens passes.tokens
    simp only [bind_apply, parsed, itemsAfter_stop item bound _ (by rw [stands]; exact apart),
      List.reverse_cons]
  | @more used others comma x xs derivation isComma _ ih =>
    intro bound found before short readable stream fits enough
    simp only [List.length_append, List.length_cons] at short enough
    rw [List.append_assoc, List.cons_append] at stream
    have stops : Followed ends (comma :: (others ++ closing :: rest)) :=
      ⟨comma, _, rfl, by rw [isComma]; exact separates⟩
    obtain ⟨id, middle, parsed, passes, layout⟩ :=
      complete before used _ x derivation (by omega) readable.left stream fits stops
    have stands := Parser.current_of_tokens passes.tokens
    have left : Passes middle middle.next [comma] (others ++ closing :: rest) :=
      .next passes.tokens (by simp)
    -- the comma takes a round, and there are as many rounds as tokens
    obtain ⟨bound, rfl⟩ : ∃ smaller, bound = smaller + 1 := ⟨bound - 1, by omega⟩
    have shorter : middle.next.following.length < limit := by
      have := passes.following stream
      have := left.following passes.tokens
      omega
    obtain ⟨ids, after, rest, passed, _, layouts⟩ := ih bound (id :: found) middle.next (by omega)
      readable.right.tail left.tokens shorter (by omega)
    refine ⟨id :: ids, after, ?_, passes.trans (left.trans passed), List.cons_ne_nil _ _, ?_⟩
    · rw [bind_apply, parsed]
      simp only []
      rw [itemsAfter_comma item bound _ (by rw [stands]; exact isComma), rest]
      simp
    · rw [Parser.tree_next] at layouts
      exact .cons (grow (by simpa using left.grows.trans passed.grows) layout) layouts

end

def Begins (kinds : List Kind) (tokens : List Token) : Prop :=
  ∃ token rest, tokens = token :: rest ∧ token.kind ∈ kinds

theorem Begins.append {kinds : List Kind} {tokens : List Token} (begins : Begins kinds tokens)
    (more : List Token) : Begins kinds (tokens ++ more) := by
  obtain ⟨token, rest, rfl, member⟩ := begins
  exact ⟨token, rest ++ more, rfl, member⟩

theorem Begins.pos {kinds : List Kind} {tokens : List Token} (begins : Begins kinds tokens) :
    0 < tokens.length := by
  obtain ⟨token, rest, rfl, _⟩ := begins
  exact Nat.succ_pos _

def openingKinds : List Kind :=
  [.int, .float, .text, .name, .dash, .openParen, .openBracket, .eyeWord, .zerosWord, .onesWord]

theorem Indexable.begins {tokens : List Token} {base : Base} (indexable : Indexable tokens base) :
    Begins openingKinds tokens := by
  cases indexable with
  | name kind | text kind => exact ⟨_, _, rfl, by rw [kind]; decide⟩
  | group enclosed =>
    obtain ⟨kind, _, _⟩ := enclosed
    exact ⟨_, _, rfl, by rw [kind]; decide⟩

theorem Expression.begins {level : Level} {tokens : List Token} {term : Term}
    (derivation : Expression level tokens term) : Begins openingKinds tokens := by
  induction derivation using Expression.strongRec with
  | step derivation ih =>
    cases derivation with
    | int kind | float kind | text kind | name kind | negate kind _ => exact ⟨_, _, rfl, by rw [kind]; decide⟩
    | group enclosed =>
      obtain ⟨kind, _, _⟩ := enclosed
      exact ⟨_, _, rfl, by rw [kind]; decide⟩
    | array enclosed =>
      obtain ⟨kind, _, _⟩ := enclosed
      exact ⟨_, _, rfl, by rw [kind]; decide⟩
    | builtin word _ =>
      refine ⟨_, _, rfl, ?_⟩
      simp only [builtinWords, List.mem_cons, Prod.mk.injEq, List.not_mem_nil, or_false] at word
      rcases word with ⟨kind, _⟩ | ⟨kind, _⟩ | ⟨kind, _⟩ <;> rw [kind] <;> decide
    | transpose inner _ => exact (ih inner (.inl (by simp))).append _
    | indexed base _ => exact base.begins.append _
    | binary _ _ left _ => exact (ih left (.inl (by simp))).append _
    | tighter next inner => exact ih inner (.inr ⟨rfl, by rw [Level.rank_tighter next]; exact Nat.lt_succ_self _⟩)

theorem Listed.begins {α : Type} {derives : List Token → α → Prop} {kinds : List Kind}
    (step : ∀ {tokens : List Token} {x : α}, derives tokens x → Begins kinds tokens) {tokens : List Token}
    {xs : List α} (listed : Listed derives tokens xs) : Begins kinds tokens := by
  cases listed with
  | last derivation => exact step derivation
  | more derivation _ _ => exact (step derivation).append _

theorem Begins.current {kinds : List Kind} {tokens rest : List Token} (begins : Begins kinds tokens)
    {parser : Parser} (stream : parser.tokens = tokens ++ rest) : parser.current.kind ∈ kinds := by
  obtain ⟨token, others, rfl, member⟩ := begins
  rw [Parser.current_of_tokens stream]
  exact member

section

variable {operand : Power → Parse ExprId} {size limit : Nat} {before : Parser} {used rest : List Token}
  (complete : Completes ExprLayout (Expression .relational) (Loose .lowest) (operand .lowest) size limit)
include complete

theorem items_yields (bound : Nat) (terminator : Kind) {closing : Token} {terms : List Term}
    (closes : Loose .lowest terminator) (other : terminator ≠ .comma) (apart : terminator ∉ openingKinds)
    (derivation : Items (Expression .relational) used terms) (ends : closing.kind = terminator)
    (more : rest ≠ []) (short : used.length < size) (readable : Readable used)
    (stream : before.tokens = used ++ closing :: rest) (fits : before.following.length < limit)
    (enough : used.length ≤ bound) :
    Yields (fun tree => Stretch (ExprLayout tree)) (items operand bound terminator) before (used ++ [closing]) rest
      terms := by
  cases derivation with
  | none =>
    have stands := Parser.current_of_tokens stream
    refine ⟨[], before.next, ?_, .next stream more, ?_⟩
    · simp only [items, bind_apply, peek_apply, choice_apply, stands, ends, if_true, advance_apply, pure_apply]
    · rw [Parser.tree_next]
      exact .nil
  | some listed =>
    have differs : before.current.kind ≠ terminator := by
      rintro rfl
      exact apart ((listed.begins Expression.begins).current stream)
    obtain ⟨ids, middle, parsed, passes, _, layout⟩ := listed_yields complete (by decide)
      (fun grows item => item.grow grows) listed (by rw [ends]; exact closes) (by rw [ends]; exact other)
      bound [] before short readable stream fits enough
    have stands := Parser.current_of_tokens passes.tokens
    have last := Passes.next passes.tokens more
    refine ⟨ids, middle.next, ?_, passes.trans last, ?_⟩
    · rw [items, bind_apply, peek_apply]
      simp only [choice_apply, differs, if_false]
      rw [bind_bind_of_ok parsed]
      simp only [bind_apply, expect_apply, stands, ends, if_true]
      rfl
    · rw [Parser.tree_next]
      exact layout

theorem group_yields {term : Term}
    (derivation : Enclosed (Expression .relational) .openParen .closeParen used term) (more : rest ≠ [])
    (short : used.length ≤ size) (readable : Readable used) (stream : before.tokens = used ++ rest)
    (fits : before.following.length ≤ limit) : Yields ExprLayout (group operand) before used rest term := by
  obtain ⟨opens, inner, ends⟩ := derivation
  rename_i opening closing tokens
  simp only [List.length_cons, List.length_append, List.length_nil] at short
  rw [List.cons_append, List.append_assoc, List.singleton_append] at stream
  have first := Passes.next stream (by simp)
  have := first.following stream
  obtain ⟨id, middle, parsed, passes, layout⟩ := complete before.next tokens _ term inner (by omega)
    readable.tail.left first.tokens (by simp only [List.length_singleton] at this; omega)
    ⟨closing, rest, rfl, by rw [ends]; decide⟩
  have last := Passes.next passes.tokens more
  have whole := first.trans (passes.trans last)
  refine ⟨id, middle.next, ?_, whole, ?_⟩
  · simp only [group, bind_apply, expect_apply, Parser.current_of_tokens stream, opens, if_true, parsed,
      Parser.current_of_tokens passes.tokens, ends, pure_apply]
  · rw [Parser.tree_next] at layout ⊢
    exact layout

theorem array_yields (bound : Nat) {terms : List Term}
    (derivation : Enclosed (Items (Expression .relational)) .openBracket .closeBracket used terms)
    (more : rest ≠ []) (short : used.length ≤ size) (readable : Readable used)
    (stream : before.tokens = used ++ rest) (fits : before.following.length ≤ limit)
    (enough : used.length ≤ bound + 1) :
    Yields ExprLayout (arrayLiteral operand bound) before used rest (.array terms) := by
  obtain ⟨opens, inner, ends⟩ := derivation
  rename_i opening closing tokens
  simp only [List.length_cons, List.length_append, List.length_nil] at short enough
  rw [List.cons_append, List.append_assoc, List.singleton_append] at stream
  have first := Passes.next stream (by simp)
  have := first.following stream
  obtain ⟨ids, middle, parsed, passes, layout⟩ := items_yields complete bound .closeBracket
    (by decide) (by decide) (by decide) inner ends more (by omega) readable.tail.left first.tokens
    (by simp only [List.length_singleton] at this; omega) (by omega)
  have room := passes.few
  rw [Parser.tree_next] at room layout
  have whole := first.trans passes
  refine ⟨⟨middle.tree.exprs.size⟩, _, ?_, whole.addExpr ?_ (.array ids)
    ⟨opening.span.start, middle.previousEnd⟩, ?_⟩
  · simp only [arrayLiteral, bind_apply, expect_apply, Parser.current_of_tokens stream, opens, if_true, parsed,
      spanFrom_apply, addExpr_apply]
  · simp only [List.length_append, List.length_singleton] at room ⊢
    omega
  · rw [size_addExpr]
    exact .array (ExprLayout.stretch_grow (.addExpr _ _ _) layout) (Tree.kind?_addExpr _ _ _)

theorem builtin_yields (bound : Nat) (function : Builtin) {word : Token} {terms : List Term}
    (derivation : Enclosed (Items (Expression .relational)) .openParen .closeParen used terms)
    (more : rest ≠ []) (short : used.length ≤ size) (readable : Readable used)
    (stream : before.tokens = word :: used ++ rest) (fits : before.following.length ≤ limit)
    (enough : used.length ≤ bound + 1) :
    Yields ExprLayout (builtin operand bound function) before (word :: used) rest (.builtin function terms) := by
  obtain ⟨opens, inner, ends⟩ := derivation
  rename_i opening closing tokens
  simp only [List.length_cons, List.length_append, List.length_nil] at short enough
  simp only [List.cons_append, List.append_assoc, List.nil_append] at stream
  have first := Passes.next stream (by simp)
  have second := Passes.next first.tokens (by simp)
  have := first.following stream
  have := second.following first.tokens
  simp only [List.length_singleton] at *
  obtain ⟨ids, middle, parsed, passes, layout⟩ := items_yields complete bound .closeParen
    (by decide) (by decide) (by decide) inner ends more (by omega) readable.tail.left second.tokens (by omega) (by omega)
  have room := passes.few
  rw [Parser.tree_next, Parser.tree_next] at room layout
  have whole := first.trans (second.trans passes)
  refine ⟨⟨middle.tree.exprs.size⟩, _, ?_, whole.addExpr ?_ (.builtin function ids)
    ⟨word.span.start, middle.previousEnd⟩, ?_⟩
  · simp only [builtin, bind_apply, advance_apply, expect_apply, Parser.current_of_tokens first.tokens, opens,
      if_true, parsed, spanFrom_apply, addExpr_apply, Parser.current_of_tokens stream]
  · simp only [List.length_append, List.length_singleton] at room ⊢
    omega
  · rw [size_addExpr]
    exact .builtin (ExprLayout.stretch_grow (.addExpr _ _ _) layout) (Tree.kind?_addExpr _ _ _)

theorem range_yields {colon : Token} {left right : List Token} {a b : Term} (first : Expression .relational left a)
    (isColon : colon.kind = .colon) (second : Expression .relational right b)
    (short : (left ++ colon :: right).length < size) (readable : Readable (left ++ colon :: right))
    (stream : before.tokens = left ++ colon :: (right ++ rest)) (fits : before.following.length < limit)
    (stops : Followed (Loose .lowest) rest) :
    ∃ start middle stop last ranged, operand .lowest before = .ok start middle ∧ middle.current.kind = .colon ∧
      operand .lowest middle.next = .ok stop last ∧ addRange start stop last = .ok ⟨last.tree.exprs.size⟩ ranged ∧
      Passes before ranged (left ++ colon :: right) rest ∧ ranged.tree.exprs.size = last.tree.exprs.size + 1 ∧
      ∃ mid, ExprLayout ranged.tree before.tree.exprs.size mid start a ∧
        ExprLayout ranged.tree mid last.tree.exprs.size stop b ∧
        ranged.tree.kind? ⟨last.tree.exprs.size⟩ = some (.range start stop) := by
  simp only [List.length_append, List.length_cons] at short
  obtain ⟨start, middle, parsed, passes, layout⟩ := complete before left _ _ first (by omega) readable.left stream fits
    ⟨colon, _, rfl, by rw [isColon]; decide⟩
  have skipped := Passes.next passes.tokens (by simp [stops.ne_nil])
  have := passes.following stream
  have := skipped.following passes.tokens
  obtain ⟨stop, last, parsed', passes', layout'⟩ := complete middle.next right _ _ second (by omega)
    readable.right.tail skipped.tokens (by omega) stops
  have few := passes.few
  have few' := passes'.few
  have whole := passes.trans (skipped.trans passes')
  have grown : middle.tree.Grows last.tree := by simpa using (skipped.trans passes').grows
  rw [Parser.tree_next] at layout' few'
  -- the colon makes no node, so there is room for that of the range
  have room : last.tree.exprs.size < before.tree.exprs.size + (left ++ ([colon] ++ right)).length := by
    simp only [List.length_append, List.length_singleton]
    omega
  refine ⟨start, middle, stop, last, _, parsed, by rw [Parser.current_of_tokens passes.tokens, isColon], parsed', ?_,
    whole.addExpr room (.range start stop) ⟨(last.tree.exprSpan start).start, (last.tree.exprSpan stop).stop⟩,
    size_addExpr _ _ _, _, (layout.grow grown).grow (.addExpr _ _ _), layout'.grow (.addExpr _ _ _),
    Tree.kind?_addExpr _ _ _⟩
  simp only [addRange, bind_apply, exprSpan_apply, addExpr_apply]

theorem component_completes :
    Completes IndexLayout (Indices (Expression .relational)) (fun kind => Loose .lowest kind ∧ kind ≠ .colon)
      (component operand) size limit := by
  intro before used rest index derivation short readable stream fits stops
  obtain ⟨next, others, rfl, loose, apart⟩ := stops
  cases derivation with
  | point inner =>
    obtain ⟨id, after, parsed, passes, layout⟩ :=
      complete before used _ _ inner short readable stream fits ⟨next, others, rfl, loose⟩
    refine ⟨id, after, ?_, passes, .point layout⟩
    simp only [component, bind_apply, parsed, peek_apply, choice_apply, Parser.current_of_tokens passes.tokens, apart,
      if_false, pure_apply]
  | span first isColon second =>
    rw [List.append_assoc, List.cons_append] at stream
    obtain ⟨start, middle, stop, last, ranged, parsed, mark, parsed', added, passes, size, mid, layout, layout', node⟩ :=
      range_yields complete first isColon second short readable stream fits ⟨next, others, rfl, loose⟩
    refine ⟨⟨last.tree.exprs.size⟩, ranged, ?_, passes, ?_⟩
    · simp only [component, bind_apply, parsed, peek_apply, choice_apply, mark, if_true, advance_apply, parsed', added]
    · rw [size]
      exact .span layout layout' node

end

theorem Indexable.primary {tokens : List Token} {base : Base} (indexable : Indexable tokens base) :
    Expression .primary tokens base.term := by
  induction size : tokens.length using Nat.strongRecOn generalizing tokens with
  | ind n ih =>
    subst size
    cases indexable with
    | name kind => exact .name kind
    | text kind => exact .text kind
    | group enclosed =>
      obtain ⟨opens, inner, ends⟩ := enclosed
      have part := ih _ (by simp only [List.length_cons, List.length_append]; omega) inner rfl
      exact .group (.mk opens (part.relax (by decide)) ends)

theorem Base.layout {tree : Tree} {base : Base} {lo hi : Nat} {id : ExprId}
    (layout : ExprLayout tree lo hi id base.term) :
    id = ⟨lo⟩ ∧ hi = lo + 1 ∧ tree.kind? ⟨lo⟩ = some base.kind := by
  cases base <;> cases layout <;> exact ⟨rfl, rfl, ‹_›⟩

/-- The expression `id`, which begins at the node `lo`, is prolonged by the tokens `used`. -/
def Continues (operand : Power → Parse ExprId) (bound lo : Nat) (id : ExprId) (before : Parser)
    (used rest : List Token) (term : Term) : Prop :=
  ∃ longer after, continuation operand bound id before = .ok longer after ∧ Passes before after used rest ∧
    ExprLayout after.tree lo after.tree.exprs.size longer term

theorem indexing_apply (operand : Power → Parse ExprId) (bound : Nat) {parser : Parser} {id : ExprId} {base : Base}
    (found : parser.tree.kind? id = some base.kind) :
    indexing operand bound id parser = (do
      let _ ← expect .openBracket
      let first ← component operand
      let indices ← itemsAfter (component operand) bound [first]
      let _ ← expect .closeBracket
      let span ← spanFrom (← exprSpan id).start
      addExpr (.indexed id indices) span) parser := by
  rw [indexing, bind_apply, kind?_apply, found]
  cases base <;> rfl

theorem indexing_continues {operand : Power → Parse ExprId} {size limit bound lo : Nat} {middle : Parser}
    {used rest : List Token} {base : Base} {indices : List (Component Term)} {id : ExprId}
    (complete : Completes ExprLayout (Expression .relational) (Loose .lowest) (operand .lowest) size limit)
    (layout : ExprLayout middle.tree lo middle.tree.exprs.size id base.term)
    (derivation : Enclosed (Listed (Indices (Expression .relational))) .openBracket .closeBracket used indices)
    (more : rest ≠ []) (short : used.length ≤ size) (readable : Readable used)
    (stream : middle.tokens = used ++ rest) (fits : middle.following.length ≤ limit)
    (enough : used.length ≤ bound + 1) : Continues operand bound lo id middle used rest (.indexed base indices) := by
  obtain ⟨rfl, same, found⟩ := Base.layout layout
  obtain ⟨opens, listed, ends⟩ := derivation
  rename_i opening closing tokens
  simp only [List.length_cons, List.length_append, List.length_nil] at short enough
  rw [List.cons_append, List.append_assoc, List.singleton_append] at stream
  have stands := Parser.current_of_tokens stream
  have first := Passes.next stream (by simp)
  have := first.following stream
  simp only [List.length_singleton] at this
  obtain ⟨ids, last, parsed, passes, nonempty, layouts⟩ := listed_yields (component_completes complete)
    (by decide) (fun grows item => item.grow grows) listed
    (by rw [ends]; decide) (by rw [ends]; decide) bound [] middle.next (by omega) readable.tail.left first.tokens
    (by omega) (by omega)
  have closed := Passes.next passes.tokens more
  have few := passes.few
  have whole := first.trans (passes.trans closed)
  rw [Parser.tree_next] at few layouts
  -- the brackets make no nodes, so there is room for that of the indexed expression
  have room : last.next.tree.exprs.size <
      middle.tree.exprs.size + ([opening] ++ (tokens ++ [closing])).length := by
    simp only [Parser.tree_next, List.length_append, List.length_singleton]
    omega
  refine ⟨⟨last.next.tree.exprs.size⟩, _, ?_, whole.addExpr room (.indexed ⟨lo⟩ ids)
    ⟨(last.next.tree.exprSpan ⟨lo⟩).start, last.next.previousEnd⟩, ?_⟩
  · simp only [continuation, bind_apply, peek_apply, stands, opens, jointOf?]
    rw [indexing_apply operand bound found, bind_apply, expect_apply, stands, if_pos opens]
    simp only []
    rw [bind_bind_of_ok parsed]
    simp only [bind_apply, expect_apply, Parser.current_of_tokens passes.tokens, ends, if_true, exprSpan_apply,
      spanFrom_apply, addExpr_apply]
    rfl
  · rw [size_addExpr]
    have grown : last.tree.Grows (last.next.tree.addExpr (.indexed ⟨lo⟩ ids)
        ⟨(last.next.tree.exprSpan ⟨lo⟩).start, last.next.previousEnd⟩).2 := closed.grows.trans (.addExpr _ _ _)
    refine .indexed (grown.kind ?_) nonempty ?_ (Tree.kind?_addExpr _ _ _)
    · exact passes.grows.kind (by rw [Parser.tree_next]; exact found)
    · have moved : Stretch (IndexLayout last.tree) (lo + 1) last.next.tree.exprs.size ids indices := by
        rw [Parser.tree_next, ← same]
        exact layouts
      exact moved.map (fun n => n) (fun _ _ _ _ => IndexLayout.lt) fun _ _ _ _ _ item => item.grow grown

theorem transposition_continues {operand : Power → Parse ExprId} {bound lo : Nat} {middle : Parser} {mark : Token}
    {rest : List Token} {term : Term} {id : ExprId}
    (layout : ExprLayout middle.tree lo middle.tree.exprs.size id term) (kind : mark.kind = .apostrophe)
    (more : rest ≠ []) (stream : middle.tokens = [mark] ++ rest) :
    Continues operand bound lo id middle [mark] rest (.transpose term) := by
  have first := Passes.next stream more
  have stands := Parser.current_of_tokens stream
  have room : middle.next.tree.exprs.size < middle.tree.exprs.size + [mark].length := by
    rw [Parser.tree_next]
    exact Nat.lt_succ_self _
  refine ⟨⟨middle.next.tree.exprs.size⟩, _, ?_, first.addExpr room (.transpose id)
    ⟨(middle.next.tree.exprSpan id).start, middle.next.previousEnd⟩, ?_⟩
  · simp only [continuation, bind_apply, peek_apply, stands, kind, jointOf?, transposition, expect_apply, if_true,
      exprSpan_apply, spanFrom_apply, addExpr_apply]
  · rw [size_addExpr, Parser.tree_next]
    exact .transpose (layout.grow (.addExpr _ _ _)) (Tree.kind?_addExpr _ _ _)

theorem binary_continues {operand : Power → Parse ExprId} {bound lo : Nat} {middle : Parser} {mark : Token}
    {used rest : List Token} {a b : Term} {id : ExprId} {joint : Joint} {join : Term → Term → Term}
    {node : ExprId → ExprId → ExprKind} (layout : ExprLayout middle.tree lo middle.tree.exprs.size id a)
    (found : jointOf? mark.kind = some joint) (joins : joint.join? = some (join, node))
    (stream : middle.tokens = mark :: used ++ rest) (more : used ++ rest ≠ [])
    (right : Yields ExprLayout (operand mark.kind.power) middle.next used rest b) :
    Continues operand bound lo id middle (mark :: used) rest (join a b) := by
  have first := Passes.next stream more
  have stands := Parser.current_of_tokens stream
  obtain ⟨id', after, parsed, passes, layout'⟩ := right
  have few := passes.few
  rw [Parser.tree_next] at few layout'
  have room : after.tree.exprs.size < middle.tree.exprs.size + ([mark] ++ used).length := by
    simp only [List.length_append, List.length_singleton]
    omega
  refine ⟨⟨after.tree.exprs.size⟩, _, ?_, (first.trans passes).addExpr room (node id id')
    ⟨(after.tree.exprSpan id).start, after.previousEnd⟩, ?_⟩
  · rw [continuation_of_joint joins _ _ _ _ (by rw [stands]; exact found)]
    simp only [binary, bind_apply, advance_apply, stands, parsed, exprSpan_apply, spanFrom_apply, addExpr_apply]
  · rw [size_addExpr]
    have grown : middle.tree.Grows after.tree := (first.trans passes).grows
    exact Joint.layout_join joins ((layout.grow grown).grow (.addExpr _ _ _)) (layout'.grow (.addExpr _ _ _))
      (Tree.kind?_addExpr _ _ _)

theorem climb_stops (operand : Power → Parse ExprId) (bound steps : Nat) {power : Power} (id : ExprId)
    {parser : Parser} (loose : Loose power parser.current.kind) :
    climb operand bound power steps id parser = .ok id parser := by
  cases steps with
  | zero => rfl
  | succ steps =>
    simp only [climb, bind_apply, peek_apply, choice_apply, Nat.not_lt.mpr loose, if_false, pure_apply]

/-- The parser has taken a whole expression and may go on with it. -/
def Climbs (depth : Nat) (power : Power) (before : Parser) (used rest : List Token) (term : Term) : Prop :=
  ∃ steps id after, rest.length ≤ steps ∧
    expressionWithin (depth + 1) power before = climb (expressionWithin depth) depth power steps id after ∧
    Passes before after used rest ∧ ExprLayout after.tree before.tree.exprs.size after.tree.exprs.size id term

theorem Climbs.yields {depth : Nat} {power : Power} {before : Parser} {used rest : List Token} {term : Term}
    (climbs : Climbs depth power before used rest term) (stops : Followed (Loose power) rest) :
    Yields ExprLayout (expressionWithin (depth + 1) power) before used rest term := by
  obtain ⟨steps, id, after, _, same, passes, layout⟩ := climbs
  obtain ⟨token, others, rfl, loose⟩ := stops
  refine ⟨id, after, ?_, passes, layout⟩
  rw [same, climb_stops _ _ _ _ (by rw [Parser.current_of_tokens passes.tokens]; exact loose)]

theorem Climbs.ofOpening {depth : Nat} {power : Power} {before : Parser} {used rest : List Token} {term : Term}
    {action : Parse ExprId} (opens : opening (expressionWithin depth) depth before = action before)
    (opened : Yields ExprLayout action before used rest term) (stream : before.tokens = used ++ rest)
    (taken : used ≠ []) (fits : before.following.length ≤ depth) : Climbs depth power before used rest term := by
  obtain ⟨id, after, parsed, passes, layout⟩ := opened
  refine ⟨depth, id, after, ?_, ?_, passes, layout⟩
  · have := passes.following stream
    have := congrArg List.length passes.tokens
    have := List.length_pos_iff.mpr taken
    simp only [Parser.length_tokens] at *
    omega
  · rw [expressionWithin, bind_apply, opens, parsed]

theorem Climbs.step {depth : Nat} {power : Power} {before : Parser} {used more rest : List Token} {mark : Token}
    {term longer : Term} (climbs : Climbs depth power before used (mark :: more ++ rest) term)
    (tight : power.rank < mark.kind.power.rank)
    (continued : ∀ id middle, Passes before middle used (mark :: more ++ rest) →
      ExprLayout middle.tree before.tree.exprs.size middle.tree.exprs.size id term →
      Continues (expressionWithin depth) depth before.tree.exprs.size id middle (mark :: more) rest longer) :
    Climbs depth power before (used ++ mark :: more) rest longer := by
  obtain ⟨steps, id, middle, enough, same, passes, layout⟩ := climbs
  obtain ⟨id', after, parsed, passes', layout'⟩ := continued id middle passes layout
  simp only [List.length_append, List.length_cons] at enough
  obtain ⟨steps, rfl⟩ : ∃ smaller, steps = smaller + 1 := ⟨steps - 1, by omega⟩
  refine ⟨steps, id', after, by omega, ?_, passes.trans passes', layout'⟩
  have stands := Parser.current_of_tokens passes.tokens
  rw [same, climb]
  simp only [bind_apply, peek_apply, choice_apply, stands, tight, if_true, parsed]

theorem atom_yields {kind : ExprKind} {term : Term} {token : Token} {rest : List Token} {before : Parser}
    (read : atomOf token = .ok kind)
    (lies : ∀ tree lo, Tree.kind? tree ⟨lo⟩ = some kind → ExprLayout tree lo (lo + 1) ⟨lo⟩ term)
    (stream : before.tokens = [token] ++ rest) (more : rest ≠ []) :
    Yields ExprLayout atom before [token] rest term := by
  have first := Passes.next stream more
  have room : before.next.tree.exprs.size < before.tree.exprs.size + [token].length := by
    rw [Parser.tree_next]
    exact Nat.lt_succ_self _
  refine ⟨⟨before.tree.exprs.size⟩, _, ?_, first.addExpr room kind token.span, ?_⟩
  · simp only [atom, bind_apply, advance_apply, Parser.current_of_tokens stream, read, addExpr_apply,
      Parser.tree_next]
  · rw [size_addExpr, Parser.tree_next]
    exact lies _ _ (Tree.kind?_addExpr _ _ _)

theorem negation_yields {operand : Power → Parse ExprId} {mark : Token} {used rest : List Token} {term : Term}
    {before : Parser} (stream : before.tokens = mark :: used ++ rest) (more : used ++ rest ≠ [])
    (inner : Yields ExprLayout (operand .unary) before.next used rest term) :
    Yields ExprLayout (negation operand) before (mark :: used) rest (.negate term) := by
  have first := Passes.next stream more
  obtain ⟨id, after, parsed, passes, layout⟩ := inner
  have few := passes.few
  rw [Parser.tree_next] at few layout
  have room : after.tree.exprs.size < before.tree.exprs.size + ([mark] ++ used).length := by
    simp only [List.length_append, List.length_singleton]
    omega
  refine ⟨⟨after.tree.exprs.size⟩, _, ?_, (first.trans passes).addExpr room (.negate id)
    ⟨mark.span.start, after.previousEnd⟩, ?_⟩
  · simp only [negation, bind_apply, advance_apply, Parser.current_of_tokens stream, parsed, spanFrom_apply,
      addExpr_apply]
  · rw [size_addExpr]
    exact .negate (layout.grow (.addExpr _ _ _)) (Tree.kind?_addExpr _ _ _)

theorem opening_apply {operand : Power → Parse ExprId} {bound : Nat} {parser : Parser} {token : Token}
    {rest : List Token} {kind : Kind} (same : token.kind = kind) (stream : parser.tokens = token :: rest) :
    opening operand bound parser = (match kind with
      | .int | .float | .text | .name => atom
      | .dash => negation operand
      | .openParen => group operand
      | .openBracket => arrayLiteral operand bound
      | .eyeWord => builtin operand bound .eye
      | .zerosWord => builtin operand bound .zeros
      | .onesWord => builtin operand bound .ones
      | _ => unexpected) parser := by
  rw [← same, ← Parser.current_of_tokens stream]
  rfl

/-- The tokens of an expression are taken as a whole, whatever operator stands before them and behind them. -/
def Climbed (level : Level) (used : List Token) (term : Term) : Prop :=
  ∀ (depth : Nat) (power : Power) (before : Parser) (rest : List Token),
    (Level.behind power).rank ≤ level.rank → Readable used → before.tokens = used ++ rest →
    before.following.length ≤ depth → Followed (fun kind => kind.power.rank ≤ level.rank) rest →
    Climbs depth power before used rest term

theorem Climbed.yields {level : Level} {used rest : List Token} {term : Term} (climbed : Climbed level used term)
    {depth : Nat} {power : Power} {before : Parser} (admits : (Level.behind power).rank ≤ level.rank)
    (readable : Readable used) (stream : before.tokens = used ++ rest) (fits : before.following.length < depth)
    (follows : Followed (Loose power) rest) (stops : ∀ kind, Loose power kind → kind.power.rank ≤ level.rank) :
    Yields ExprLayout (expressionWithin depth power) before used rest term := by
  obtain ⟨depth, rfl⟩ : ∃ smaller, depth = smaller + 1 := ⟨depth - 1, by omega⟩
  obtain ⟨next, others, rfl, loose⟩ := follows
  have climbs := climbed depth power before _ admits readable stream (by omega) ⟨next, others, rfl, stops _ loose⟩
  exact climbs.yields ⟨next, others, rfl, loose⟩

theorem completes_of_climbed {size : Nat} (depth : Nat)
    (climbed : ∀ used term, Expression .relational used term → used.length < size → Climbed .relational used term) :
    Completes ExprLayout (Expression .relational) (Loose .lowest) (expressionWithin depth .lowest) size depth :=
  fun _ used _ term part fewer readable stream fits follows =>
    (climbed used term part fewer).yields (Nat.le_refl _) readable stream fits follows fun _ loose =>
      Nat.le_trans loose (by decide)

theorem Climbed.atom {token : Token} {term : Term} (kinds : token.kind ∈ [.int, .float, .text, .name])
    (read : Readable [token] → ∃ node, atomOf token = .ok node ∧
      ∀ tree lo, Tree.kind? tree ⟨lo⟩ = some node → ExprLayout tree lo (lo + 1) ⟨lo⟩ term) :
    Climbed .primary [token] term := by
  intro depth power before rest _ readable stream fits follows
  obtain ⟨node, read, lies⟩ := read readable
  have opens : opening (expressionWithin depth) depth before = Grammar.atom before := by
    simp only [List.mem_cons, List.not_mem_nil, or_false] at kinds
    rcases kinds with kind | kind | kind | kind
    all_goals exact opening_apply kind stream
  exact .ofOpening opens (atom_yields read lies stream follows.ne_nil) stream (List.cons_ne_nil _ _) fits

section

variable {used : List Token}

def Shorter (used : List Token) : Prop :=
  ∀ (level : Level) (tokens : List Token) (term : Term), Expression level tokens term →
    tokens.length < used.length → Climbed level tokens term

theorem Shorter.completes (shorter : Shorter used) (depth : Nat) :
    Completes ExprLayout (Expression .relational) (Loose .lowest) (expressionWithin depth .lowest) used.length depth :=
  completes_of_climbed depth (shorter .relational)

theorem Climbed.group {term : Term} (shorter : Shorter used)
    (enclosed : Enclosed (Expression .relational) .openParen .closeParen used term) : Climbed .primary used term := by
  intro depth power before rest _ readable stream fits follows
  have yields := group_yields (shorter.completes depth) enclosed follows.ne_nil (Nat.le_refl _) readable stream fits
  cases enclosed with
  | mk first _ _ => exact .ofOpening (opening_apply first stream) yields stream (List.cons_ne_nil _ _) fits

theorem length_le_of_stream {before : Parser} {rest : List Token} {depth : Nat}
    (stream : before.tokens = used ++ rest) (fits : before.following.length ≤ depth) (more : rest ≠ []) :
    used.length ≤ depth := by
  have count := congrArg List.length stream
  have := List.length_pos_iff.mpr more
  simp only [Parser.length_tokens, List.length_append] at count
  omega

theorem Climbed.array {items : List Term} (shorter : Shorter used)
    (enclosed : Enclosed (Items (Expression .relational)) .openBracket .closeBracket used items) :
    Climbed .primary used (.array items) := by
  intro depth power before rest _ readable stream fits follows
  have enough := length_le_of_stream stream fits follows.ne_nil
  have yields := array_yields (shorter.completes depth) depth enclosed follows.ne_nil (Nat.le_refl _) readable stream
    fits (Nat.le_succ_of_le enough)
  cases enclosed with
  | mk first _ _ => exact .ofOpening (opening_apply first stream) yields stream (List.cons_ne_nil _ _) fits

theorem Climbed.builtin {word : Token} {function : Builtin} {arguments : List Term} (shorter : Shorter (word :: used))
    (listed : (word.kind, function) ∈ builtinWords)
    (enclosed : Enclosed (Items (Expression .relational)) .openParen .closeParen used arguments) :
    Climbed .primary (word :: used) (.builtin function arguments) := by
  intro depth power before rest _ readable stream fits follows
  have enough := length_le_of_stream stream fits follows.ne_nil
  have yields := builtin_yields (shorter.completes depth) depth function enclosed follows.ne_nil (Nat.le_succ _)
    readable.tail stream fits (Nat.le_succ_of_le (Nat.le_of_succ_le enough))
  simp only [builtinWords, List.mem_cons, Prod.mk.injEq, List.not_mem_nil, or_false] at listed
  rcases listed with ⟨kind, rfl⟩ | ⟨kind, rfl⟩ | ⟨kind, rfl⟩
  all_goals exact .ofOpening (opening_apply kind stream) yields stream (List.cons_ne_nil _ _) fits

theorem Climbed.negate {mark : Token} {inner : Term} (kind : mark.kind = .dash)
    (climbed : Climbed .signed used inner) : Climbed .signed (mark :: used) (.negate inner) := by
  intro depth power before rest _ readable stream fits follows
  obtain ⟨next, others, rfl, loose⟩ := follows
  have first := Passes.next stream (by simp)
  have := first.following stream
  simp only [List.length_singleton] at this
  have operand : Yields ExprLayout (expressionWithin depth .unary) before.next used (next :: others) inner :=
    climbed.yields (Nat.le_refl _) readable.tail first.tokens (by omega) ⟨next, others, rfl, loose⟩ fun _ loose => loose
  exact .ofOpening (opening_apply kind stream) (negation_yields stream (by simp) operand) stream
    (List.cons_ne_nil _ _) fits

theorem Climbed.transpose {mark : Token} {inner : Term} (climbed : Climbed .trailed used inner)
    (kind : mark.kind = .apostrophe) : Climbed .trailed (used ++ [mark]) (.transpose inner) := by
  intro depth power before rest admits readable stream fits follows
  rw [List.append_assoc] at stream
  have tight := Level.lt_of_behind_le admits (by decide) (by decide)
  have power_mark : mark.kind.power.rank = Level.trailed.rank := by rw [kind]; rfl
  have front := climbed depth power before _ admits readable.left stream fits
    ⟨mark, rest, rfl, Nat.le_of_eq power_mark⟩
  refine front.step (by rw [power_mark]; exact tight) fun id middle passes layout => ?_
  exact transposition_continues layout kind follows.ne_nil passes.tokens

theorem Climbed.indexed {brackets : List Token} {base : Base} {indices : List (Component Term)}
    (shorter : Shorter (used ++ brackets)) (climbed : Climbed .primary used base.term)
    (enclosed : Enclosed (Listed (Indices (Expression .relational))) .openBracket .closeBracket brackets indices) :
    Climbed .trailed (used ++ brackets) (.indexed base indices) := by
  intro depth power before rest admits readable stream fits follows
  have tight := Level.lt_of_behind_le admits (by decide) (by decide)
  have enough := length_le_of_stream stream fits follows.ne_nil
  rw [List.append_assoc] at stream
  rw [List.length_append] at enough
  have continues (id : ExprId) (middle : Parser) (passes : Passes before middle used (brackets ++ rest))
      (layout : ExprLayout middle.tree before.tree.exprs.size middle.tree.exprs.size id base.term) :
      Continues (expressionWithin depth) depth before.tree.exprs.size id middle brackets rest
        (.indexed base indices) := by
    have := passes.following stream
    exact indexing_continues (shorter.completes depth) layout enclosed follows.ne_nil (by simp) readable.right
      passes.tokens (by omega) (by omega)
  cases enclosed with
  | @mk first _ _ _ kind _ _ =>
    have power_first : first.kind.power.rank = Level.trailed.rank := by rw [kind]; rfl
    have front := climbed depth power before _ (Nat.le_succ_of_le admits) readable.left stream fits
      ⟨first, _, rfl, Nat.le_succ_of_le (Nat.le_of_eq power_first)⟩
    exact front.step (by rw [power_first]; exact tight) continues

/-- The left operand is climbed with the level of the operator, the right one only tighter. -/
theorem Climbed.binary {level tighter : Level} {mark : Token} {join : Term → Term → Term} {right : List Token}
    {a b : Term} (next : level.tighter? = some tighter) (listed : (mark.kind, join) ∈ level.operators)
    (first : Climbed level used a) (second : Climbed tighter right b) :
    Climbed level (used ++ mark :: right) (join a b) := by
  intro depth power before rest admits readable stream fits follows
  obtain ⟨joint, node, found, joins, power_mark⟩ := Level.joint_of_operator listed
  have tight : power.rank < level.rank := by
    refine Level.lt_of_behind_le admits ?_ ?_
    · rintro rfl
      cases listed
    · rintro rfl
      cases listed
  obtain ⟨after, others, rfl, loose⟩ := follows
  rw [List.append_assoc] at stream
  have front := first depth power before _ admits readable.left stream fits ⟨mark, _, rfl, Nat.le_of_eq power_mark⟩
  refine front.step (by rw [power_mark]; exact tight) fun id middle passes layout => ?_
  have skipped := Passes.next passes.tokens (by simp)
  have := passes.following stream
  have := skipped.following passes.tokens
  simp only [List.length_singleton] at this
  refine binary_continues layout found joins passes.tokens (by simp) ?_
  obtain ⟨closer, _, same⟩ := Level.operator_of_joint found joins
  have closer := Level.rank_tighter closer
  have rank := Level.rank_tighter next
  refine second.yields (by omega) readable.right.tail skipped.tokens (by omega) ⟨after, others, rfl, ?_⟩ ?_
  · exact Nat.le_trans loose (Nat.le_of_eq power_mark.symm)
  · intro kind loose
    exact Nat.le_trans loose (by omega)

theorem Climbed.tighter {level tighter : Level} {term : Term} (next : level.tighter? = some tighter)
    (climbed : Climbed tighter used term) : Climbed level used term := by
  intro depth power before rest admits readable stream fits follows
  have rank := Level.rank_tighter next
  obtain ⟨mark, others, rfl, loose⟩ := follows
  exact climbed depth power before _ (by omega) readable stream fits ⟨mark, others, rfl, by omega⟩

end

/-- A derived expression is taken as a whole. -/
theorem Expression.climbs {level : Level} {used : List Token} {term : Term}
    (derivation : Expression level used term) : Climbed level used term := by
  -- parentheses and brackets hold expressions of any level, so the induction is on the tokens and then on the level
  induction derivation using Expression.strongRec with
  | @step level used term derivation ih =>
    have shorter : Shorter used := fun _ _ _ part fewer => ih part (.inl fewer)
    cases derivation with
    | @int token kind =>
      refine .atom (by simp [kind]) fun readable => ?_
      obtain ⟨value, read⟩ := Option.isSome_iff_exists.mp ((readable token (List.mem_singleton.mpr rfl)).1 kind)
      exact ⟨.int value, by simp only [atomOf, kind, read], fun _ _ => .int read⟩
    | @float token kind =>
      refine .atom (by simp [kind]) fun readable => ?_
      obtain ⟨value, read⟩ := Option.isSome_iff_exists.mp ((readable token (List.mem_singleton.mpr rfl)).2 kind)
      exact ⟨.float value, by simp only [atomOf, kind, read], fun _ _ => .float read⟩
    | @text token kind =>
      exact .atom (by simp [kind]) fun _ => ⟨.text token.value, by simp only [atomOf, kind], fun _ _ => .text⟩
    | @name token kind =>
      exact .atom (by simp [kind]) fun _ => ⟨.name token.value, by simp only [atomOf, kind], fun _ _ => .name⟩
    | group enclosed => exact .group shorter enclosed
    | array enclosed => exact .array shorter enclosed
    | builtin listed enclosed => exact .builtin shorter listed enclosed
    | negate kind part => exact .negate kind (ih part (.inl (Nat.lt_succ_self _)))
    | transpose part kind => exact .transpose (ih part (.inl (by simp))) kind
    | indexed indexable enclosed =>
      cases enclosed with
      | mk first inner last =>
        exact .indexed shorter (ih indexable.primary (.inl (by simp))) (.mk first inner last)
    | binary next listed first second =>
      exact .binary next listed (ih first (.inl (by simp))) (ih second (.inl (by simp; omega)))
    | tighter next part =>
      have rank := Level.rank_tighter next
      exact .tighter next (ih part (.inr ⟨rfl, by omega⟩))

theorem expression_completes (size depth : Nat) :
    Completes ExprLayout (Expression .relational) (Loose .lowest) (expressionWithin depth .lowest) size depth :=
  completes_of_climbed depth fun _ _ derivation _ => derivation.climbs

end MatrixScript.Grammar
