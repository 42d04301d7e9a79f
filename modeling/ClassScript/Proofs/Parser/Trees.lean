import ClassScript.Proofs.Number.Literal
import ClassScript.Proofs.Parser.Progress
import ClassScript.Proofs.Syntax.Complete
import ClassScript.Proofs.Token.Kinds

/-! # The parser's trees

Whatever the tokens are, the tree that the parser makes of them is complete (`complete_parseTokens`), also
where it complains: it puts null where an operand or an argument is missing, a variable without a name where
an assignment has no target, and leaves out statements and members that it cannot read.

Every double in the tree is the value of a double literal among the tokens, with its sign turned once for each
minus in front. What stands in the place of something missing is never a double, and a literal out of range is
kept with the value nearest to it, but not without a complaint (`drawn_parseSource`).

`Yields p c Q` says that the parser `p` moves on from the cursor `c`, and that its answer satisfies `Q` where it
stops. There is one lemma for each function of the grammar.
-/

namespace ClassScript.Parser

open Cursor (Moves)

/-! ## Doubles and the nodes that hold them -/

/-- The double is the value of a literal among the tokens, its sign turned any number of times. If the literal
    does not fit, it has been complained about. -/
inductive Drawn (tokens : List Token) (complaints : List Diagnostic) : Float → Prop
  | literal {t : Token} (member : t ∈ tokens) (double : t.kind = .double)
      (reported : (Number.readDouble t.lexeme).2 = false →
        { complaint := .malformedNumber t.lexeme, span := t.span } ∈ complaints) :
      Drawn tokens complaints (Number.readDouble t.lexeme).1
  | negated {x : Float} : Drawn tokens complaints x → Drawn tokens complaints (-x)

theorem Drawn.mono {tokens : List Token} {some more : List Diagnostic} {x : Float}
    (drawn : Drawn tokens some x) (kept : some ⊆ more) : Drawn tokens more x := by
  induction drawn with
  | literal member double reported =>
    exact .literal member double fun unfit => kept (reported unfit)
  | negated _ ih => exact ih.negated

/-- Nothing is missing in the tree, and its doubles are drawn from the tokens, with the complaints that the
    cursor holds. -/
def Sourced (tokens : List Token) (c : Cursor) (n : Node) : Prop :=
  n.Throughout fun m => m.isFilled ∧ ∀ span x, m = .double span x → Drawn tokens c.diagnostics x

def Solid (tokens : List Token) (c : Cursor) (n : Node) : Prop := n.isAbsent = false ∧ Sourced tokens c n

structure SourcedMembers (tokens : List Token) (c : Cursor) (members : Members) : Prop where
  fields : ∀ n ∈ members.fields, declared? n = some .variable ∧ Sourced tokens c n
  methods : ∀ n ∈ members.methods, declared? n = some .function ∧ Sourced tokens c n
  classes : ∀ n ∈ members.classes, declared? n = some .blueprint ∧ Sourced tokens c n

section Sourced

variable {tokens : List Token} {c c' : Cursor} {n : Node} {ns : List Node} {members : Members}

theorem Sourced.moves (sourced : Sourced tokens c n) (moves : c.Moves c') : Sourced tokens c' n :=
  Node.Throughout.mono sourced fun _ own =>
    ⟨own.1, fun span x is => (own.2 span x is).mono moves.diagnostics.subset⟩

theorem solid_moves (all : ∀ n ∈ ns, Solid tokens c n) (moves : c.Moves c') : ∀ n ∈ ns, Solid tokens c' n :=
  fun n member => (all n member).imp_right (·.moves moves)

theorem SourcedMembers.moves (all : SourcedMembers tokens c members) (moves : c.Moves c') :
    SourcedMembers tokens c' members where
  fields n member := (all.fields n member).imp_right (·.moves moves)
  methods n member := (all.methods n member).imp_right (·.moves moves)
  classes n member := (all.classes n member).imp_right (·.moves moves)

theorem sourced_iff : Sourced tokens c n ↔
    (n.isFilled ∧ ∀ span x, n = .double span x → Drawn tokens c.diagnostics x) ∧
      ∀ part ∈ n.parts, Sourced tokens c part :=
  Node.throughout_iff

theorem sourced_absent : Sourced tokens c .absent := sourced_iff.2 (by simp [Node.parts])

theorem sourced_integer (span : Span) (value : Int64) : Sourced tokens c (.integer span value) :=
  sourced_iff.2 (by simp [Node.parts])

theorem sourced_null (span : Span) : Sourced tokens c (.null span) := sourced_iff.2 (by simp [Node.parts])

theorem sourced_identifier {left : Node} (sourced : Sourced tokens c left) (span : Span) (name : String) :
    Sourced tokens c (.identifier span left name) :=
  sourced_iff.2 (by simpa [Node.parts] using sourced)

theorem sourced_usage {left : Node} (sourced : Sourced tokens c left) (span inner : Span) (name : String) :
    Sourced tokens c (.usage span (.identifier inner left name)) :=
  sourced_iff.2 (by simpa [Node.parts, Node.isName] using sourced_identifier sourced inner name)

theorem sourced_assignment {target value : Node} (named : target.isName ∧ Sourced tokens c target)
    (sourced : Sourced tokens c value) (span : Span) (op : AssignOp) :
    Sourced tokens c (.assignment span op target value) :=
  sourced_iff.2 (by simpa [Node.parts, named] using sourced)

theorem sourced_tree (all : ∀ n ∈ ns, Solid tokens c n) (span : Span) : Sourced tokens c (.tree span ns) :=
  sourced_iff.2 (by simpa [Node.parts, Solid, forall_and] using all)

theorem sourced_empty : Sourced tokens c (.tree .none []) :=
  sourced_tree (List.forall_mem_nil _) _

theorem sourced_classDeclaration (all : SourcedMembers tokens c members) (span : Span) (mods : Modifiers)
    (name : String) : Sourced tokens c
      (.classDeclaration span mods name members.fields members.methods members.classes) := by
  have filled : Node.isFilled
      (.classDeclaration span mods name members.fields members.methods members.classes) := by
    simp only [Node.isFilled, Bool.and_eq_true, List.all_eq_true, decide_eq_true_eq]
    exact ⟨⟨fun n here => (all.fields n here).1, fun n here => (all.methods n here).1⟩,
      fun n here => (all.classes n here).1⟩
  refine sourced_iff.2 ⟨⟨filled, nofun⟩, ?_⟩
  simp only [Node.parts, List.forall_mem_append]
  exact ⟨⟨fun n here => (all.fields n here).2, fun n here => (all.methods n here).2⟩,
    fun n here => (all.classes n here).2⟩

end Sourced

/-! ## Answers at the end of a run -/

/-- The parser moves on from the cursor, and its answer satisfies `Q` where it stops. -/
def Yields {α : Type} (p : Parser α) (c : Cursor) (Q : Cursor → α → Prop) : Prop :=
  Gives p c fun a c' => c.Moves c' ∧ Q c' a

section Yields

variable {α β : Type} {c : Cursor} {Q : Cursor → α → Prop}

theorem yields_pure {a : α} (holds : Q c a) : Yields (pure a) c Q := (gives_pure a).2 ⟨Moves.refl c, holds⟩

theorem Yields.bind {p : Parser β} {f : β → Parser α} {P : Cursor → β → Prop} (first : Yields p c P)
    (later : ∀ b c₁, c.Moves c₁ → P c₁ b → Yields (f b) c₁ Q) : Yields (p >>= f) c Q := by
  rw [Yields, gives_bind]
  refine Gives.mono first fun b c₁ passed => (later b c₁ passed.1 passed.2).mono fun a c' after => ?_
  exact ⟨passed.1.trans after.1, after.2⟩

theorem Forward.yields {p : Parser β} {f : β → Parser α} (first : Forward p)
    (later : ∀ b c₁, c.Moves c₁ → Yields (f b) c₁ Q) : Yields (p >>= f) c Q := by
  have anything : Yields p c fun _ _ => True := (first c).mono fun _ _ moves => ⟨moves, trivial⟩
  exact anything.bind fun b c₁ moves _ => later b c₁ moves

theorem Yields.ite {p q : Parser α} {b : Prop} [Decidable b] (yes : Yields p c Q) (no : Yields q c Q) :
    Yields (if b then p else q) c Q := by
  split
  · exact yes
  · exact no

theorem yields_loop {more : Kind → Bool} {body : α → Parser α} {a : α} (start : Q c a)
    (round : ∀ a c₁, c.Moves c₁ → Q c₁ a → Yields (body a) c₁ Q) : Yields (loop more body a) c Q := by
  refine gives_loop_from (fun a c₁ _ passed => ?_) ⟨Moves.refl c, start⟩
  refine (round a c₁ passed.1 passed.2).mono fun a' c' after => ?_
  exact ⟨passed.1.trans after.1, after.2⟩

end Yields

/-! ## Expressions -/

section Rules

variable {tokens : List Token} {rec : Goal → Parser Node} {c : Cursor}

theorem orNull_yields {found : Node} (sourced : Sourced tokens c found) (complaint : Token → Complaint) :
    Yields (orNull found complaint) c (Solid tokens) := by
  rw [orNull]
  split
  · refine forward_peek.yields fun _ _ _ => (forward_complain _ _).yields fun _ _ _ => ?_
    exact yields_pure ⟨rfl, sourced_null _⟩
  case isFalse present => exact yields_pure ⟨by simpa using present, sourced⟩

theorem assignTarget_yields {left : Node} (sourced : Sourced tokens c left) (operator : Token) :
    Yields (assignTarget left operator) c fun c n => n.isName ∧ Sourced tokens c n := by
  unfold assignTarget
  split
  · obtain ⟨⟨named, _⟩, parts⟩ := sourced_iff.1 sourced
    exact yields_pure ⟨named, parts _ (by simp [Node.parts])⟩
  · refine (forward_complain _ _).yields fun _ _ _ => yields_pure ⟨rfl, ?_⟩
    exact sourced_identifier sourced_absent _ _

theorem memberRead_yields {left : Node} (sourced : Sourced tokens c left) :
    Yields (memberRead left) c (Sourced tokens) := by
  refine forward_advance.yields fun _ c₁ m₁ => forward_skipNewlines.yields fun _ c₂ m₂ => ?_
  refine (forward_expect _).yields fun name c₃ m₃ => yields_pure ?_
  exact sourced_usage (((sourced.moves m₁).moves m₂).moves m₃) _ _ _

variable (below : ∀ goal c, c.rest <:+ tokens → Yields (rec goal) c (Sourced tokens))
  (within : c.rest <:+ tokens)

include below within

theorem argument_yields : Yields (argument rec) c (Solid tokens) :=
  (below _ c within).bind fun _ _ _ sourced => orNull_yields sourced _

theorem arguments_yields : Yields (arguments rec) c fun c ns => ∀ n ∈ ns, Solid tokens c n := by
  have closing {args : List Node} {c : Cursor} (solid : ∀ n ∈ args, Solid tokens c n) : Yields (do
      skipNewlines
      require .rightParen
      return args) c fun c ns => ∀ n ∈ ns, Solid tokens c n :=
    forward_skipNewlines.yields fun _ _ m₁ => (forward_require _).yields fun _ _ m₂ =>
      yields_pure (solid_moves solid (m₁.trans m₂))
  refine (forward_expect _).yields ?_
  rintro ⟨t, opened⟩ c₁ m₁
  refine .ite (yields_pure nofun) (forward_skipNewlines.yields fun _ c₂ m₂ => ?_)
  refine forward_peekKind.yields fun _ c₃ m₃ => .ite ((yields_pure nofun).bind fun _ _ _ => closing) ?_
  have moved := (m₁.trans m₂).trans m₃
  refine (argument_yields below (moved.rest.trans within)).bind fun head c₄ m₄ solid => ?_
  refine (yields_loop (by simpa using solid) fun args c₅ m₅ all => ?_).bind fun _ _ _ => closing
  refine forward_advance.yields fun _ c₆ m₆ => forward_skipNewlines.yields fun _ c₇ m₇ => ?_
  have moved := (((moved.trans m₄).trans m₅).trans m₆).trans m₇
  refine (argument_yields below (moved.rest.trans within)).bind fun more c₈ m₈ solid => yields_pure ?_
  have earlier := solid_moves all ((m₆.trans m₇).trans m₈)
  simpa [or_imp, forall_and] using ⟨earlier, solid⟩

theorem callOf_yields {callee : Node} (sourced : Sourced tokens c callee) :
    Yields (callOf rec callee) c (Sourced tokens) := by
  refine (arguments_yields below within).bind fun args c₁ m₁ all => forward_get.yields fun _ c₂ m₂ => ?_
  have called := sourced.moves (m₁.trans m₂)
  have all := solid_moves all m₂
  simp only [Solid, imp_and, forall_and] at all
  refine yields_pure (sourced_iff.2 ?_)
  cases callee with
  | usage span target =>
    have target := (sourced_iff.1 called).2 target (by simp [Node.parts])
    simpa [Node.parts, target] using all
  | _ => simpa [Node.parts, called] using all

theorem binaryWith_yields {left : Node} (sourced : Sourced tokens c left) (operator : Token) (op : BinaryOp) :
    Yields (binaryWith rec left operator op) c (Sourced tokens) := by
  refine forward_advance.yields fun _ c₁ m₁ => forward_skipNewlines.yields fun _ c₂ m₂ => ?_
  have moved := m₁.trans m₂
  refine (below _ _ (moved.rest.trans within)).bind fun right c₃ m₃ found => ?_
  refine (orNull_yields found _).bind fun right c₄ m₄ solid => yields_pure ?_
  have left := sourced.moves ((moved.trans m₃).trans m₄)
  exact sourced_iff.2 (by simpa [Node.parts] using ⟨left, solid.2⟩)

omit below within in
theorem step_yields {operand : Node} (sourced : Sourced tokens c operand) (span : Span) (operator : Token) :
    Yields (do
      let target ← assignTarget operand operator
      return Node.assignment span (assignOp operator) target .absent) c (Sourced tokens) :=
  (assignTarget_yields sourced operator).bind fun _ _ _ named =>
    yields_pure (sourced_assignment named sourced_absent _ _)

theorem extend_yields {left : Node} (sourced : Sourced tokens c left) :
    Yields (extend rec left) c (Sourced tokens) := by
  refine forward_peek.yields fun t c₁ m₁ => ?_
  have within := m₁.rest.trans within
  have sourced := sourced.moves m₁
  split
  · exact forward_advance.yields fun _ c₂ m₂ => step_yields (sourced.moves m₂) _ _
  · exact forward_advance.yields fun _ c₂ m₂ => step_yields (sourced.moves m₂) _ _
  · exact callOf_yields below within sourced
  · exact memberRead_yields sourced
  · split
    · exact binaryWith_yields below within sourced _ _
    · exact yields_pure sourced

theorem instantiation_yields : Yields (instantiation rec) c (Sourced tokens) := by
  refine forward_advance.yields fun start c₁ m₁ => (forward_expect _).yields ?_
  rintro ⟨name, found⟩ c₂ m₂
  refine .ite ((forward_spanFrom _).yields fun _ _ _ => yields_pure (sourced_null _)) ?_
  have plain : Sourced tokens c₂ (.usage name.span (.identifier name.span .absent name.lexeme)) :=
    sourced_usage sourced_absent _ _ _
  refine (yields_loop plain fun left c₃ _ sourced => memberRead_yields sourced).bind
    fun blueprint c₃ m₃ named => ?_
  have moved := (m₁.trans m₂).trans m₃
  refine (arguments_yields below (moved.rest.trans within)).bind fun args c₄ m₄ all => ?_
  refine (forward_spanFrom _).yields fun _ c₅ m₅ => yields_pure (sourced_iff.2 ?_)
  have all := solid_moves all m₅
  simp only [Solid, imp_and, forall_and] at all
  simpa [Node.parts, named.moves (m₄.trans m₅)] using all

omit below within in
theorem sourced_negate {operand : Node} (sourced : Sourced tokens c operand) (span : Span) :
    Sourced tokens c (negate span operand) := by
  cases operand with
  | integer => exact sourced_integer _ _
  | double span' value =>
    have drawn := (Node.Throughout.own sourced).2 span' value rfl
    refine sourced_iff.2 ⟨⟨rfl, ?_⟩, by simp [negate, Node.parts]⟩
    rintro _ _ ⟨⟩
    exact drawn.negated
  | _ => exact sourced_iff.2 (by simpa [negate, Node.parts] using ⟨sourced_integer _ _, sourced⟩)

omit below in
theorem next_mem_tokens (ahead : c.kind ≠ .endOfFile) : c.next ∈ tokens := by
  cases is : c.rest with
  | nil => exact absurd (Cursor.kind_of_rest_nil is) ahead
  | cons t rest =>
    have next : c.next = t := by simp [Cursor.next, is]
    exact within.subset (by simp [is, next])

omit below in
/-- A double literal is kept with the value that was read, and complained about if it does not fit. -/
theorem double_yields (ahead : c.next.kind = .double) : Yields (do
    let _ ← advance
    if !(Number.readDouble c.next.lexeme).2 then complain (.malformedNumber c.next.lexeme) c.next.span
    return Node.double c.next.span (Number.readDouble c.next.lexeme).1) c (Sourced tokens) := by
  have notEnd : c.kind ≠ .endOfFile := by simp [Cursor.kind, ahead]
  have sourced {c' : Cursor} (reported : (Number.readDouble c.next.lexeme).2 = false →
      { complaint := .malformedNumber c.next.lexeme, span := c.next.span } ∈ c'.diagnostics) :
      Sourced tokens c' (.double c.next.span (Number.readDouble c.next.lexeme).1) := by
    refine sourced_iff.2 ⟨⟨rfl, ?_⟩, by simp [Node.parts]⟩
    rintro _ _ ⟨⟩
    exact .literal (next_mem_tokens within notEnd) ahead reported
  refine forward_advance.yields fun _ c₁ _ => ?_
  cases fits : (Number.readDouble c.next.lexeme).2 with
  | false =>
    simp only [Yields, Bool.not_false, ↓reduceIte, gives_bind, gives_complain, gives_pure]
    exact ⟨Cursor.moves_complain _ _ _, sourced fun _ => by simp [Cursor.complain]⟩
  | true =>
    simp only [Yields, Bool.not_true, Bool.false_eq_true, ↓reduceIte, gives_pure]
    exact ⟨Moves.refl c₁, sourced fun unfit => by simp [fits] at unfit⟩

theorem atom_yields : Yields (atom rec) c (Sourced tokens) := by
  have literal {c₁ : Cursor} {n : Node} (sourced : ∀ c, Sourced tokens c n) :
      Yields (advance >>= fun _ => pure n) c₁ (Sourced tokens) :=
    forward_advance.yields fun _ c₂ _ => yields_pure (sourced c₂)
  have stepped (t : Token) : Yields (do
      let _ ← advance
      let operand ← rec (.operand signPower)
      if operand.isAbsent then return Node.absent
      let target ← assignTarget operand t
      return .assignment (t.span.cover operand.span) (assignOp t) target .absent) c (Sourced tokens) := by
    refine forward_advance.yields fun _ c₁ m₁ => ?_
    refine (below _ c₁ (m₁.rest.trans within)).bind fun operand c₂ _ found => ?_
    exact .ite (yields_pure sourced_absent) (step_yields found _ _)
  rw [Yields]
  simp only [atom, gives_bind, gives_peek]
  -- One goal for each kind of token that `atom` looks for, in its order.
  split
  next =>
    refine forward_advance.yields fun _ c₁ _ => .ite ?_ (yields_pure (sourced_integer _ _))
    exact (forward_complain _ _).yields fun _ _ _ => yields_pure (sourced_integer _ _)
  next ahead => exact double_yields within ahead
  next => exact literal fun _ => sourced_iff.2 (by simp [Node.parts])
  next => exact literal fun _ => sourced_iff.2 (by simp [Node.parts])
  next => exact literal fun _ => sourced_null _
  next => exact literal fun _ => sourced_usage sourced_absent _ _ _
  next =>
    refine forward_advance.yields fun _ c₁ m₁ => forward_skipNewlines.yields fun _ c₂ m₂ => ?_
    refine (below _ _ ((m₁.trans m₂).rest.trans within)).bind fun inner c₃ m₃ found => ?_
    refine forward_skipNewlines.yields fun _ c₄ m₄ => (forward_require _).yields fun _ c₅ m₅ => ?_
    exact yields_pure (found.moves (m₄.trans m₅))
  next =>
    refine forward_advance.yields fun _ c₁ m₁ => forward_skipNewlines.yields fun _ c₂ m₂ => ?_
    refine (below _ _ ((m₁.trans m₂).rest.trans within)).bind fun operand c₃ m₃ found => ?_
    exact .ite (yields_pure sourced_absent) (yields_pure (sourced_negate found _))
  next =>
    refine forward_advance.yields fun _ c₁ m₁ => forward_skipNewlines.yields fun _ c₂ m₂ => ?_
    exact below _ _ ((m₁.trans m₂).rest.trans within)
  next => exact stepped _
  next => exact stepped _
  next => exact instantiation_yields below within
  next => exact yields_pure sourced_absent

theorem operand_yields (power : Nat) : Yields (operand rec power) c (Sourced tokens) := by
  refine (atom_yields below within).bind fun left c₁ m₁ sourced => ?_
  refine .ite (yields_pure sourced_absent) (yields_loop sourced fun left c₂ m₂ sourced => ?_)
  exact extend_yields below ((m₁.trans m₂).rest.trans within) sourced

theorem expression_yields : Yields (expression rec) c (Sourced tokens) := by
  refine (below _ _ within).bind fun left c₁ m₁ sourced => .ite (yields_pure sourced_absent) ?_
  refine forward_peekKind.yields fun _ c₂ m₂ => .ite (yields_pure (sourced.moves m₂)) ?_
  refine forward_advance.yields fun operator c₃ m₃ => forward_skipNewlines.yields fun _ c₄ m₄ => ?_
  have moved := (m₂.trans m₃).trans m₄
  refine (below _ _ ((m₁.trans moved).rest.trans within)).bind fun found c₅ m₅ value => ?_
  refine (orNull_yields value _).bind fun value c₆ m₆ assigned => ?_
  refine (assignTarget_yields (sourced.moves ((moved.trans m₅).trans m₆)) _).bind fun target c₇ m₇ named => ?_
  exact yields_pure (sourced_assignment named (assigned.2.moves m₇) _ _)

/-! ## Statements -/

omit below within in
theorem solid_keep {nodes : List Node} {node : Node} (all : ∀ n ∈ nodes, Solid tokens c n)
    (sourced : Sourced tokens c node) : ∀ n ∈ keep nodes node, Solid tokens c n := by
  unfold keep
  split
  · exact all
  case isFalse present =>
    have solid : Solid tokens c node := ⟨by simpa using present, sourced⟩
    simpa [or_imp, forall_and] using ⟨all, solid⟩

theorem statements_yields (more : Kind → Bool) :
    Yields (statements rec more) c fun c ns => ∀ n ∈ ns, Solid tokens c n := by
  refine forward_skipSeparators.yields fun _ c₁ m₁ => yields_loop nofun ?_
  intro nodes c₂ m₂ all
  refine (below _ _ ((m₁.trans m₂).rest.trans within)).bind fun node c₃ m₃ found => ?_
  refine forward_skipSeparators.yields fun _ c₄ m₄ => yields_pure ?_
  exact solid_keep (solid_moves all (m₃.trans m₄)) (found.moves m₄)

omit below within in
theorem tree_yields {children : List Node} (first : Position) (all : ∀ n ∈ children, Solid tokens c n) :
    Yields (do return Node.tree (← spanFrom first) children) c (Sourced tokens) :=
  (forward_spanFrom _).yields fun _ _ m₁ => yields_pure (sourced_tree (solid_moves all m₁) _)

theorem block_yields : Yields (block rec) c (Sourced tokens) := by
  refine forward_peek.yields fun start c₁ m₁ => (forward_expect _).yields ?_
  rintro ⟨t, opened⟩ c₂ m₂
  refine .ite (forward_synchronize.yields fun _ _ _ => tree_yields _ nofun) ?_
  refine (statements_yields below ((m₁.trans m₂).rest.trans within) _).bind fun children c₃ m₃ all => ?_
  exact (forward_require _).yields fun _ _ m₄ => tree_yields _ (solid_moves all m₄)

theorem body_yields : Yields (body rec) c (Sourced tokens) := by
  refine forward_skipNewlines.yields fun _ c₁ m₁ => forward_peekKind.yields fun _ c₂ m₂ => ?_
  have moved := m₁.trans m₂
  refine .ite (block_yields below (moved.rest.trans within)) (forward_peek.yields fun start c₃ m₃ => ?_)
  refine (below _ _ ((moved.trans m₃).rest.trans within)).bind fun node c₄ _ found => ?_
  exact tree_yields _ (solid_keep nofun found)

theorem condition_yields : Yields (condition rec) c (Sourced tokens) := by
  refine (forward_expect _).yields ?_
  rintro ⟨t, opened⟩ c₁ m₁
  refine .ite (yields_pure sourced_absent) (forward_skipNewlines.yields fun _ c₂ m₂ => ?_)
  refine (below _ _ ((m₁.trans m₂).rest.trans within)).bind fun found c₃ _ sourced => ?_
  have closing {c : Cursor} (sourced : Sourced tokens c found) : Yields (do
      skipNewlines
      require .rightParen
      return found) c (Sourced tokens) :=
    forward_skipNewlines.yields fun _ _ m₁ => (forward_require _).yields fun _ _ m₂ =>
      yields_pure (sourced.moves (m₁.trans m₂))
  refine .ite (forward_peek.yields fun _ c₄ m₄ => (forward_complain _ _).yields fun _ c₅ m₅ => ?_)
    (closing sourced)
  exact closing (sourced.moves (m₄.trans m₅))

theorem variableDeclaration_yields (start : Position) (mods : Modifiers) :
    Yields (variableDeclaration rec start mods) c (Sourced tokens) := by
  refine forward_advance.yields fun type c₁ m₁ => (forward_expect _).yields ?_
  rintro ⟨name, found⟩ c₂ m₂
  have ending {c : Cursor} {label : String} {initial : Node} (sourced : Sourced tokens c initial) :
      Yields (do
        return Node.variableDeclaration (← spanFrom start) mods label
          (type.kind.declaredType?.getD .dynamic) initial) c (Sourced tokens) :=
    (forward_spanFrom _).yields fun _ _ m₁ => yields_pure
      (sourced_iff.2 (by simpa [Node.parts] using sourced.moves m₁))
  refine .ite (forward_synchronize.yields fun _ _ _ => ending sourced_absent) ?_
  refine forward_peekKind.yields fun _ c₃ m₃ => .ite ?_ (ending sourced_absent)
  refine forward_advance.yields fun _ c₄ m₄ => forward_skipNewlines.yields fun _ c₅ m₅ => ?_
  have moved := (((m₁.trans m₂).trans m₃).trans m₄).trans m₅
  refine (below _ _ (moved.rest.trans within)).bind fun found c₆ _ sourced => ?_
  refine (orNull_yields sourced _).bind fun value c₇ _ assigned => ?_
  refine (forward_spanFrom _).yields fun span c₈ m₈ => ending ?_
  exact sourced_assignment ⟨rfl, sourced_identifier sourced_absent _ _⟩ (assigned.2.moves m₈) _ _

theorem functionDeclaration_yields (start : Position) (mods : Modifiers) :
    Yields (functionDeclaration rec start mods) c (Sourced tokens) := by
  refine forward_advance.yields fun _ c₁ m₁ => (forward_expect _).yields ?_
  rintro ⟨name, found⟩ c₂ m₂
  have ending {c : Cursor} {label : String} {names : List String} {block : Node}
      (sourced : Sourced tokens c block) : Yields (do
        return Node.functionDeclaration (← spanFrom start) mods label names block) c (Sourced tokens) :=
    (forward_spanFrom _).yields fun _ _ m₁ => yields_pure
      (sourced_iff.2 (by simpa [Node.parts] using sourced.moves m₁))
  refine .ite (forward_synchronize.yields fun _ _ _ => ending sourced_empty) ?_
  refine forward_params.yields fun names c₃ m₃ => forward_skipNewlines.yields fun _ c₄ m₄ => ?_
  have moved := ((m₁.trans m₂).trans m₃).trans m₄
  exact (block_yields below (moved.rest.trans within)).bind fun _ _ _ sourced => ending sourced

omit below within in
theorem SourcedMembers.add {members : Members} {node : Node} (all : SourcedMembers tokens c members)
    (sourced : Sourced tokens c node) : SourcedMembers tokens c (members.add node) := by
  have put {sort : Declares} {ns : List Node} (is : declared? node = some sort)
      (all : ∀ n ∈ ns, declared? n = some sort ∧ Sourced tokens c n) :
      ∀ n ∈ ns ++ [node], declared? n = some sort ∧ Sourced tokens c n := by
    rw [List.forall_mem_append, List.forall_mem_singleton]
    exact ⟨all, is, sourced⟩
  cases node with
  | variableDeclaration => exact ⟨put rfl all.fields, all.methods, all.classes⟩
  | functionDeclaration => exact ⟨all.fields, put rfl all.methods, all.classes⟩
  | classDeclaration => exact ⟨all.fields, all.methods, put rfl all.classes⟩
  | _ => exact all

theorem addMember_yields {members : Members} (all : SourcedMembers tokens c members) :
    Yields (addMember rec members) c (SourcedMembers tokens) := by
  refine forward_peek.yields fun t c₁ m₁ => .ite ?_ ?_
  · refine (below _ _ (m₁.rest.trans within)).bind fun member c₂ m₂ found => ?_
    refine forward_skipSeparators.yields fun _ c₃ m₃ => yields_pure ?_
    exact (all.moves ((m₁.trans m₂).trans m₃)).add (found.moves m₃)
  · refine (forward_complain _ _).yields fun _ c₂ m₂ => forward_advance.yields fun _ c₃ m₃ => ?_
    refine forward_synchronize.yields fun _ c₄ m₄ => forward_skipSeparators.yields fun _ c₅ m₅ => ?_
    exact yields_pure (all.moves ((((m₁.trans m₂).trans m₃).trans m₄).trans m₅))

theorem classDeclaration_yields (start : Position) (mods : Modifiers) :
    Yields (classDeclaration rec start mods) c (Sourced tokens) := by
  have ending {c : Cursor} {label : String} {members : Members} (all : SourcedMembers tokens c members) :
      Yields (do
        return Node.classDeclaration (← spanFrom start) mods label members.fields members.methods
          members.classes) c (Sourced tokens) :=
    (forward_spanFrom _).yields fun _ _ m₁ => yields_pure (sourced_classDeclaration (all.moves m₁) _ _ _)
  -- What is made of a class without a name or a brace has no members, so none of them can be missing.
  have empty {c : Cursor} : SourcedMembers tokens c {} := ⟨nofun, nofun, nofun⟩
  refine forward_advance.yields fun _ c₁ m₁ => (forward_expect _).yields ?_
  rintro ⟨name, found⟩ c₂ m₂
  refine .ite (forward_synchronize.yields fun _ _ _ => ending empty) ?_
  refine forward_skipNewlines.yields fun _ c₃ m₃ => (forward_expect _).yields ?_
  rintro ⟨t, opened⟩ c₄ m₄
  refine .ite (forward_synchronize.yields fun _ _ _ => ending empty) ?_
  refine forward_skipSeparators.yields fun _ c₅ m₅ => (yields_loop empty ?_).bind fun members c₆ m₆ all => ?_
  · intro members c₆ m₆ all
    have moved := ((((m₁.trans m₂).trans m₃).trans m₄).trans m₅).trans m₆
    exact addMember_yields below (moved.rest.trans within) all
  · exact (forward_require _).yields fun _ _ m₇ => ending (all.moves m₇)

theorem declaration_yields (inClass : Bool) : Yields (declaration rec inClass) c (Sourced tokens) := by
  refine forward_peek.yields fun start c₁ m₁ => (forward_modifiers inClass).yields fun mods c₂ m₂ => ?_
  refine forward_peek.yields fun t c₃ m₃ => ?_
  have within := ((m₁.trans m₂).trans m₃).rest.trans within
  refine .ite (variableDeclaration_yields below within _ _) ?_
  refine .ite (functionDeclaration_yields below within _ _) ?_
  refine .ite (classDeclaration_yields below within _ _) ?_
  refine (forward_complain _ _).yields fun _ _ _ => forward_synchronize.yields fun _ _ _ => ?_
  exact yields_pure sourced_absent

/-- A branch is never missing where one begins. -/
def Branches (rec : Goal → Parser Node) : Prop :=
  ∀ c, c.kind = .ifWord → Gives (rec .statement) c fun n _ => n.isAbsent = false

omit below within in
theorem branches_rule : Branches (rule rec) := by
  intro c ahead
  simp only [rule, statement, gives_bind, gives_peek]
  rw [show c.next.kind = .ifWord from ahead]
  simp only [branch, gives_bind, gives_advance, gives_get, gives_skipNewlines, gives_peekKind]
  refine (gives_anything _ _).mono fun test c₁ _ => (gives_anything _ _).mono fun yes c₂ _ => ?_
  split
  · simp only [gives_bind, gives_advance, gives_skipNewlines, gives_peekKind]
    split <;>
      simp only [gives_bind, gives_spanFrom, gives_pure] <;>
      exact (gives_anything _ _).mono fun _ _ _ => rfl
  · simp only [gives_bind, gives_set, gives_spanFrom, gives_pure]
    rfl

theorem branch_yields (branches : Branches rec) : Yields (branch rec) c (Sourced tokens) := by
  refine forward_advance.yields fun start c₁ m₁ => ?_
  refine (condition_yields below (m₁.rest.trans within)).bind fun test c₂ m₂ sourcedTest => ?_
  refine (body_yields below ((m₁.trans m₂).rest.trans within)).bind fun yes c₃ m₃ sourcedYes => ?_
  have sourcedTest := sourcedTest.moves m₃
  have within := ((m₁.trans m₂).trans m₃).rest.trans within
  have ending {c : Cursor} {no : Node} (moves : c₃.Moves c) (sourced : Sourced tokens c no) :
      Yields (do return Node.branch (← spanFrom start.span.first) test yes no) c (Sourced tokens) :=
    (forward_spanFrom _).yields fun _ _ m₁ => yields_pure (sourced_iff.2 (by
      simpa [Node.parts] using ⟨sourcedTest.moves (moves.trans m₁),
        sourcedYes.moves (moves.trans m₁), sourced.moves m₁⟩))
  -- Line breaks are given back if no alternative follows, so the rest is not a plain sequence.
  rw [Yields]
  simp only [gives_bind, gives_get, gives_skipNewlines, gives_peekKind]
  split
  next =>
    have alternative : Yields (do
        let otherwise ← advance
        skipNewlines
        let no ←
          if (← peekKind) = .ifWord then do
            let inner ← rec .statement
            pure (.tree (← spanFrom otherwise.span.first) [inner])
          else body rec
        return Node.branch (← spanFrom start.span.first) test yes no) c₃.pastNewlines (Sourced tokens) := by
      have m₄ := c₃.moves_pastNewlines
      refine forward_advance.yields fun otherwise c₅ m₅ => forward_skipNewlines.yields fun _ c₆ m₆ => ?_
      have moved := (m₄.trans m₅).trans m₆
      have within := moved.rest.trans within
      rw [Yields]
      simp only [gives_bind, gives_peekKind]
      split
      next nested =>
        -- Behind `else` a branch begins here, so the statement is there.
        have inner : Yields (rec .statement) c₆ (Solid tokens) := fun n c' run =>
          ⟨(below _ _ within n c' run).1, branches c₆ nested n c' run, (below _ _ within n c' run).2⟩
        refine inner.bind fun inner c₇ m₇ solid => (forward_spanFrom _).yields fun span c₈ m₈ => ?_
        refine (yields_pure (sourced_tree ?_ _)).bind fun _ _ m₉ sourced =>
          ending (((moved.trans m₇).trans m₈).trans m₉) sourced
        simpa [Solid] using solid.imp_right (·.moves m₈)
      next => exact (body_yields below within).bind fun _ _ m₇ sourced => ending (moved.trans m₇) sourced
    exact Gives.mono alternative fun _ _ after => ⟨c₃.moves_pastNewlines.trans after.1, after.2⟩
  next =>
    rw [gives_bind, gives_set]
    exact ending (Moves.refl c₃) sourced_absent

theorem whileLoop_yields : Yields (whileLoop rec) c (Sourced tokens) := by
  refine forward_advance.yields fun start c₁ m₁ => ?_
  refine (condition_yields below (m₁.rest.trans within)).bind fun test c₂ m₂ sourcedTest => ?_
  refine (body_yields below ((m₁.trans m₂).rest.trans within)).bind fun inner c₃ m₃ sourcedInner => ?_
  refine (forward_spanFrom _).yields fun _ c₄ m₄ => yields_pure (sourced_iff.2 ?_)
  simpa [Node.parts] using ⟨sourcedTest.moves (m₃.trans m₄), sourcedInner.moves m₄⟩

theorem doWhileLoop_yields : Yields (doWhileLoop rec) c (Sourced tokens) := by
  refine forward_advance.yields fun start c₁ m₁ => ?_
  refine (body_yields below (m₁.rest.trans within)).bind fun inner c₂ m₂ sourcedInner => ?_
  refine forward_skipNewlines.yields fun _ c₃ m₃ => (forward_expect _).yields ?_
  rintro ⟨t, found⟩ c₄ m₄
  have ending {c : Cursor} {test : Node} (moves : c₄.Moves c) (sourced : Sourced tokens c test) :
      Yields (do return Node.doWhileLoop (← spanFrom start.span.first) test inner) c (Sourced tokens) :=
    (forward_spanFrom _).yields fun _ _ m₁ => yields_pure (sourced_iff.2 (by
      simpa [Node.parts] using
        ⟨sourced.moves m₁, sourcedInner.moves (((m₃.trans m₄).trans moves).trans m₁)⟩))
  have within := (((m₁.trans m₂).trans m₃).trans m₄).rest.trans within
  refine .ite ((condition_yields below within).bind fun _ _ moves sourced => ending moves sourced) ?_
  exact (yields_pure sourced_absent).bind fun _ _ moves sourced => ending moves sourced

theorem forStart_yields : Yields (forStart rec) c (Sourced tokens) := by
  refine forward_peek.yields fun t c₁ m₁ => .ite (yields_pure sourced_absent) ?_
  have within := m₁.rest.trans within
  exact .ite (variableDeclaration_yields below within _ _) (below _ _ within)

theorem forPart_yields (closing : Kind) : Yields (forPart rec closing) c (Sourced tokens) :=
  forward_peekKind.yields fun _ _ m₁ =>
    .ite (yields_pure sourced_absent) (below _ _ (m₁.rest.trans within))

theorem forLoop_yields : Yields (forLoop rec) c (Sourced tokens) := by
  refine forward_advance.yields fun start c₁ m₁ => (forward_expect _).yields ?_
  rintro ⟨t, opened⟩ c₂ m₂
  have ending {c : Cursor} {first test round inner : Node}
      (sourced : ∀ n ∈ [first, test, round, inner], Sourced tokens c n) : Yields (do
        return Node.forLoop (← spanFrom start.span.first) first test round inner) c (Sourced tokens) :=
    (forward_spanFrom _).yields fun _ _ m₁ => yields_pure
      (sourced_iff.2 ⟨⟨rfl, nofun⟩, fun n part => (sourced n part).moves m₁⟩)
  refine .ite (forward_synchronize.yields fun _ _ _ => ending ?_) ?_
  · simpa using ⟨sourced_absent, sourced_empty⟩
  refine forward_skipNewlines.yields fun _ c₃ m₃ => ?_
  have moved := (m₁.trans m₂).trans m₃
  refine (forStart_yields below (moved.rest.trans within)).bind fun first c₄ m₄ sourcedFirst => ?_
  refine (forward_require _).yields fun _ c₅ m₅ => forward_skipNewlines.yields fun _ c₆ m₆ => ?_
  have afterFirst := m₅.trans m₆
  have moved := (moved.trans m₄).trans afterFirst
  refine (forPart_yields below (moved.rest.trans within) _).bind fun test c₇ m₇ sourcedTest => ?_
  refine (forward_require _).yields fun _ c₈ m₈ => forward_skipNewlines.yields fun _ c₉ m₉ => ?_
  have afterTest := m₈.trans m₉
  have moved := (moved.trans m₇).trans afterTest
  refine (forPart_yields below (moved.rest.trans within) _).bind fun round c₁₀ m₁₀ sourcedRound => ?_
  refine forward_skipNewlines.yields fun _ c₁₁ m₁₁ => (forward_require _).yields fun _ c₁₂ m₁₂ => ?_
  have afterRound := m₁₁.trans m₁₂
  have moved := (moved.trans m₁₀).trans afterRound
  refine (body_yields below (moved.rest.trans within)).bind fun inner c₁₃ m₁₃ sourcedInner => ending ?_
  -- What each part has behind it, from the last one back to the first.
  have round := afterRound.trans m₁₃
  have test := afterTest.trans (m₁₀.trans round)
  have first := afterFirst.trans (m₇.trans test)
  simpa using
    ⟨sourcedFirst.moves first, sourcedTest.moves test, sourcedRound.moves round, sourcedInner⟩

theorem expressionStatement_yields : Yields (expressionStatement rec) c (Sourced tokens) := by
  refine (below _ _ within).bind fun found c₁ m₁ sourced => .ite ?_ (yields_pure sourced)
  refine forward_peek.yields fun _ _ _ => (forward_complain _ _).yields fun _ _ _ => ?_
  refine forward_advance.yields fun _ _ _ => forward_synchronize.yields fun _ _ _ => ?_
  exact yields_pure sourced_absent

theorem statement_yields (branches : Branches rec) : Yields (statement rec) c (Sourced tokens) := by
  refine forward_peek.yields fun t c₁ m₁ => ?_
  have within := m₁.rest.trans within
  split
  · exact functionDeclaration_yields below within _ _
  · exact classDeclaration_yields below within _ _
  · exact branch_yields below within branches
  · exact whileLoop_yields below within
  · exact doWhileLoop_yields below within
  · exact forLoop_yields below within
  · exact .ite (declaration_yields below within false) (expressionStatement_yields below within)

theorem rule_yields (branches : Branches rec) (goal : Goal) : Yields (rule rec goal) c (Sourced tokens) := by
  cases goal with
  | statement => exact statement_yields below within branches
  | member => exact declaration_yields below within true
  | expression => exact expression_yields below within
  | operand power => exact operand_yields below within power

end Rules

/-! ## Programs -/

theorem branches_parse (depth : Nat) : Branches (parse depth) := by
  cases depth with
  | zero =>
    intro c _ n c' run
    cases run
  | succ depth => exact branches_rule

theorem parse_yields {tokens : List Token} (depth : Nat) (goal : Goal) (c : Cursor)
    (within : c.rest <:+ tokens) : Yields (parse depth goal) c (Sourced tokens) := by
  induction depth generalizing goal c with
  | zero =>
    intro n c' run
    cases run
  | succ depth ih => exact rule_yields ih within (branches_parse depth) goal

theorem sourced_parseTokens (tokens : List Token) :
    ∃ c : Cursor, c.diagnostics = (parseTokens tokens).2 ∧ Sourced tokens c (parseTokens tokens).1 := by
  obtain ⟨tree, c', run, _⟩ := run_ends tokens
  have yields : Yields (program (depthFor tokens)) { rest := tokens } (Sourced tokens) := by
    refine forward_peek.yields fun start c₁ m₁ => ?_
    refine (statements_yields (parse_yields _) m₁.rest _).bind fun children c₂ m₂ all => ?_
    exact forward_peek.yields fun _ _ m₃ => yields_pure (sourced_tree (solid_moves all m₃) _)
  rw [parseTokens, run]
  exact ⟨c', rfl, (yields tree c' run).2⟩

theorem complete_parseTokens (tokens : List Token) : (parseTokens tokens).1.Complete := by
  obtain ⟨_, _, sourced⟩ := sourced_parseTokens tokens
  exact Node.Throughout.mono sourced fun _ own => own.1

theorem complete_parseSource (source : List UInt8) : (parseSource source).1.Complete :=
  complete_parseTokens (tokenize source).1

/-- Every double of a parsed tree is drawn from the tokens. -/
theorem drawn_parseTokens {tokens : List Token} {span : Span} {x : Float}
    (inside : (Node.double span x).Inside (parseTokens tokens).1) :
    Drawn tokens (parseTokens tokens).2 x := by
  obtain ⟨_, same, sourced⟩ := sourced_parseTokens tokens
  exact same ▸ (sourced _ inside).2 span x rfl

/-- A double of a parsed source is finite or infinite, and never no number. -/
theorem Drawn.finite_or_isInf {source : List UInt8} {complaints : List Diagnostic} {x : Float}
    (drawn : Drawn (tokenize source).1 complaints x) : Number.Finite x ∨ x.isInf = true := by
  induction drawn with
  | literal member double _ =>
    obtain ⟨c, rest, is, begins⟩ := number_lexeme member (.inr double)
    exact Number.finite_or_isInf_readDouble begins is
  | negated _ ih => exact ih.imp Number.Finite.neg Number.isInf_neg

/-- An infinite double of a parsed source stands for a literal that is out of range, and that has been
    complained about. -/
theorem Drawn.reported {source : List UInt8} {complaints : List Diagnostic} {x : Float}
    (drawn : Drawn (tokenize source).1 complaints x) (infinite : x.isInf = true) :
    ∃ t ∈ (tokenize source).1, t.kind = .double ∧ (Number.readDouble t.lexeme).1.isInf = true ∧
      { complaint := .malformedNumber t.lexeme, span := t.span } ∈ complaints := by
  induction drawn with
  | @literal t member double reported =>
    obtain ⟨c, rest, is, begins⟩ := number_lexeme member (.inr double)
    refine ⟨t, member, double, infinite, reported ?_⟩
    by_contra fits
    have finite := Number.finite_readDouble begins is (by simpa using fits)
    simp [finite.isInf_eq_false] at infinite
  | @negated x drawn ih =>
    rcases drawn.finite_or_isInf with finite | infinite
    · simp [finite.neg.isInf_eq_false] at infinite
    · exact ih infinite

theorem drawn_parseSource {source : List UInt8} {span : Span} {x : Float}
    (inside : (Node.double span x).Inside (parseSource source).1) :
    Drawn (tokenize source).1 (parseSource source).2 x :=
  (drawn_parseTokens inside).mono (List.subset_append_right _ _)

end ClassScript.Parser
