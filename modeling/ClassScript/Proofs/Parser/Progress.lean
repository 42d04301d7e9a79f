import ClassScript.Proofs.Parser.Answers

/-! # The parser moves on

Whatever the tokens are, no function of the parser stops before the place where it was started, although a
branch looks for its alternative and then goes back to where it began to look. The calls that loops repeat
take a token each time: statements, members of classes, and the operators behind an operand. So the parser
comes to an end, and it does so at an end token or behind the last token.

`Forward p` is the first of these for one parser `p`, and `Taking p takes` adds that a token is taken if the
kind of the next one is among `takes`. There is one lemma for each function of the grammar, over any `rec` that
keeps to `Steady`; `steady_parse` ties the knot.
-/

namespace ClassScript.Parser

open Cursor (Moves)

/-! ## Parsers that do not go back -/

/-- The parser does not go back, and it takes a token if the next one is of a kind among `takes`. -/
def Taking {α : Type} (p : Parser α) (takes : Kind → Prop) : Prop :=
  ∀ c, Gives p c fun _ c' => c.Moves c' ∧ (takes c.kind → c'.rest.length < c.rest.length)

def Forward {α : Type} (p : Parser α) : Prop := ∀ c, Gives p c fun _ c' => c.Moves c'

section Combinators

variable {α β : Type} {takes : Kind → Prop}

theorem Taking.forward {p : Parser α} (taking : Taking p takes) : Forward p :=
  fun c => (taking c).mono fun _ _ passed => passed.1

theorem Taking.whenever {p : Parser α} {c : Cursor} {P : α → Prop} (taking : Taking p takes)
    (sure : ∀ a, P a → takes c.kind) :
    Gives p c fun a c' => c.Moves c' ∧ (P a → c'.rest.length < c.rest.length) :=
  (taking c).mono fun a _ passed => ⟨passed.1, fun holds => passed.2 (sure a holds)⟩

theorem Forward.bind {p : Parser β} {f : β → Parser α} (first : Forward p) (later : ∀ b, Forward (f b)) :
    Forward (p >>= f) := by
  intro c
  rw [gives_bind]
  exact (first c).mono fun b c₁ moves => (later b c₁).mono fun _ _ => moves.trans

theorem Taking.bind {p : Parser β} {f : β → Parser α} (first : Taking p takes) (later : ∀ b, Forward (f b)) :
    Taking (p >>= f) takes := by
  intro c
  rw [gives_bind]
  refine (first c).mono fun b c₁ passed => (later b c₁).mono fun _ c' moves => ?_
  exact ⟨passed.1.trans moves, fun taken => Nat.lt_of_le_of_lt moves.length_le (passed.2 taken)⟩

theorem Forward.ite {p q : Parser α} {b : Prop} [Decidable b] (yes : Forward p) (no : Forward q) :
    Forward (if b then p else q) := by
  split
  · exact yes
  · exact no

theorem forward_pure (a : α) : Forward (pure a) := fun c => (gives_pure a).2 (Moves.refl c)

theorem forward_get : Forward get := fun c => gives_get.2 (Moves.refl c)

theorem forward_peek : Forward peek := fun c => gives_peek.2 (Moves.refl c)

theorem forward_peekKind : Forward peekKind := fun c => gives_peekKind.2 (Moves.refl c)

theorem forward_spanFrom (first : Position) : Forward (spanFrom first) :=
  fun c => (gives_spanFrom first).2 (Moves.refl c)

theorem forward_complain (complaint : Complaint) (span : Span) : Forward (complain complaint span) :=
  fun c => (gives_complain complaint span).2 (Cursor.moves_complain c complaint span)

theorem forward_skipNewlines : Forward skipNewlines :=
  fun c => gives_skipNewlines.2 c.moves_pastNewlines

theorem forward_skipSeparators : Forward skipSeparators :=
  fun c => gives_skipSeparators.2 c.moves_pastSeparators

theorem forward_synchronize : Forward synchronize :=
  fun c => gives_synchronize.2 c.moves_synchronized

theorem taking_advance : Taking advance (· ≠ .endOfFile) :=
  fun c => gives_advance.2 ⟨c.moves_advance, Cursor.advance_lt⟩

theorem forward_advance : Forward advance := taking_advance.forward

theorem Taking.complained {p : Parser α} {complaint : Complaint} {span : Span} (taking : Taking p takes) :
    Taking (do complain complaint span; p) takes := by
  intro c
  simp only [gives_bind, gives_complain]
  have same := c.moves_complain complaint span
  exact (taking (c.complain complaint span)).mono fun _ _ passed => ⟨same.trans passed.1, passed.2⟩

theorem taking_expect (kind : Kind) : Taking (expect kind) fun ahead => ahead = kind ∧ kind ≠ .endOfFile := by
  intro c
  rw [gives_expect]
  split
  next same =>
    refine ⟨c.moves_advance, ?_⟩
    rintro ⟨_, notEnd⟩
    exact Cursor.advance_lt (same.symm ▸ notEnd)
  next differs => exact ⟨Cursor.moves_complain c _ _, fun taken => absurd taken.1 differs⟩

theorem forward_expect (kind : Kind) : Forward (expect kind) := (taking_expect kind).forward

theorem forward_require (kind : Kind) : Forward (require kind) :=
  (forward_expect kind).bind fun _ => forward_pure _

theorem forward_loop {more : Kind → Bool} {body : α → Parser α} (round : ∀ a, Forward (body a)) (a : α) :
    Forward (loop more body a) := by
  intro c
  refine gives_loop_from (fun a c₁ _ moves => ?_) (Moves.refl c)
  exact (round a c₁).mono fun _ _ => moves.trans

theorem forward_orNull (found : Node) (complaint : Token → Complaint) : Forward (orNull found complaint) :=
  .ite (forward_peek.bind fun _ => (forward_complain _ _).bind fun _ => forward_pure _) (forward_pure _)

theorem forward_assignTarget (left : Node) (operator : Token) : Forward (assignTarget left operator) := by
  unfold assignTarget
  split
  · exact forward_pure _
  · exact (forward_complain _ _).bind fun _ => forward_pure _

end Combinators

/-! ## Expressions -/

/-- The recursive parts of the grammar do not go back, and take a token where they are sure to. -/
structure Steady (rec : Goal → Parser Node) : Prop where
  forward : ∀ goal, Forward (rec goal)
  advances : ∀ goal c, Gives (rec goal) c fun n c' => goal.Advances c n c'

section Rules

variable {rec : Goal → Parser Node}

theorem forward_argument (steady : Steady rec) : Forward (argument rec) :=
  (steady.forward .expression).bind fun _ => forward_orNull _ _

theorem taking_arguments (steady : Steady rec) : Taking (arguments rec) (· = .leftParen) := by
  have closing (args : List Node) : Forward do
      skipNewlines
      require .rightParen
      return args :=
    forward_skipNewlines.bind fun _ => (forward_require _).bind fun _ => forward_pure _
  have whole : Taking (arguments rec) fun ahead => ahead = .leftParen ∧ Kind.leftParen ≠ .endOfFile := by
    refine (taking_expect .leftParen).bind ?_
    rintro ⟨t, opened⟩
    refine .ite (forward_pure _) (forward_skipNewlines.bind fun _ => forward_peekKind.bind fun kind => ?_)
    refine .ite ((forward_pure _).bind closing) ?_
    refine (forward_argument steady).bind fun head => (forward_loop (fun args => ?_) _).bind closing
    refine forward_advance.bind fun _ => forward_skipNewlines.bind fun _ => ?_
    exact (forward_argument steady).bind fun _ => forward_pure _
  exact fun c => whole.whenever fun _ ahead => ⟨ahead, by decide⟩

theorem taking_memberRead (left : Node) : Taking (memberRead left) (· ≠ .endOfFile) := by
  refine taking_advance.bind fun _ => forward_skipNewlines.bind fun _ => ?_
  exact (forward_expect _).bind fun _ => forward_pure _

theorem taking_callOf (steady : Steady rec) (callee : Node) :
    Taking (callOf rec callee) (· = .leftParen) :=
  (taking_arguments steady).bind fun _ => forward_get.bind fun _ => forward_pure _

theorem taking_binaryWith (steady : Steady rec) (left : Node) (operator : Token) (op : BinaryOp) :
    Taking (binaryWith rec left operator op) (· ≠ .endOfFile) := by
  refine taking_advance.bind fun _ => forward_skipNewlines.bind fun _ => ?_
  exact (steady.forward _).bind fun _ => (forward_orNull _ _).bind fun _ => forward_pure _

theorem taking_extend (steady : Steady rec) (left : Node) : Taking (extend rec left) (0 < ·.power) := by
  intro c
  have notEnd (binds : 0 < c.kind.power) : c.kind ≠ .endOfFile := by
    intro atEnd
    simp [atEnd, Kind.power] at binds
  have stepping (operator : Token) : Taking (do
      let _ ← advance
      let target ← assignTarget left operator
      return Node.assignment (left.span.cover operator.span) (assignOp operator) target .absent)
      (· ≠ .endOfFile) :=
    taking_advance.bind fun _ => (forward_assignTarget _ _).bind fun _ => forward_pure _
  simp only [extend, gives_bind, gives_peek]
  split
  next => exact (stepping _).whenever fun _ => notEnd
  next => exact (stepping _).whenever fun _ => notEnd
  next ahead => exact (taking_callOf steady left).whenever fun _ _ => ahead
  next => exact (taking_memberRead left).whenever fun _ => notEnd
  next up down call read =>
    split
    next => exact (taking_binaryWith steady left _ _).whenever fun _ => notEnd
    next none =>
      -- No token would be taken here, but a kind that binds is one of the above or a binary operator.
      refine (gives_pure left).2 ⟨Moves.refl c, fun binds => ?_⟩
      exact absurd none (binaryOp?_ne_none_of_power binds up down call read)

theorem taking_instantiation (steady : Steady rec) : Taking (instantiation rec) (· ≠ .endOfFile) := by
  refine taking_advance.bind fun start => (forward_expect _).bind ?_
  rintro ⟨name, found⟩
  refine .ite ((forward_spanFrom _).bind fun _ => forward_pure _) ?_
  refine (forward_loop (fun left => (taking_memberRead left).forward) _).bind fun blueprint => ?_
  refine (taking_arguments steady).forward.bind fun args => ?_
  exact (forward_spanFrom _).bind fun _ => forward_pure _

/-- What is parsed for an expression or an operand has taken a token, unless it is absent. -/
def Present (c : Cursor) (n : Node) (c' : Cursor) : Prop :=
  c.Moves c' ∧ (n.isAbsent = false → c'.rest.length < c.rest.length)

theorem present_absent (c : Cursor) : Gives (pure .absent) c (Present c) :=
  (gives_pure _).2 ⟨Moves.refl c, by simp [Node.isAbsent]⟩

theorem Present.later {c c₁ c' : Cursor} {left n : Node} (first : Present c left c₁)
    (present : left.isAbsent = false) (moves : c₁.Moves c') : Present c n c' :=
  ⟨first.1.trans moves, fun _ => Nat.lt_of_le_of_lt moves.length_le (first.2 present)⟩

theorem Taking.present {p : Parser Node} {c : Cursor} {kind : Kind} (taking : Taking p (· ≠ .endOfFile))
    (ahead : c.next.kind = kind) (notEnd : kind ≠ .endOfFile) : Gives p c (Present c) :=
  taking.whenever fun _ _ => show c.next.kind ≠ .endOfFile from ahead ▸ notEnd

theorem forward_orComplain (fits : Bool) (complaint : Complaint) (span : Span) (value : Node) : Forward do
    if !fits then complain complaint span
    return value :=
  .ite ((forward_complain _ _).bind fun _ => forward_pure _) (forward_pure _)

/-- Every token that begins an operand is taken before anything else. -/
theorem atom_present (steady : Steady rec) (c : Cursor) : Gives (atom rec) c (Present c) := by
  have plain (n : Node) : Taking (advance >>= fun _ => pure n) (· ≠ .endOfFile) :=
    taking_advance.bind fun _ => forward_pure _
  have stepped (t : Token) : Taking (do
      let _ ← advance
      let operand ← rec (.operand signPower)
      if operand.isAbsent then return Node.absent
      let target ← assignTarget operand t
      return .assignment (t.span.cover operand.span) (assignOp t) target .absent) (· ≠ .endOfFile) := by
    refine taking_advance.bind fun _ => (steady.forward _).bind fun operand => ?_
    exact .ite (forward_pure _) ((forward_assignTarget _ _).bind fun _ => forward_pure _)
  simp only [atom, gives_bind, gives_peek]
  split
  next ahead =>
    exact (taking_advance.bind fun _ => forward_orComplain _ _ _ _).present ahead (by decide)
  next ahead =>
    exact (taking_advance.bind fun _ => forward_orComplain _ _ _ _).present ahead (by decide)
  next ahead => exact (plain _).present ahead (by decide)
  next ahead => exact (plain _).present ahead (by decide)
  next ahead => exact (plain _).present ahead (by decide)
  next ahead => exact (plain _).present ahead (by decide)
  next ahead =>
    refine (taking_advance.bind fun _ => forward_skipNewlines.bind fun _ => ?_).present ahead (by decide)
    refine (steady.forward _).bind fun _ => forward_skipNewlines.bind fun _ => ?_
    exact (forward_require _).bind fun _ => forward_pure _
  next ahead =>
    refine (taking_advance.bind fun _ => forward_skipNewlines.bind fun _ => ?_).present ahead (by decide)
    exact (steady.forward _).bind fun _ => .ite (forward_pure _) (forward_pure _)
  next ahead =>
    refine (taking_advance.bind fun _ => forward_skipNewlines.bind fun _ => ?_).present ahead (by decide)
    exact steady.forward _
  next ahead => exact (stepped _).present ahead (by decide)
  next ahead => exact (stepped _).present ahead (by decide)
  next ahead => exact (taking_instantiation steady).present ahead (by decide)
  next => exact present_absent c

theorem operand_present (steady : Steady rec) (power : Nat) (c : Cursor) :
    Gives (operand rec power) c (Present c) := by
  simp only [operand, gives_bind]
  refine (atom_present steady c).mono fun left c₁ first => ?_
  by_cases absent : left.isAbsent = true
  · simp only [absent, ↓reduceIte, gives_pure]
    exact ⟨first.1, by simp [Node.isAbsent]⟩
  · simp only [absent, Bool.false_eq_true, ↓reduceIte]
    have extensions : Forward (loop (fun kind => power < kind.power) (extend rec) left) :=
      forward_loop (fun left => (taking_extend steady left).forward) left
    exact (extensions c₁).mono fun _ _ moves => first.later (by simpa using absent) moves

theorem expression_present (steady : Steady rec) (c : Cursor) : Gives (expression rec) c (Present c) := by
  simp only [expression, gives_bind]
  have leads : Gives (rec (.operand 0)) c (Present c) :=
    fun n c' run => ⟨steady.forward _ c n c' run, steady.advances (.operand 0) c n c' run⟩
  refine leads.mono fun left c₁ first => ?_
  by_cases absent : left.isAbsent = true
  · simp only [absent, ↓reduceIte, gives_pure]
    exact ⟨first.1, by simp [Node.isAbsent]⟩
  · simp only [absent, Bool.false_eq_true, ↓reduceIte]
    have assigned : Forward do
        if !assignsValue (← peekKind) then return left
        let operator ← advance
        skipNewlines
        let value ← orNull (← rec .expression) fun _ => .missingAssigned operator.lexeme
        let target ← assignTarget left operator
        return Node.assignment (left.span.cover value.span) (assignOp operator) target value := by
      refine forward_peekKind.bind fun _ => .ite (forward_pure _) ?_
      refine forward_advance.bind fun operator => forward_skipNewlines.bind fun _ => ?_
      refine (steady.forward _).bind fun _ => (forward_orNull _ _).bind fun value => ?_
      exact (forward_assignTarget _ _).bind fun _ => forward_pure _
    exact (assigned c₁).mono fun _ _ moves => first.later (by simpa using absent) moves

/-! ## Statements -/

theorem forward_modifiers (inClass : Bool) : Forward (modifiers inClass) :=
  forward_loop (fun _ => forward_advance.bind fun _ => forward_pure _) _

theorem forward_params : Forward params := by
  have closing (names : List String) : Forward do
      skipNewlines
      require .rightParen
      return names :=
    forward_skipNewlines.bind fun _ => (forward_require _).bind fun _ => forward_pure _
  refine (forward_expect _).bind ?_
  rintro ⟨t, opened⟩
  refine .ite (forward_pure _) (forward_skipNewlines.bind fun _ => forward_peekKind.bind fun kind => ?_)
  refine .ite ((forward_pure _).bind closing) ?_
  refine Forward.bind ((forward_expect _).bind fun _ => forward_pure _) fun first => ?_
  refine (forward_loop (fun names => ?_) _).bind closing
  refine forward_advance.bind fun _ => forward_skipNewlines.bind fun _ => ?_
  exact (forward_expect _).bind fun _ => forward_pure _

theorem forward_statements (steady : Steady rec) (more : Kind → Bool) : Forward (statements rec more) := by
  refine forward_skipSeparators.bind fun _ => forward_loop (fun nodes => ?_) _
  exact (steady.forward _).bind fun _ => forward_skipSeparators.bind fun _ => forward_pure _

theorem forward_block (steady : Steady rec) : Forward (block rec) := by
  refine forward_peek.bind fun start => (forward_expect _).bind ?_
  rintro ⟨t, opened⟩
  refine .ite ?_ ?_
  · exact forward_synchronize.bind fun _ => (forward_spanFrom _).bind fun _ => forward_pure _
  · refine (forward_statements steady _).bind fun children => (forward_require _).bind fun _ => ?_
    exact (forward_spanFrom _).bind fun _ => forward_pure _

theorem forward_body (steady : Steady rec) : Forward (body rec) := by
  refine forward_skipNewlines.bind fun _ => forward_peekKind.bind fun kind => ?_
  refine .ite (forward_block steady) (forward_peek.bind fun start => ?_)
  exact (steady.forward _).bind fun _ => (forward_spanFrom _).bind fun _ => forward_pure _

theorem forward_condition (steady : Steady rec) : Forward (condition rec) := by
  refine (forward_expect _).bind ?_
  rintro ⟨t, opened⟩
  refine .ite (forward_pure _) (forward_skipNewlines.bind fun _ => (steady.forward _).bind fun found => ?_)
  have closing : Forward do
      skipNewlines
      require .rightParen
      return found :=
    forward_skipNewlines.bind fun _ => (forward_require _).bind fun _ => forward_pure _
  exact .ite (forward_peek.bind fun _ => (forward_complain _ _).bind fun _ => closing) closing

theorem taking_variableDeclaration (steady : Steady rec) (start : Position) (mods : Modifiers) :
    Taking (variableDeclaration rec start mods) (· ≠ .endOfFile) := by
  refine taking_advance.bind fun type => (forward_expect _).bind ?_
  rintro ⟨name, found⟩
  have ending {initial : Span → Node} : Forward (do return initial (← spanFrom start)) :=
    (forward_spanFrom _).bind fun _ => forward_pure _
  refine .ite (forward_synchronize.bind fun _ => ending) (forward_peekKind.bind fun kind => ?_)
  refine .ite (forward_advance.bind fun _ => forward_skipNewlines.bind fun _ => ?_) ending
  refine (steady.forward _).bind fun _ => (forward_orNull _ _).bind fun value => ?_
  exact (forward_spanFrom _).bind fun _ => ending

theorem taking_functionDeclaration (steady : Steady rec) (start : Position) (mods : Modifiers) :
    Taking (functionDeclaration rec start mods) (· ≠ .endOfFile) := by
  refine taking_advance.bind fun _ => (forward_expect _).bind ?_
  rintro ⟨name, found⟩
  refine .ite ?_ ?_
  · exact forward_synchronize.bind fun _ => (forward_spanFrom _).bind fun _ => forward_pure _
  · refine forward_params.bind fun names => forward_skipNewlines.bind fun _ => ?_
    exact (forward_block steady).bind fun _ => (forward_spanFrom _).bind fun _ => forward_pure _

theorem taking_addMember (steady : Steady rec) (members : Members) :
    Taking (addMember rec members) (insideBlock · = true) := by
  intro c
  simp only [addMember, gives_bind, gives_peek]
  split
  next begins =>
    have begun : Taking (rec .member) (beginsMember · = true) :=
      fun c n c' run => ⟨steady.forward _ c n c' run, steady.advances .member c n c' run⟩
    refine (begun.bind fun _ => ?_).whenever fun _ _ => begins
    exact forward_skipSeparators.bind fun _ => forward_pure _
  next =>
    refine (Taking.complained (taking_advance.bind fun _ => ?_)).whenever fun _ inside =>
      insideBlock_ne_endOfFile inside
    exact forward_synchronize.bind fun _ => forward_skipSeparators.bind fun _ => forward_pure _

theorem taking_classDeclaration (steady : Steady rec) (start : Position) (mods : Modifiers) :
    Taking (classDeclaration rec start mods) (· ≠ .endOfFile) := by
  have ending {declared : Span → Node} : Forward (do return declared (← spanFrom start)) :=
    (forward_spanFrom _).bind fun _ => forward_pure _
  refine taking_advance.bind fun _ => (forward_expect _).bind ?_
  rintro ⟨name, found⟩
  refine .ite (forward_synchronize.bind fun _ => ending) (forward_skipNewlines.bind fun _ => ?_)
  refine (forward_expect _).bind ?_
  rintro ⟨t, opened⟩
  refine .ite (forward_synchronize.bind fun _ => ending) (forward_skipSeparators.bind fun _ => ?_)
  refine (forward_loop (fun members => (taking_addMember steady members).forward) _).bind fun _ => ?_
  exact (forward_require _).bind fun _ => ending

/-- A declaration that has no modifier to take begins with a keyword of its own. -/
theorem taking_declaration (steady : Steady rec) (inClass : Bool) :
    Taking (declaration rec inClass) (beginsMember · = true) := by
  intro c
  have behind := c.moves_pastModifiers
  have keyword {p : Parser Node} (taking : Taking p (· ≠ .endOfFile))
      (notEnd : c.pastModifiers.kind ≠ .endOfFile) : Gives p c.pastModifiers fun _ c' =>
        c.Moves c' ∧ (beginsMember c.kind = true → c'.rest.length < c.rest.length) :=
    (taking c.pastModifiers).mono fun _ _ passed =>
      ⟨behind.trans passed.1, fun _ => Nat.lt_of_lt_of_le (passed.2 notEnd) behind.length_le⟩
  simp only [declaration, gives_bind, gives_peek, gives_iff fun _ => ends_modifiers inClass]
  split
  next typed =>
    exact keyword (taking_variableDeclaration steady _ _) (kind_ne_endOfFile rfl typed)
  split
  next ahead => exact keyword (taking_functionDeclaration steady _ _) (by simp [Cursor.kind, ahead])
  split
  next ahead => exact keyword (taking_classDeclaration steady _ _) (by simp [Cursor.kind, ahead])
  next notTyped notFunction notClass =>
    simp only [gives_bind, gives_complain, gives_synchronize, gives_pure]
    have recovered := (Cursor.moves_complain c.pastModifiers
      (.strayModifiers c.pastModifiers.next.lexeme) c.pastModifiers.next.span).trans
      (Cursor.moves_synchronized _)
    -- There is no keyword, so the declaration began with a modifier, which has been taken.
    refine ⟨behind.trans recovered, fun begins => Nat.lt_of_le_of_lt recovered.length_le ?_⟩
    exact pastModifiers_lt (modifier_of_beginsMember begins notTyped notFunction notClass)

/-- Where a branch finds no alternative it goes back, but not behind its own first alternative. -/
theorem taking_branch (steady : Steady rec) : Taking (branch rec) (· ≠ .endOfFile) := by
  refine taking_advance.bind fun start => (forward_condition steady).bind fun test => ?_
  refine (forward_body steady).bind fun yes => ?_
  -- The parser may come back to `here`, which `bind` does not allow for.
  intro here
  simp only [gives_bind, gives_get, gives_skipNewlines, gives_peekKind]
  split
  next =>
    have alternative : Forward do
        let otherwise ← advance
        skipNewlines
        let no ←
          if (← peekKind) = .ifWord then do
            let inner ← rec .statement
            pure (.tree (← spanFrom otherwise.span.first) [inner])
          else body rec
        return Node.branch (← spanFrom start.span.first) test yes no := by
      have ending (no : Node) : Forward do
          return Node.branch (← spanFrom start.span.first) test yes no :=
        (forward_spanFrom _).bind fun _ => forward_pure _
      refine forward_advance.bind fun otherwise => forward_skipNewlines.bind fun _ => ?_
      refine forward_peekKind.bind fun kind => .ite ?_ ((forward_body steady).bind ending)
      refine (steady.forward _).bind fun inner => (forward_spanFrom _).bind fun _ => ?_
      exact (forward_pure _).bind ending
    exact (alternative here.pastNewlines).mono fun _ _ => here.moves_pastNewlines.trans
  next =>
    simp only [gives_bind, gives_set, gives_spanFrom, gives_pure]
    exact Moves.refl here

theorem taking_whileLoop (steady : Steady rec) : Taking (whileLoop rec) (· ≠ .endOfFile) := by
  refine taking_advance.bind fun start => (forward_condition steady).bind fun test => ?_
  exact (forward_body steady).bind fun _ => (forward_spanFrom _).bind fun _ => forward_pure _

theorem taking_doWhileLoop (steady : Steady rec) : Taking (doWhileLoop rec) (· ≠ .endOfFile) := by
  refine taking_advance.bind fun start => (forward_body steady).bind fun inner => ?_
  refine forward_skipNewlines.bind fun _ => (forward_expect _).bind ?_
  rintro ⟨t, found⟩
  have ending (test : Node) : Forward (do return Node.doWhileLoop (← spanFrom start.span.first) test inner) :=
    (forward_spanFrom _).bind fun _ => forward_pure _
  exact .ite ((forward_condition steady).bind ending) ((forward_pure _).bind ending)

theorem forward_forStart (steady : Steady rec) : Forward (forStart rec) := by
  refine forward_peek.bind fun t => .ite (forward_pure _) ?_
  exact .ite (taking_variableDeclaration steady _ _).forward (steady.forward _)

theorem forward_forPart (steady : Steady rec) (closing : Kind) : Forward (forPart rec closing) :=
  forward_peekKind.bind fun _ => .ite (forward_pure _) (steady.forward _)

theorem taking_forLoop (steady : Steady rec) : Taking (forLoop rec) (· ≠ .endOfFile) := by
  refine taking_advance.bind fun start => (forward_expect _).bind ?_
  rintro ⟨t, opened⟩
  refine .ite ?_ (forward_skipNewlines.bind fun _ => ?_)
  · exact forward_synchronize.bind fun _ => (forward_spanFrom _).bind fun _ => forward_pure _
  refine (forward_forStart steady).bind fun first => (forward_require _).bind fun _ => ?_
  refine forward_skipNewlines.bind fun _ => (forward_forPart steady _).bind fun test => ?_
  refine (forward_require _).bind fun _ => forward_skipNewlines.bind fun _ => ?_
  refine (forward_forPart steady _).bind fun round => forward_skipNewlines.bind fun _ => ?_
  refine (forward_require _).bind fun _ => (forward_body steady).bind fun inner => ?_
  exact (forward_spanFrom _).bind fun _ => forward_pure _

theorem taking_expressionStatement (steady : Steady rec) :
    Taking (expressionStatement rec) (· ≠ .endOfFile) := by
  intro c
  simp only [expressionStatement, gives_bind]
  intro found c₁ run
  have moves := steady.forward _ c found c₁ run
  split
  next =>
    simp only [gives_bind, gives_peek, gives_complain, gives_advance, gives_synchronize, gives_pure]
    have complained := moves.trans (c₁.moves_complain (.unexpectedToken c₁.next.lexeme) c₁.next.span)
    have synchronized := Cursor.moves_synchronized
      (c₁.complain (.unexpectedToken c₁.next.lexeme) c₁.next.span).advance
    refine ⟨(complained.trans (Cursor.moves_advance _)).trans synchronized, fun ahead => ?_⟩
    exact Nat.lt_of_le_of_lt synchronized.length_le (complained.advance_lt ahead)
  next present =>
    refine (gives_pure found).2 ⟨moves, fun _ => ?_⟩
    exact steady.advances .expression c found c₁ run (by simpa using present)

theorem taking_statement (steady : Steady rec) : Taking (statement rec) (· ≠ .endOfFile) := by
  intro c
  simp only [statement, gives_bind, gives_peek]
  split
  next => exact taking_functionDeclaration steady _ _ c
  next => exact taking_classDeclaration steady _ _ c
  next => exact taking_branch steady c
  next => exact taking_whileLoop steady c
  next => exact taking_doWhileLoop steady c
  next => exact taking_forLoop steady c
  next =>
    split
    next declared =>
      refine (taking_declaration steady false).whenever fun _ _ => ?_
      rw [beginsMember, show c.kind = c.next.kind from rfl, declared]
      rfl
    next => exact taking_expressionStatement steady c

theorem forward_rule (steady : Steady rec) (goal : Goal) : Forward (rule rec goal) := by
  intro c
  cases goal with
  | statement => exact (taking_statement steady).forward c
  | member => exact (taking_declaration steady true).forward c
  | expression => exact (expression_present steady c).mono fun _ _ present => present.1
  | operand power => exact (operand_present steady power c).mono fun _ _ present => present.1

theorem rule_advances (steady : Steady rec) (goal : Goal) (c : Cursor) :
    Gives (rule rec goal) c fun n c' => goal.Advances c n c' := by
  cases goal with
  | statement => exact (taking_statement steady c).mono fun _ _ passed => passed.2
  | member => exact (taking_declaration steady true c).mono fun _ _ passed => passed.2
  | expression => exact (expression_present steady c).mono fun _ _ present => present.2
  | operand power => exact (operand_present steady power c).mono fun _ _ present => present.2

end Rules

/-! ## Whole runs -/

theorem steady_parse (depth : Nat) : Steady (parse depth) := by
  induction depth with
  | zero =>
    -- without any recursion left there is no answer to speak of
    refine ⟨fun goal c n c' run => ?_, fun goal c n c' run => ?_⟩
    · cases run
    · cases run
  | succ depth ih =>
    exact ⟨forward_rule ih, rule_advances ih⟩

theorem forward_program (depth : Nat) : Forward (program depth) := by
  refine forward_peek.bind fun start => (forward_statements (steady_parse depth) _).bind fun children => ?_
  exact forward_peek.bind fun _ => forward_pure _

/-- A loop stops only before a token that does not ask for more. -/
theorem loop_stops {α : Type} (more : Kind → Bool) (body : α → Parser α) (a : α) (c : Cursor) :
    Gives (loop more body a) c fun _ c' => more c'.kind = false := by
  have within (rounds : Nat) (a : α) (c : Cursor) :
      Gives (loopWithin more body rounds a) c fun _ c' => more c'.kind = false := by
    induction rounds generalizing a c with
    | zero =>
      intro a' c' run
      cases run
    | succ rounds ih =>
      simp only [loopWithin, gives_bind, gives_peekKind]
      split
      next =>
        rw [gives_bind]
        exact (gives_anything _ c).mono fun a' c' _ => ih a' c'
      next stop => exact (gives_pure a).2 (by simpa using stop)
  simp only [loop, gives_bind, gives_get]
  exact within _ a c

theorem program_stops (depth : Nat) (c : Cursor) :
    Gives (program depth) c fun _ c' => c'.kind = .endOfFile := by
  simp only [program, statements, gives_bind, gives_peek, gives_skipSeparators, gives_pure]
  exact (loop_stops _ _ _ _).mono fun _ _ stop => by simpa using stop

theorem endOfFile_cases {c : Cursor} (atEnd : c.kind = .endOfFile) :
    c.rest = [] ∨ ∃ t rest, c.rest = t :: rest ∧ t.kind = .endOfFile := by
  cases ahead : c.rest with
  | nil => exact .inl rfl
  | cons t rest => exact .inr ⟨t, rest, rfl, by rwa [← Cursor.kind_of_rest_cons ahead]⟩

/-- The functions of the parser, over what parses the recursive parts, do not go back. -/
structure NeverBack (rec : Goal → Parser Node) : Prop where
  parts : ∀ goal, Forward (rec goal)
  argument : Forward (argument rec)
  arguments : Forward (arguments rec)
  memberRead : ∀ left, Forward (memberRead left)
  callOf : ∀ callee, Forward (callOf rec callee)
  binaryWith : ∀ left operator op, Forward (binaryWith rec left operator op)
  extend : ∀ left, Forward (extend rec left)
  instantiation : Forward (instantiation rec)
  atom : Forward (atom rec)
  operand : ∀ power, Forward (operand rec power)
  expression : Forward (expression rec)
  modifiers : ∀ inClass, Forward (modifiers inClass)
  params : Forward params
  statements : ∀ more, Forward (statements rec more)
  block : Forward (block rec)
  body : Forward (body rec)
  condition : Forward (condition rec)
  variableDeclaration : ∀ start mods, Forward (variableDeclaration rec start mods)
  functionDeclaration : ∀ start mods, Forward (functionDeclaration rec start mods)
  addMember : ∀ members, Forward (addMember rec members)
  classDeclaration : ∀ start mods, Forward (classDeclaration rec start mods)
  declaration : ∀ inClass, Forward (declaration rec inClass)
  branch : Forward (branch rec)
  whileLoop : Forward (whileLoop rec)
  doWhileLoop : Forward (doWhileLoop rec)
  forStart : Forward (forStart rec)
  forPart : ∀ closing, Forward (forPart rec closing)
  forLoop : Forward (forLoop rec)
  expressionStatement : Forward (expressionStatement rec)
  statement : Forward (statement rec)

theorem neverBack_parse (depth : Nat) : NeverBack (parse depth) := by
  have steady := steady_parse depth
  exact {
    parts := steady.forward
    argument := forward_argument steady
    arguments := (taking_arguments steady).forward
    memberRead := fun left => (taking_memberRead left).forward
    callOf := fun callee => (taking_callOf steady callee).forward
    binaryWith := fun left operator op => (taking_binaryWith steady left operator op).forward
    extend := fun left => (taking_extend steady left).forward
    instantiation := (taking_instantiation steady).forward
    atom := fun c => (atom_present steady c).mono fun _ _ present => present.1
    operand := fun power => forward_rule steady (.operand power)
    expression := forward_rule steady .expression
    modifiers := forward_modifiers
    params := forward_params
    statements := forward_statements steady
    block := forward_block steady
    body := forward_body steady
    condition := forward_condition steady
    variableDeclaration := fun start mods => (taking_variableDeclaration steady start mods).forward
    functionDeclaration := fun start mods => (taking_functionDeclaration steady start mods).forward
    addMember := fun members => (taking_addMember steady members).forward
    classDeclaration := fun start mods => (taking_classDeclaration steady start mods).forward
    declaration := fun inClass => (taking_declaration steady inClass).forward
    branch := (taking_branch steady).forward
    whileLoop := (taking_whileLoop steady).forward
    doWhileLoop := (taking_doWhileLoop steady).forward
    forStart := forward_forStart steady
    forPart := forward_forPart steady
    forLoop := (taking_forLoop steady).forward
    expressionStatement := (taking_expressionStatement steady).forward
    statement := forward_rule steady .statement }

/-- The calls that the loops of the parser repeat take a token each time, where the loops make them: a
    statement before the end of the block or of the program, a member inside the braces of a class, an operator
    that binds tighter than the power on its left, and a member read behind `new`. -/
structure TakesTokens (rec : Goal → Parser Node) : Prop where
  statement : Taking (rec .statement) (· ≠ .endOfFile)
  member : Taking (rec .member) (beginsMember · = true)
  addMember : ∀ members, Taking (addMember rec members) (insideBlock · = true)
  extend : ∀ power left, Taking (extend rec left) (power < ·.power)
  memberRead : ∀ left, Taking (memberRead left) (· = .dot)

theorem takesTokens_parse (depth : Nat) : TakesTokens (parse depth) := by
  have steady := steady_parse depth
  have statement : Taking (parse depth .statement) (· ≠ .endOfFile) :=
    fun c n c' run => ⟨steady.forward _ c n c' run, steady.advances .statement c n c' run⟩
  have member : Taking (parse depth .member) (beginsMember · = true) :=
    fun c n c' run => ⟨steady.forward _ c n c' run, steady.advances .member c n c' run⟩
  refine ⟨statement, member, taking_addMember steady, fun power left c => ?_, fun left c => ?_⟩
  · exact (taking_extend steady left).whenever fun _ binds => Nat.zero_lt_of_lt binds
  · refine (taking_memberRead left).whenever fun _ ahead => ?_
    simp [ahead]

/-- For every token list, whatever its kinds and wherever its end tokens: no function of the parser goes back,
    the repeated calls take a token each, every part of the grammar is parsed with a recursion of four steps for
    each token ahead, and the whole program is parsed up to an end token or the end of the list. -/
theorem parser_progress :
    (∀ depth, NeverBack (parse depth) ∧ TakesTokens (parse depth)) ∧
      (∀ depth goal c, 4 * c.rest.length + 3 ≤ depth → ∃ n c', parse depth goal c = some (n, c')) ∧
      ∀ tokens, ∃ tree c, run tokens = some (tree, c) ∧ c.rest <:+ tokens ∧
        (c.rest = [] ∨ ∃ t rest, c.rest = t :: rest ∧ t.kind = .endOfFile) := by
  refine ⟨fun depth => ⟨neverBack_parse depth, takesTokens_parse depth⟩, ?_, ?_⟩
  · intro depth goal c enough
    have bounded := goal.rank_le_three
    obtain ⟨n, c', answer, _⟩ := parse_ends depth goal c (by omega)
    exact ⟨n, c', answer⟩
  · intro tokens
    obtain ⟨tree, c, answer, _⟩ := run_ends tokens
    have moves := forward_program _ _ _ _ answer
    exact ⟨tree, c, answer, moves.rest, endOfFile_cases (program_stops _ _ _ _ answer)⟩

end ClassScript.Parser
