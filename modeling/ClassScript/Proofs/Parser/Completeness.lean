import ClassScript.Proofs.Parser.Onward
import ClassScript.Proofs.Parser.Soundness

/-! # Every reading is found

What can be read is what the parser finds: a reading of a phrase determines the answer of the function
that parses it (`found_of_reads`), and so a reading of a program is its parse (`ReadsProgram.run`).  The
recursion granted is again four steps for each token ahead, and `Phrase.weight` more.
-/

namespace ClassScript

namespace Parser

open Cursor (Onward)

/-! ## Answers -/

/-- An answer that is known. -/
theorem ends_of_run {α : Type} {p : Parser α} {c c' : Cursor} {a : α} (run : p c = some (a, c'))
    {Q : α → Cursor → Prop} : Ends p c Q ↔ Q a c' := by
  constructor
  · rintro ⟨a', c'', run', holds⟩
    cases run.symm.trans run'
    exact holds
  · exact fun holds => ⟨a, c', run, holds⟩

theorem run_iff {α : Type} {p : Parser α} {c c' : Cursor} {a : α} :
    p c = some (a, c') ↔ Ends p c fun a' c'' => a' = a ∧ c'' = c' :=
  ⟨fun run => ⟨a, c', run, rfl, rfl⟩, fun ⟨_, _, run, same, sameCursor⟩ => by rw [run, same, sameCursor]⟩

section Loop

variable {α : Type} {more : Kind → Bool} {body : α → Parser α} {a b : α} {c c₁ : Cursor}
  {r : α × Cursor}

theorem loop_stop (stop : more c.kind = false) : loop more body a c = some (a, c) := by
  rw [run_iff]
  simp only [loop, loopWithin, ends_bind, ends_get, ends_peekKind, stop, Bool.false_eq_true,
    ↓reduceIte, ends_pure, and_self]

theorem loopWithin_mono {rounds rounds' : Nat} (within : rounds ≤ rounds')
    (run : loopWithin more body rounds a c = some r) : loopWithin more body rounds' a c = some r := by
  obtain ⟨result, c'⟩ := r
  induction rounds generalizing a c rounds' with
  | zero => cases run
  | succ rounds ih =>
    obtain ⟨rounds', rfl⟩ : ∃ k, rounds' = k + 1 := ⟨rounds' - 1, by omega⟩
    rw [run_iff] at run ⊢
    simp only [loopWithin, ends_bind, ends_peekKind] at run ⊢
    split at run
    next asks =>
      simp only [asks, ↓reduceIte, ends_bind] at run ⊢
      refine run.mono fun b c₁ rest => ?_
      exact run_iff.1 (ih (by omega) (run_iff.2 rest))
    next stops =>
      simp only [stops, Bool.false_eq_true, ↓reduceIte] at run ⊢
      exact run

theorem loop_next (asks : more c.kind = true) (first : body a c = some (b, c₁))
    (shorter : c₁.rest.length < c.rest.length) (rest : loop more body b c₁ = some r) :
    loop more body a c = some r := by
  obtain ⟨result, c'⟩ := r
  simp only [run_iff, loop, ends_bind, ends_get] at rest ⊢
  simp only [loopWithin, ends_bind, ends_peekKind, asks, ↓reduceIte]
  rw [ends_of_run first, ← run_iff]
  exact loopWithin_mono shorter (run_iff.2 rest)

end Loop

/-! ## What a reading says of the parser -/

/-- How much recursion a phrase needs besides four steps for each token ahead. -/
def Phrase.weight : Phrase → Nat
  | .goal g => g.rank
  | .statements _ | .body | .members | .forStart | .forPart _ => 3
  | _ => 0

def Found (rec : Goal → Parser Node) (c c' : Cursor) : Phrase → Yield → Prop
  | .goal g, .node n => rec g c = some (n, c')
  | .atom, .node n => atom rec c = some (n, c')
  | .tail power left, .node n =>
    loop (fun kind => power < kind.power) (extend rec) left c = some (n, c')
  | .dotted left, .node n => loop (· = .dot) memberRead left c = some (n, c')
  | .arguments, .nodes args => arguments rec c = some (args, c')
  | .moreArguments, .nodes args => ∀ seen, loop (· = .comma) (fun args => do
      let _ ← advance
      skipNewlines
      return args ++ [← argument rec]) seen c = some (seen ++ args, c')
  | .statements more, .nodes ns => ∀ seen, loop more (fun nodes => do
      let node ← rec .statement
      skipSeparators
      return keep nodes node) seen c = some (seen ++ ns, c')
  | .block, .node n => block rec c = some (n, c')
  | .body, .node n => body rec c = some (n, c')
  | .condition, .node n => condition rec c = some (n, c')
  | .declaration start mods, .node n =>
    (if c.kind.isTypeWord then variableDeclaration rec start mods
    else if c.kind = .functionWord then functionDeclaration rec start mods
    else classDeclaration rec start mods) c = some (n, c')
  | .members, .nodes ns => ∀ seen,
    loop insideBlock (addMember rec) seen c = some (ns.foldl Members.add seen, c')
  | .forStart, .node n => forStart rec c = some (n, c')
  | .forPart closing, .node n => forPart rec closing c = some (n, c')
  | _, _ => False

section Cases

variable {c c₁ c₂ c₃ c' : Cursor} {rec : Goal → Parser Node} {n left : Node}

theorem moreNames_found {names : List String} (read : ReadsMoreNames c names c')
    (seen : List String) :
    loop (· = .comma) (fun names => do
      let _ ← advance
      skipNewlines
      let (name, found) ← expect .identifier
      return if found then names ++ [name.lexeme] else names) seen c = some (seen ++ names, c') := by
  induction read generalizing seen with
  | done stop => simpa using loop_stop (by simpa using stop)
  | @next c c' names comma found _ ih =>
    have taken : c.advance.rest.length < c.rest.length := Cursor.advance_lt (by simp [comma])
    have passed := c.advance.moves_pastNewlines.length_le
    have named := c.advance.pastNewlines.moves_advance.length_le
    refine loop_next (b := seen ++ [c.advance.pastNewlines.next.lexeme]) (by simp [comma])
      ?_ (Nat.lt_of_le_of_lt (Nat.le_trans named passed) taken) ?_
    · simp [run_iff, found]
    · simpa using ih (seen ++ [c.advance.pastNewlines.next.lexeme])

theorem params_found {names : List String} (read : ReadsParams c names c') :
    params c = some (names, c') := by
  cases read with
  | none opened closed => simp [run_iff, params, opened, closed]
  | some opened found more closed =>
    have rest := moreNames_found more [c.advance.pastNewlines.next.lexeme]
    simp [-bind_pure_comp, run_iff, params, opened, found, ends_of_run rest, closed]

/-! ## Operands -/

theorem isSign_iff {kind : Kind} : isSign kind = true ↔ kind = .plus ∨ kind = .minus := by
  simp [isSign]

theorem isStep_iff {kind : Kind} : isStep kind = true ↔ kind = .increment ∨ kind = .decrement := by
  simp [isStep]

theorem literal_found (ahead : literal? c.next = some n) : atom rec c = some (n, c.advance) := by
  simp only [run_iff, atom, ends_bind, ends_peek]
  unfold literal? at ahead
  split at ahead <;> simp_all [plainName]

theorem group_found (opened : c.kind = .leftParen)
    (inner : rec .expression c.advance.pastNewlines = some (n, c₁))
    (closed : c₁.pastNewlines.kind = .rightParen) :
    atom rec c = some (n, c₁.pastNewlines.advance) := by
  have ahead : c.next.kind = .leftParen := opened
  simp [run_iff, atom, ahead, ends_of_run inner, closed]

theorem sign_found (ahead : isSign c.kind = true)
    (inner : rec (.operand signPower) c.advance.pastNewlines = some (n, c')) :
    atom rec c = some (signed c.next n, c') := by
  rcases isSign_iff.1 ahead with (plus : c.next.kind = _) | (minus : c.next.kind = _)
  · rw [signed_of_ne_minus (by rw [plus]; decide)]
    simp [run_iff, atom, plus, ends_of_run inner]
  · simp only [run_iff, atom, ends_bind, ends_peek, minus, ends_advance, ends_skipNewlines,
      ends_of_run inner, signed]
    split <;> simp

theorem stepNothing_found (ahead : isStep c.kind = true)
    (inner : rec (.operand signPower) c.advance = some (.absent, c')) :
    atom rec c = some (.absent, c') := by
  rcases isStep_iff.1 ahead with (step : c.next.kind = _) | (step : c.next.kind = _) <;>
    simp [run_iff, atom, step, ends_of_run inner, Node.isAbsent]

theorem step_found (ahead : isStep c.kind = true) {span : Span} {target : Node}
    (inner : rec (.operand signPower) c.advance = some (.usage span target, c')) :
    atom rec c =
      some (.assignment (c.next.span.cover span) (assignOp c.next) target .absent, c') := by
  rcases isStep_iff.1 ahead with (step : c.next.kind = _) | (step : c.next.kind = _) <;>
    simp [run_iff, atom, step, ends_of_run inner, Node.isAbsent, assignTarget, Node.span]

theorem instantiation_found {blueprint : Node} {args : List Node} (ahead : c.kind = .newWord)
    (named : c.advance.kind = .identifier)
    (name : loop (· = .dot) memberRead (plainName c.advance.next) c.advance.advance =
      some (blueprint, c₁))
    (rest : arguments rec c₁ = some (args, c')) :
    atom rec c = some (.instantiation ⟨c.next.span.first, c'.lastEnd⟩ blueprint args, c') := by
  have ahead : c.next.kind = .newWord := ahead
  rw [plainName] at name
  simp [run_iff, atom, ahead, instantiation, named, ends_of_run name, ends_of_run rest]

theorem nothing_found (ahead : beginsOperand c.kind = false) : atom rec c = some (.absent, c) := by
  simp only [run_iff, atom, ends_bind, ends_peek]
  simp only [Cursor.kind] at ahead
  split <;> simp_all [beginsOperand]

/-! ## What follows an operand -/

theorem argument_found (inner : rec .expression c = some (n, c')) (present : n.isAbsent = false) :
    argument rec c = some (n, c') := by
  simp [run_iff, argument, ends_of_run inner, present]

theorem memberRead_found (ahead : c.advance.pastNewlines.kind = .identifier) :
    memberRead left c =
      some (memberOf left c.advance.pastNewlines.next, c.advance.pastNewlines.advance) := by
  simp [run_iff, memberRead, ahead, memberOf]

theorem extend_step_found (ahead : isStep c.kind = true) {span : Span} {target : Node} :
    extend rec (.usage span target) c =
      some (.assignment (span.cover c.next.span) (assignOp c.next) target .absent, c.advance) := by
  rcases isStep_iff.1 ahead with (step : c.next.kind = _) | (step : c.next.kind = _) <;>
    simp [run_iff, extend, step, assignTarget, Node.span]

theorem extend_call_found (ahead : c.kind = .leftParen) {args : List Node}
    (rest : arguments rec c = some (args, c₁)) :
    extend rec left c =
      some (.call ⟨left.span.first, c₁.lastEnd⟩ (calleeOf left) args, c₁) := by
  have ahead : c.next.kind = .leftParen := ahead
  rw [run_iff]
  cases left <;> simp [extend, ahead, callOf, ends_of_run rest, calleeOf]

theorem extend_member_found (ahead : c.kind = .dot)
    (named : c.advance.pastNewlines.kind = .identifier) :
    extend rec left c =
      some (memberOf left c.advance.pastNewlines.next, c.advance.pastNewlines.advance) := by
  have ahead : c.next.kind = .dot := ahead
  simp [run_iff, extend, ahead, ends_of_run (memberRead_found named)]

theorem extend_binary_found {op : BinaryOp} {right : Node} (ahead : c.kind.binaryOp? = some op)
    (inner : rec (.operand (if c.kind = .caret then c.kind.power - 1 else c.kind.power))
      c.advance.pastNewlines = some (right, c₁))
    (present : right.isAbsent = false) :
    extend rec left c = some (.binary (left.span.cover right.span) op left right, c₁) := by
  have inner : rec (.operand (if c.next.kind = .caret then c.next.kind.power - 1 else c.next.kind.power))
      c.advance.pastNewlines = some (right, c₁) := inner
  have ahead : c.next.kind.binaryOp? = some op := ahead
  simp only [run_iff, extend, ends_bind, ends_peek]
  split
  next kind => simp [kind, Kind.binaryOp?] at ahead
  next kind => simp [kind, Kind.binaryOp?] at ahead
  next kind => simp [kind, Kind.binaryOp?] at ahead
  next kind => simp [kind, Kind.binaryOp?] at ahead
  next => simp [ahead, binaryWith, ends_of_run inner, present]

end Cases

/-! ## Recursion and rounds -/

section Recursion

variable {c c₁ c' : Cursor} {n : Node} {goal : Goal} {depth w : Nat}

/-- Behind a token there is recursion for every phrase. -/
theorem room_behind (enough : 4 * c.rest.length + w ≤ depth) (ahead : c.kind ≠ .endOfFile)
    (onward : Onward c.advance c₁) (phrase : Phrase) :
    4 * c₁.rest.length + phrase.weight ≤ depth := by
  have taken := Cursor.advance_lt ahead
  have later := onward.length_le
  have bounded : phrase.weight ≤ 3 := by
    cases phrase <;> simp [Phrase.weight, Goal.rank_le_three]
  omega

/-- A step of the recursion. -/
theorem goal_found (enough : 4 * c.rest.length + goal.rank ≤ depth)
    (found : ∀ smaller, 4 * c.rest.length + (goal.rank - 1) ≤ smaller →
      rule (parse smaller) goal c = some (n, c')) :
    parse depth goal c = some (n, c') := by
  have positive := goal.one_le_rank
  cases depth with
  | zero => omega
  | succ smaller => exact found smaller (by omega)

theorem takes_token (ahead : c.kind ≠ .endOfFile) (onward : Onward c.advance c₁) :
    c₁.rest.length < c.rest.length :=
  Nat.lt_of_le_of_lt onward.length_le (Cursor.advance_lt ahead)

/-- A goal that is found takes the tokens that its run takes. -/
theorem advances_of_found (enough : 4 * c.rest.length + goal.rank ≤ depth)
    (found : parse depth goal c = some (n, c')) : goal.Advances c n c' :=
  ((ends_of_run found).1 (parse_ends depth goal c enough)).advances

theorem Reads.arguments_ahead {args : Yield} (read : Reads .arguments c args c') :
    Onward c.advance c' := by
  cases read with
  | argumentsNone => exact (Onward.refl _).advance.pastNewlines
  | argumentsSome _ _ head _ more _ =>
    exact (head.onward.trans more.onward).thenPastNewlines.thenAdvance.pastNewlines

theorem Reads.declaration_kind {start : Position} {modifiers : Modifiers}
    (read : Reads (.declaration start modifiers) c (.node n) c') :
    c.kind.isTypeWord = true ∨ c.kind = .functionWord ∨ c.kind = .classWord := by
  cases read with
  | variablePlain typed | variableInitial typed => exact .inl typed
  | function ahead => exact .inr (.inl ahead)
  | blueprint ahead => exact .inr (.inr ahead)

theorem isTypeWord_functionWord : Kind.functionWord.isTypeWord = false := by decide

theorem isTypeWord_classWord : Kind.classWord.isTypeWord = false := by decide

theorem declaration_found {rec : Goal → Parser Node} {inClass : Bool}
    (read : Reads (.declaration c.next.span.first (modifiersAhead c inClass)) c.pastModifiers
      (.node n) c')
    (found : Found rec c.pastModifiers c'
      (.declaration c.next.span.first (modifiersAhead c inClass)) (.node n)) :
    declaration rec inClass c = some (n, c') := by
  simp only [run_iff, declaration, ends_bind, ends_peek, ends_modifiers, Cursor.next_kind]
  rw [← run_iff]
  rcases read.declaration_kind with typed | isFunction | isClass
  · simpa [Found, typed] using found
  · simpa [Found, isFunction, isTypeWord_functionWord] using found
  · simpa [Found, isClass, isTypeWord_classWord] using found

theorem statement_declaration_found {rec : Goal → Parser Node} (begins : beginsMember c.kind = true)
    (read : Reads (.declaration c.next.span.first (modifiersAhead c false)) c.pastModifiers
      (.node n) c')
    (found : Found rec c.pastModifiers c'
      (.declaration c.next.span.first (modifiersAhead c false)) (.node n)) :
    statement rec c = some (n, c') := by
  have declared := declaration_found read found
  simp only [run_iff, statement, ends_bind, ends_peek, Cursor.next_kind]
  split
  -- Of the words that lead a statement, two lead a declaration, which then has no modifiers.
  next isFunction =>
    have plain : c.kind.isModifier = false := by rw [isFunction]; decide
    rw [modifiersAhead_of_none plain, Cursor.pastModifiers_eq_self plain] at found
    rw [← run_iff]
    simpa [Found, isFunction, isTypeWord_functionWord] using found
  next isClass =>
    have plain : c.kind.isModifier = false := by rw [isClass]; decide
    rw [modifiersAhead_of_none plain, Cursor.pastModifiers_eq_self plain] at found
    rw [← run_iff]
    simpa [Found, isClass, isTypeWord_classWord] using found
  next ahead => exact absurd begins (by rw [ahead]; decide)
  next ahead => exact absurd begins (by rw [ahead]; decide)
  next ahead => exact absurd begins (by rw [ahead]; decide)
  next ahead => exact absurd begins (by rw [ahead]; decide)
  next =>
    have declares : (c.kind.isModifier || c.kind.isTypeWord) = true := by
      simp_all [beginsMember]
    rw [if_pos declares]
    exact run_iff.1 declared

theorem statement_expression_found {rec : Goal → Parser Node} (plain : leadsStatement c.kind = false)
    (inner : rec .expression c = some (n, c')) (present : n.isAbsent = false) :
    statement rec c = some (n, c') := by
  simp only [run_iff, statement, ends_bind, ends_peek, Cursor.next_kind]
  split
  next ahead => simp [ahead, leadsStatement, beginsMember] at plain
  next ahead => simp [ahead, leadsStatement, beginsMember] at plain
  next ahead => simp [ahead, leadsStatement] at plain
  next ahead => simp [ahead, leadsStatement] at plain
  next ahead => simp [ahead, leadsStatement] at plain
  next ahead => simp [ahead, leadsStatement] at plain
  next =>
    simp only [leadsStatement, beginsMember, Bool.or_eq_false_iff] at plain
    simp [plain, expressionStatement, ends_of_run inner, present]

/-- Where no operand begins there is none. -/
theorem Reads.operand_nothing {power : Nat} (nothing : beginsOperand c.kind = false)
    (read : Reads (.goal (.operand power)) c (.node n) c') : n = .absent ∧ c' = c := by
  have atom_nothing {n : Node} {c' : Cursor} (read : Reads .atom c (.node n) c') :
      n = .absent ∧ c' = c := by
    cases read with
    | literal ahead =>
      have begins := beginsOperand_of_literal? ahead
      rw [Cursor.next_kind, nothing] at begins
      cases begins
    | nothing => exact ⟨rfl, rfl⟩
    | group opened _ _ => simp [opened, beginsOperand] at nothing
    | sign ahead _ => rcases isSign_iff.1 ahead with sign | sign <;> simp [sign, beginsOperand] at nothing
    | stepNothing ahead _ | step ahead _ =>
      rcases isStep_iff.1 ahead with step | step <;> simp [step, beginsOperand] at nothing
    | instantiation ahead _ _ _ => simp [ahead, beginsOperand] at nothing
  cases read with
  | operandNothing atom => exact atom_nothing atom
  | operand atom present _ =>
    rw [(atom_nothing atom).1] at present
    cases present

theorem Reads.expression_nothing (nothing : beginsOperand c.kind = false)
    (read : Reads (.goal .expression) c (.node n) c') : n = .absent ∧ c' = c := by
  cases read with
  | expressionNothing operand => exact operand.operand_nothing nothing
  | expressionPlain operand _ _ => exact operand.operand_nothing nothing
  | expressionAssign operand _ _ _ => cases (operand.operand_nothing nothing).1

/-- A statement begins with a word of its own or with an operand. -/
theorem Reads.statement_begins (read : Reads (.goal .statement) c (.node n) c') :
    leadsStatement c.kind = true ∨ beginsOperand c.kind = true := by
  cases read with
  | statementDeclaration begins _ => exact .inl (by simp [leadsStatement, begins])
  | statementExpression _ expression present =>
    cases begins : beginsOperand c.kind with
    | true => exact .inr rfl
    | false =>
      rw [(expression.expression_nothing begins).1] at present
      cases present
  | branchPlain ahead | branchElse ahead | branchElseIf ahead | whileLoop ahead | doWhileLoop ahead
    | forLoop ahead => exact .inl (by simp [leadsStatement, ahead])

theorem Reads.statement_ahead (read : Reads (.goal .statement) c (.node n) c') :
    c.kind ≠ .endOfFile := by
  intro atEnd
  have begins := read.statement_begins
  rw [atEnd] at begins
  exact absurd begins (by decide)

end Recursion

theorem found_of_reads {phrase : Phrase} {c c' : Cursor} {y : Yield} (read : Reads phrase c y c')
    (depth : Nat) (enough : 4 * c.rest.length + phrase.weight ≤ depth) :
    Found (parse depth) c c' phrase y := by
  -- A token taken makes up for four steps; phrases that begin at the same token weigh less from one to the
  -- next.
  induction read generalizing depth with
  | literal ahead => exact literal_found ahead
  | group opened _ closed inner =>
    have room := room_behind enough (by simp [opened]) (Onward.refl _).thenPastNewlines
    exact group_found opened (inner depth (room _)) closed
  | sign ahead _ inner =>
    have notEnd := kind_ne_endOfFile (by decide) ahead
    exact sign_found ahead
      (inner depth (room_behind enough notEnd (Onward.refl _).thenPastNewlines _))
  | stepNothing ahead _ inner =>
    have notEnd := kind_ne_endOfFile (by decide) ahead
    exact stepNothing_found ahead (inner depth (room_behind enough notEnd (.refl _) _))
  | step ahead _ inner =>
    have notEnd := kind_ne_endOfFile (by decide) ahead
    exact step_found ahead (inner depth (room_behind enough notEnd (.refl _) _))
  | instantiation ahead named name args foundName foundArgs =>
    have roomName := room_behind enough (by simp [ahead]) (Onward.refl _).thenAdvance
    have roomArgs := room_behind enough (by simp [ahead]) name.onward.advance
    exact instantiation_found ahead named (foundName depth (roomName _)) (foundArgs depth (roomArgs _))
  | nothing ahead => exact nothing_found ahead
  | operandNothing _ foundAtom =>
    refine goal_found enough fun smaller room => ?_
    simp [run_iff, rule, operand, ends_of_run (foundAtom smaller room), Node.isAbsent]
  | @operand c c₁ c' power left n readAtom present _ foundAtom foundTail =>
    refine goal_found enough fun smaller room => ?_
    have later := readAtom.onward.length_le
    have tail := foundTail smaller (by simp only [Phrase.weight, Goal.rank] at *; omega)
    simp [run_iff, rule, operand, ends_of_run (foundAtom smaller room), present, ends_of_run tail]
  | tailDone stop => exact loop_stop (by simpa using stop)
  | @tailStep c c' power span target n binds ahead _ foundTail =>
    have notEnd := kind_ne_endOfFile (by decide) ahead
    exact loop_next (by simpa using binds) (extend_step_found ahead) (takes_token notEnd (.refl _))
      (foundTail depth (room_behind enough notEnd (.refl _) _))
  | @tailCall c c₁ c' power left n args binds opened readArgs _ foundArgs foundTail =>
    have notEnd : c.kind ≠ .endOfFile := by simp [opened]
    have behind := readArgs.arguments_ahead
    exact loop_next (by simpa using binds) (extend_call_found opened (foundArgs depth enough))
      (takes_token notEnd behind) (foundTail depth (room_behind enough notEnd behind _))
  | @tailMember c c' power left n binds ahead named _ foundTail =>
    have notEnd : c.kind ≠ .endOfFile := by simp [ahead]
    have behind := (Onward.refl c.advance).thenPastNewlines.thenAdvance
    exact loop_next (by simpa using binds) (extend_member_found ahead named)
      (takes_token notEnd behind) (foundTail depth (room_behind enough notEnd behind _))
  | @tailBinary c c₁ c' power op left right n binds ahead readRight present _ foundRight foundTail =>
    have notEnd : c.kind ≠ .endOfFile := by
      intro atEnd
      simp [atEnd, Kind.binaryOp?] at ahead
    have behind := readRight.onward.pastNewlines
    have right := foundRight depth (room_behind enough notEnd (Onward.refl _).thenPastNewlines _)
    exact loop_next (by simpa using binds) (extend_binary_found ahead right present)
      (takes_token notEnd behind) (foundTail depth (room_behind enough notEnd behind _))
  | dottedDone stop => exact loop_stop (by simpa using stop)
  | @dottedNext c c' left n ahead named _ foundRest =>
    have notEnd : c.kind ≠ .endOfFile := by simp [ahead]
    have behind := (Onward.refl c.advance).thenPastNewlines.thenAdvance
    exact loop_next (by simpa using ahead) (memberRead_found named)
      (takes_token notEnd behind) (foundRest depth (room_behind enough notEnd behind _))
  | argumentsNone opened closed => simp [Found, run_iff, arguments, opened, closed]
  | @argumentsSome c c₁ c₂ n args opened notClosed readHead present _ closed foundHead foundMore =>
    have notEnd : c.kind ≠ .endOfFile := by simp [opened]
    have head := foundHead depth (room_behind enough notEnd (Onward.refl _).thenPastNewlines _)
    have more := foundMore depth (room_behind enough notEnd readHead.onward.pastNewlines _) [n]
    simp [-bind_pure_comp, Found, run_iff, arguments, opened, notClosed,
      ends_of_run (argument_found head present), ends_of_run more, closed]
  | argumentsDone stop =>
    intro seen
    simpa using loop_stop (by simpa using stop)
  | @argumentsNext c c₁ c' n args comma readHead present _ foundHead foundMore =>
    intro seen
    have notEnd : c.kind ≠ .endOfFile := by simp [comma]
    have behind := readHead.onward.pastNewlines
    have head := foundHead depth (room_behind enough notEnd (Onward.refl _).thenPastNewlines _)
    refine loop_next (b := seen ++ [n]) (by simpa using comma) ?_ (takes_token notEnd behind) ?_
    · simp [run_iff, ends_of_run (argument_found head present)]
    · simpa using foundMore depth (room_behind enough notEnd behind _) (seen ++ [n])
  | expressionNothing _ foundOperand =>
    refine goal_found enough fun smaller room => ?_
    simp [run_iff, rule, expression, ends_of_run (foundOperand smaller room), Node.isAbsent]
  | expressionPlain _ present stop foundOperand =>
    refine goal_found enough fun smaller room => ?_
    simp [run_iff, rule, expression, ends_of_run (foundOperand smaller room), present, stop]
  | @expressionAssign c c₁ c' span target value readTarget assigns _ present foundTarget foundValue =>
    refine goal_found enough fun smaller room => ?_
    have advances : Goal.Advances (.operand 0) c _ c₁ :=
      advances_of_found room (foundTarget smaller room)
    have shorter : c₁.rest.length < c.rest.length := advances rfl
    have taken := c₁.moves_advance.length_le
    have passed := c₁.advance.moves_pastNewlines.length_le
    have value := foundValue smaller (by simp only [Phrase.weight, Goal.rank] at *; omega)
    have isUsage : (Node.usage span target).isAbsent = false := rfl
    have itsSpan : (Node.usage span target).span = span := rfl
    simp [run_iff, rule, expression, ends_of_run (foundTarget smaller room), isUsage, assigns,
      ends_of_run value, present, assignTarget, itsSpan]
  | statementsDone stop =>
    intro seen
    simpa using loop_stop stop
  | @statementsNext c c₁ c' more n ns asks readHead present _ foundHead foundMore =>
    intro seen
    have head := foundHead depth enough
    -- That a statement takes a token is known of the run of the parser, and here the run has been found.
    have shorter : c₁.rest.length < c.rest.length := advances_of_found enough head readHead.statement_ahead
    have passed := c₁.moves_pastSeparators.length_le
    refine loop_next (b := seen ++ [n]) asks ?_ (Nat.lt_of_le_of_lt passed shorter) ?_
    · simp [run_iff, ends_of_run head, keep, present]
    · simpa using foundMore depth (by simp only [Phrase.weight] at *; omega) (seen ++ [n])
  | @block c c₁ ns opened _ closed foundInner =>
    have notEnd : c.kind ≠ .endOfFile := by simp [opened]
    have inner :=
      foundInner depth (room_behind enough notEnd (Onward.refl _).thenPastSeparators _) []
    simp [-bind_pure_comp, Found, run_iff, block, opened, statements, ends_of_run inner, closed]
  | @bodyBlock c c' n opened _ foundBlock =>
    have passed := c.moves_pastNewlines.length_le
    have inner := foundBlock depth (by simp only [Phrase.weight] at *; omega)
    simp [Found, run_iff, body, opened, ends_of_run inner]
  | @bodySingle c c' n notOpened _ present foundInner =>
    have passed := c.moves_pastNewlines.length_le
    have inner := foundInner depth (by simp only [Phrase.weight, Goal.rank] at *; omega)
    simp [Found, run_iff, body, notOpened, ends_of_run inner, keep, present]
  | @condition c c₁ n opened _ present closed foundTest =>
    have notEnd : c.kind ≠ .endOfFile := by simp [opened]
    have test := foundTest depth (room_behind enough notEnd (Onward.refl _).thenPastNewlines _)
    simp [Found, run_iff, condition, opened, ends_of_run test, present, closed]
  | variablePlain typed named notAssigned =>
    simp [Found, run_iff, typed, variableDeclaration, named, notAssigned, Cursor.next_kind]
  | @variableInitial c c' start modifiers value typed named assigned _ present foundValue =>
    have notEnd := kind_ne_endOfFile (by decide) typed
    have behind := (Onward.refl c.advance).thenAdvance.thenAdvance.thenPastNewlines
    have value := foundValue depth (room_behind enough notEnd behind _)
    simp [Found, run_iff, typed, variableDeclaration, named, assigned, ends_of_run value, present,
      Cursor.next_kind]
  | @function c c₁ c' start modifiers names n ahead named readNames _ foundBody =>
    have notEnd : c.kind ≠ .endOfFile := by simp [ahead]
    have behind := readNames.onward.thenPastNewlines.advance
    have body := foundBody depth (room_behind enough notEnd behind _)
    simp [Found, run_iff, isTypeWord_functionWord, ahead, functionDeclaration, named,
      ends_of_run (params_found readNames), ends_of_run body]
  | @blueprint c c₁ start modifiers ns ahead named opened _ closed foundMembers =>
    have notEnd : c.kind ≠ .endOfFile := by simp [ahead]
    have behind :=
      (Onward.refl c.advance).thenAdvance.thenPastNewlines.thenAdvance.thenPastSeparators
    have members := foundMembers depth (room_behind enough notEnd behind _) {}
    simp [Found, run_iff, isTypeWord_classWord, ahead, classDeclaration, named, opened,
      ends_of_run members, closed, sortMembers]
  | membersDone stop => exact fun seen => loop_stop stop
  | @membersNext c c₁ c' n ns inside begins _ _ foundHead foundMore =>
    intro seen
    have head := foundHead depth enough
    have shorter : c₁.rest.length < c.rest.length := advances_of_found enough head begins
    have passed := c₁.moves_pastSeparators.length_le
    refine loop_next inside ?_ (Nat.lt_of_le_of_lt passed shorter)
      (foundMore depth (by simp only [Phrase.weight] at *; omega) (seen.add n))
    simp [run_iff, addMember, Cursor.next_kind, begins, ends_of_run head]
  | @member c c' n readDeclaration foundDeclaration =>
    refine goal_found enough fun smaller room => ?_
    have passed := c.moves_pastModifiers.length_le
    exact declaration_found readDeclaration
      (foundDeclaration smaller (by simp only [Phrase.weight] at *; omega))
  | @statementDeclaration c c' n begins readDeclaration foundDeclaration =>
    refine goal_found enough fun smaller room => ?_
    have passed := c.moves_pastModifiers.length_le
    exact statement_declaration_found begins readDeclaration
      (foundDeclaration smaller (by simp only [Phrase.weight] at *; omega))
  | statementExpression plain _ present foundExpression =>
    refine goal_found enough fun smaller room => ?_
    exact statement_expression_found plain (foundExpression smaller room) present
  | @branchPlain c c₁ c' test yes ahead readTest _ plain foundTest foundYes =>
    refine goal_found enough fun smaller room => ?_
    have notEnd : c.kind ≠ .endOfFile := by simp [ahead]
    have test := foundTest smaller (room_behind room notEnd (.refl _) _)
    have yes := foundYes smaller (room_behind room notEnd readTest.onward _)
    simp [run_iff, rule, statement, Cursor.next_kind, ahead, branch, ends_of_run test,
      ends_of_run yes, plain]
  | @branchElse c c₁ c₂ c' test yes no ahead readTest readYes otherwise plain readNo foundTest foundYes
      foundNo =>
    refine goal_found enough fun smaller room => ?_
    have notEnd : c.kind ≠ .endOfFile := by simp [ahead]
    have test := foundTest smaller (room_behind room notEnd (.refl _) _)
    have yes := foundYes smaller (room_behind room notEnd readTest.onward _)
    have behind := (readTest.onward.trans readYes.onward).thenPastNewlines.thenAdvance.thenPastNewlines
    have no := foundNo smaller (room_behind room notEnd behind _)
    simp [run_iff, rule, statement, Cursor.next_kind, ahead, branch, ends_of_run test,
      ends_of_run yes, otherwise, plain, ends_of_run no]
  | @branchElseIf c c₁ c₂ c' test yes inner ahead readTest readYes otherwise again _ foundTest foundYes
      foundInner =>
    refine goal_found enough fun smaller room => ?_
    have notEnd : c.kind ≠ .endOfFile := by simp [ahead]
    have test := foundTest smaller (room_behind room notEnd (.refl _) _)
    have yes := foundYes smaller (room_behind room notEnd readTest.onward _)
    have behind := (readTest.onward.trans readYes.onward).thenPastNewlines.thenAdvance.thenPastNewlines
    have inner := foundInner smaller (room_behind room notEnd behind _)
    simp [run_iff, rule, statement, Cursor.next_kind, ahead, branch, ends_of_run test,
      ends_of_run yes, otherwise, again, ends_of_run inner]
  | @whileLoop c c₁ c' test inner ahead readTest _ foundTest foundInner =>
    refine goal_found enough fun smaller room => ?_
    have notEnd : c.kind ≠ .endOfFile := by simp [ahead]
    have test := foundTest smaller (room_behind room notEnd (.refl _) _)
    have inner := foundInner smaller (room_behind room notEnd readTest.onward _)
    simp [run_iff, rule, statement, Cursor.next_kind, ahead, whileLoop, ends_of_run test,
      ends_of_run inner]
  | @doWhileLoop c c₁ c' test inner ahead readInner found _ foundInner foundTest =>
    refine goal_found enough fun smaller room => ?_
    have notEnd : c.kind ≠ .endOfFile := by simp [ahead]
    have inner := foundInner smaller (room_behind room notEnd (.refl _) _)
    have behind := readInner.onward.thenPastNewlines.thenAdvance
    have test := foundTest smaller (room_behind room notEnd behind _)
    simp [run_iff, rule, statement, Cursor.next_kind, ahead, doWhileLoop, ends_of_run inner, found,
      ends_of_run test]
  | @forLoop c c₁ c₂ c₃ c' first test round inner ahead opened readFirst closed readTest closedTest
      readRound closedRound _ foundFirst foundTest foundRound foundInner =>
    refine goal_found enough fun smaller room => ?_
    have notEnd : c.kind ≠ .endOfFile := by simp [ahead]
    have header := (Onward.refl c.advance).thenAdvance.thenPastNewlines
    have first := foundFirst smaller (room_behind room notEnd header _)
    have header := (header.trans readFirst.onward).thenAdvance.thenPastNewlines
    have test := foundTest smaller (room_behind room notEnd header _)
    have header := (header.trans readTest.onward).thenAdvance.thenPastNewlines
    have round := foundRound smaller (room_behind room notEnd header _)
    have header := (header.trans readRound.onward).thenPastNewlines.thenAdvance
    have inner := foundInner smaller (room_behind room notEnd header _)
    simp [run_iff, rule, statement, Cursor.next_kind, ahead, forLoop, opened, ends_of_run first,
      closed, ends_of_run test, closedTest, ends_of_run round, closedRound, ends_of_run inner]
  | forStartNone ahead => simp [Found, run_iff, forStart, Cursor.next_kind, ahead]
  | @forStartVariable c c' n typed _ foundDeclaration =>
    have declared := foundDeclaration depth (by simp only [Phrase.weight] at *; omega)
    have notEmpty : c.kind ≠ .semicolon := by
      intro empty
      simp [empty, Kind.isTypeWord, Kind.declaredType?] at typed
    simp only [Found, typed, ↓reduceIte] at declared
    simp [Found, run_iff, forStart, Cursor.next_kind, notEmpty, typed, ends_of_run declared]
  | forStartExpression notEmpty notTyped _ foundExpression =>
    have expression := foundExpression depth (by simp only [Phrase.weight, Goal.rank] at *; omega)
    simp [Found, run_iff, forStart, Cursor.next_kind, notEmpty, notTyped, ends_of_run expression]
  | forPartNone ahead => simp [Found, run_iff, forPart, ahead]
  | forPartSome notClosed _ foundExpression =>
    have expression := foundExpression depth (by simp only [Phrase.weight, Goal.rank] at *; omega)
    simp [Found, run_iff, forPart, notClosed, ends_of_run expression]

theorem Reads.statement_lt {c c' : Cursor} {n : Node} (read : Reads (.goal .statement) c (.node n) c') :
    c'.rest.length < c.rest.length :=
  advances_of_found (Nat.le_refl _) (found_of_reads read _ (Nat.le_refl _)) read.statement_ahead

/-- What can be read as a program is its parse. -/
theorem ReadsProgram.run {tokens : List Token} {tree : Node} {c' : Cursor}
    (read : ReadsProgram tokens tree c') :
    Parser.run tokens = some (tree, c') ∧ c'.diagnostics = [] := by
  obtain ⟨ns, read, rfl⟩ := read
  have passed := (Cursor.mk tokens none []).moves_pastSeparators.length_le
  have found := found_of_reads read (depthFor tokens) (by
    simp only [Phrase.weight, depthFor] at *
    omega) []
  refine ⟨?_, read.onward.diagnostics⟩
  simp only [Parser.run, run_iff, program, statements, ends_bind, ends_peek, ends_skipSeparators,
    ends_of_run found, ends_pure, List.nil_append, and_self]

end Parser

/-- A token list is parsed without diagnostics exactly if it can be read as a program. -/
theorem parseTokens_eq_iff {tokens : List Token} {tree : Node} :
    parseTokens tokens = (tree, []) ↔ ∃ c', Parser.ReadsProgram tokens tree c' := by
  constructor
  · intro parsed
    obtain ⟨tree', c', run, ran⟩ := Parser.run_ends tokens
    simp only [parseTokens, run, Prod.mk.injEq] at parsed
    obtain ⟨rfl, clean⟩ := parsed
    exact ⟨c', ran.clean clean⟩
  · rintro ⟨c', read⟩
    obtain ⟨run, clean⟩ := read.run
    simp [parseTokens, run, clean]

end ClassScript
