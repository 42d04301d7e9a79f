import ClassScript.Proofs.Parser.Graft
import Mathlib.Logic.Basic

/-! # Line ends where something has to follow

Behind an operator, an opening bracket, a comma, a point, a semicolon, `else` or `do` the grammar asks for
more, and line ends there change nothing but spans.  `Wraps tokens wrapped` says that the second list is the
first one with line ends put in behind such tokens.  Two cursors whose tokens are so related see the same
token ahead; they stay related when they take it, except that behind a token that asks for more one of them
has line ends ahead that the other has not (`Cursor.NearlyWraps`).  Every rule of the grammar that takes such
a token passes over line ends before it looks at anything, with the body of a `do` as the only rule that
leaves this to the phrase behind it.  So a reading of the first list is followed rule by rule on the second
one (`Reads.wrap`).
-/

namespace ClassScript

/-- The kinds of token behind which line ends do not count: binary and assigning operators, what opens or
    separates parts, `else` and `do`. -/
def Kind.asksForMore : Kind → Bool
  | .plus | .minus | .star | .slash | .caret
  | .equals | .less | .lessEquals | .greater | .greaterEquals | .andAnd | .orOr
  | .assign | .plusAssign | .minusAssign | .starAssign | .slashAssign | .caretAssign
  | .comma | .leftParen | .dot | .leftBrace | .semicolon | .elseWord | .doWord => true
  | _ => false

theorem Kind.asksForMore_of_isModifier (kind : Kind) (isModifier : kind.isModifier = true) :
    kind.asksForMore = false := by
  cases kind <;> first | rfl | cases isModifier

theorem Kind.asksForMore_of_isTypeWord {kind : Kind} (typed : kind.isTypeWord = true) :
    kind.asksForMore = false := by
  cases kind <;> first | rfl | cases typed

theorem Parser.asksForMore_of_isStep {kind : Kind} (steps : isStep kind = true) :
    kind.asksForMore = false := by
  cases kind <;> first | rfl | cases steps

theorem Parser.asksForMore_of_literal {t : Token} {n : Node} (isLiteral : literal? t = some n) :
    t.kind.asksForMore = false := by
  cases isLiteral_of_literal? isLiteral <;> simp [*, Kind.asksForMore]

/-- The second list is the first one with line ends put in behind tokens that ask for more. -/
inductive Wraps : List Token → List Token → Prop
  | nil : Wraps [] []
  | keep {t : Token} {tokens wrapped : List Token} :
      Wraps tokens wrapped → Wraps (t :: tokens) (t :: wrapped)
  | insert {t : Token} {lines tokens wrapped : List Token} :
      t.kind.asksForMore = true →
      (∀ line ∈ lines, line.kind = .newline) →
      Wraps tokens wrapped → Wraps (t :: tokens) (t :: (lines ++ wrapped))

namespace Wraps

variable {tokens wrapped : List Token} {skipped : Kind → Bool}

theorem head? (wraps : Wraps tokens wrapped) : wrapped.head? = tokens.head? := by
  cases wraps <;> rfl

/-- Where line ends are passed over, so are those that were put in. -/
theorem dropWhile (wraps : Wraps tokens wrapped) (overLines : skipped .newline = true) :
    Wraps (tokens.dropWhile fun t => skipped t.kind) (wrapped.dropWhile fun t => skipped t.kind) := by
  induction wraps with
  | nil => exact .nil
  | @keep t _ _ rest ih =>
    cases isSkipped : skipped t.kind with
    | true => simpa [isSkipped] using ih
    | false => simpa [isSkipped] using rest.keep
  | @insert t lines _ _ asks allLines rest ih =>
    have passed : ∀ line ∈ lines, skipped line.kind = true := by
      intro line member
      rw [allLines line member, overLines]
    cases isSkipped : skipped t.kind with
    | true => simpa [isSkipped, List.dropWhile_append_of_pos passed] using ih
    | false => simpa [isSkipped] using rest.insert asks allLines

/-- Among tokens that do not ask for more nothing is put in. -/
theorem split (wraps : Wraps tokens wrapped)
    (closed : ∀ kind, skipped kind = true → Kind.asksForMore kind = false) :
    (wrapped.takeWhile fun t => skipped t.kind) = (tokens.takeWhile fun t => skipped t.kind) ∧
      Wraps (tokens.dropWhile fun t => skipped t.kind) (wrapped.dropWhile fun t => skipped t.kind) := by
  induction wraps with
  | nil => exact ⟨rfl, .nil⟩
  | @keep t _ _ rest ih =>
    cases isSkipped : skipped t.kind with
    | true => simpa [isSkipped] using ih
    | false => simpa [isSkipped] using rest.keep
  | @insert t _ _ _ asks allLines rest =>
    have isSkipped : skipped t.kind = false := by
      refine Bool.eq_false_iff.2 fun skips => ?_
      rw [closed _ skips] at asks
      cases asks
    simpa [isSkipped] using rest.insert asks allLines

end Wraps

namespace Cursor

/-- The tokens ahead of the second cursor are those ahead of the first one, wrapped. -/
def Wraps (c d : Cursor) : Prop := ClassScript.Wraps c.rest d.rest

/-- Line ends stand ahead of the second cursor, and behind them the tokens ahead of the first one,
    wrapped. -/
def NearlyWraps (c d : Cursor) : Prop :=
  ∃ lines wrapped, d.rest = lines ++ wrapped ∧ (∀ line ∈ lines, line.kind = .newline) ∧
    ClassScript.Wraps c.rest wrapped

variable {c d : Cursor}

theorem Wraps.nearly (wraps : c.Wraps d) : c.NearlyWraps d :=
  ⟨[], d.rest, rfl, List.forall_mem_nil _, wraps⟩

theorem Wraps.next (wraps : c.Wraps d) : d.next = c.next := by
  rw [Cursor.next, Cursor.next, ClassScript.Wraps.head? wraps]

theorem Wraps.kind (wraps : c.Wraps d) : d.kind = c.kind := congrArg Token.kind wraps.next

theorem Wraps.advanceNearly (wraps : c.Wraps d) : c.advance.NearlyWraps d.advance := by
  obtain ⟨rest, last, diagnostics⟩ := c
  obtain ⟨rest', last', diagnostics'⟩ := d
  cases wraps with
  | nil => exact Wraps.nearly .nil
  | keep rest => exact Wraps.nearly rest
  | insert _ allLines rest => exact ⟨_, _, rfl, allLines, rest⟩

theorem Wraps.advance (wraps : c.Wraps d) (closed : c.kind.asksForMore = false) :
    c.advance.Wraps d.advance := by
  obtain ⟨rest, last, diagnostics⟩ := c
  obtain ⟨rest', last', diagnostics'⟩ := d
  cases wraps with
  | nil => exact .nil
  | keep rest => exact rest
  | insert asks => exact absurd (asks.symm.trans closed) (by decide)

theorem NearlyWraps.skipWhile (nearly : c.NearlyWraps d) {skipped : Kind → Bool}
    (overLines : skipped .newline = true) : (c.skipWhile skipped).Wraps (d.skipWhile skipped) := by
  obtain ⟨lines, wrapped, ahead, allLines, wraps⟩ := nearly
  have passed : ∀ line ∈ lines, skipped line.kind = true := by
    intro line member
    rw [allLines line member, overLines]
  simp only [Cursor.Wraps, Cursor.skipWhile, ahead, List.dropWhile_append_of_pos passed]
  exact wraps.dropWhile overLines

theorem NearlyWraps.pastNewlines (nearly : c.NearlyWraps d) : c.pastNewlines.Wraps d.pastNewlines :=
  nearly.skipWhile (by decide)

theorem NearlyWraps.pastSeparators (nearly : c.NearlyWraps d) :
    c.pastSeparators.Wraps d.pastSeparators :=
  nearly.skipWhile (by decide)

theorem Wraps.pastNewlines (wraps : c.Wraps d) : c.pastNewlines.Wraps d.pastNewlines :=
  wraps.nearly.pastNewlines

theorem Wraps.pastSeparators (wraps : c.Wraps d) : c.pastSeparators.Wraps d.pastSeparators :=
  wraps.nearly.pastSeparators

theorem Wraps.pastModifiers (wraps : c.Wraps d) : c.pastModifiers.Wraps d.pastModifiers :=
  (ClassScript.Wraps.split wraps Kind.asksForMore_of_isModifier).2

theorem Wraps.modifiersAhead (wraps : c.Wraps d) (inClass : Bool) :
    Parser.modifiersAhead d inClass = Parser.modifiersAhead c inClass := by
  rw [Parser.modifiersAhead, Parser.modifiersAhead,
    (ClassScript.Wraps.split wraps Kind.asksForMore_of_isModifier).1]

/-- Past a token that asks for more and the line ends behind it. -/
theorem Wraps.behind (wraps : c.Wraps d) : c.advance.pastNewlines.Wraps d.advance.pastNewlines :=
  wraps.advanceNearly.pastNewlines

end Cursor

namespace Parser

variable {c c' d : Cursor}

/-! ## Trees that are equal but for spans -/

section Erasure

variable {n n' left left' target : Node} {ns ns' : List Node}

theorem isAbsent_of_erase (same : n'.erase = n.erase) : n'.isAbsent = n.isAbsent := by
  rw [← n'.isAbsent_erase, same, n.isAbsent_erase]

theorem eq_absent_of_erase (same : n'.erase = Node.absent.erase) : n' = .absent :=
  Node.isAbsent_iff.1 (isAbsent_of_erase same)

theorem eq_usage_of_erase {span : Span} (same : n'.erase = (Node.usage span target).erase) :
    ∃ span' target', n' = .usage span' target' ∧ target'.erase = target.erase := by
  cases n' with
  | usage span' target' => exact ⟨span', target', rfl, (Node.usage.inj same).2⟩
  | _ => cases same

theorem erase_branch (span : Span) (test yes no : Node) :
    (Node.branch span test yes no).erase = .branch .none test.erase yes.erase no.erase := rfl

theorem erase_forLoop (span : Span) (first test round inner : Node) :
    (Node.forLoop span first test round inner).erase =
      .forLoop .none first.erase test.erase round.erase inner.erase := rfl

theorem erase_calleeOf (left : Node) : (calleeOf left).erase = calleeOf left.erase := by
  cases left <;> rfl

theorem erase_signed (t : Token) (operand : Node) :
    (signed t operand).erase = signed { t with span := .none } operand.erase := by
  cases operand <;>
    simp [signed, Node.erase, Node.mapSpans, Node.isAbsent, negate, Node.span] <;>
    split <;> simp [Node.mapSpans, Span.cover, Span.none]

theorem erase_memberOf (same : left'.erase = left.erase) (t : Token) :
    (memberOf left' t).erase = (memberOf left t).erase :=
  congrArg (fun parent => Node.usage .none (.identifier .none parent t.lexeme)) same

theorem erase_sortMembers (same : ns'.map Node.erase = ns.map Node.erase) :
    (sortMembers ns').map Node.erase = (sortMembers ns).map Node.erase := by
  have each (ns : List Node) : (sortMembers ns).map Node.erase = sortMembers (ns.map Node.erase) :=
    (sortMembers_mapSpans _ ns).symm
  rw [each, each, same]

end Erasure

/-! ## Readings of wrapped tokens -/

theorem ReadsMoreNames.wrap {names : List String} (read : ReadsMoreNames c names c') (wraps : c.Wraps d) :
    ∃ d', ReadsMoreNames d names d' ∧ c'.Wraps d' := by
  induction read generalizing d with
  | done stop => exact ⟨d, .done (by rwa [wraps.kind]), wraps⟩
  | @next c c' names comma named _ ih =>
    have behind := wraps.behind
    obtain ⟨d', readRest, wrapsRest⟩ := ih (behind.advance (by rw [named]; rfl))
    have read := ReadsMoreNames.next (by rwa [wraps.kind]) (by rwa [behind.kind]) readRest
    rw [behind.next] at read
    exact ⟨d', read, wrapsRest⟩

theorem ReadsParams.wrap {names : List String} (read : ReadsParams c names c') (wraps : c.Wraps d) :
    ∃ d', ReadsParams d names d' ∧ c'.Wraps d' := by
  have inside := wraps.behind
  cases read with
  | none opened closed =>
    exact ⟨_, .none (by rwa [wraps.kind]) (by rwa [inside.kind]), inside.advance (by rw [closed]; rfl)⟩
  | some opened named more closed =>
    obtain ⟨d₁, readMore, wrapsMore⟩ := more.wrap (inside.advance (by rw [named]; rfl))
    have behind := wrapsMore.pastNewlines
    have read := ReadsParams.some (by rwa [wraps.kind]) (by rwa [inside.kind]) readMore
      (by rwa [behind.kind])
    rw [inside.next] at read
    exact ⟨_, read, behind.advance (by rw [closed]; rfl)⟩

/-- The phrase is read at the cursor, with the same yield but for spans, and what is left ahead is what the
    other cursor has ahead, wrapped. -/
def Again (phrase : Phrase) (d : Cursor) : Yield → Cursor → Prop
  | .node n, c' => ∃ n' d', Reads phrase d (.node n') d' ∧ n'.erase = n.erase ∧ c'.Wraps d'
  | .nodes ns, c' => ∃ ns' d', Reads phrase d (.nodes ns') d' ∧
      ns'.map Node.erase = ns.map Node.erase ∧ c'.Wraps d'

/-- However the tokens ahead of the cursor are wrapped, the phrase is read again.  A body may have line
    ends ahead already, and what a phrase goes on with may have other spans. -/
def Wrappable : Phrase → Cursor → Yield → Cursor → Prop
  | .tail power left, c, y, c' =>
    ∀ {left' d}, left'.erase = left.erase → c.Wraps d → Again (.tail power left') d y c'
  | .dotted left, c, y, c' =>
    ∀ {left' d}, left'.erase = left.erase → c.Wraps d → Again (.dotted left') d y c'
  | .declaration _ modifiers, c, y, c' =>
    ∀ {d} start, c.Wraps d → Again (.declaration start modifiers) d y c'
  | .body, c, y, c' => ∀ {d}, c.NearlyWraps d → Again .body d y c'
  | phrase, c, y, c' => ∀ {d}, c.Wraps d → Again phrase d y c'

theorem Reads.wrap {phrase : Phrase} {y : Yield} (read : Reads phrase c y c') :
    Wrappable phrase c y c' := by
  induction read with
  | @literal c n ahead =>
    intro d wraps
    exact ⟨n, d.advance, .literal (by rwa [wraps.next]), rfl,
      wraps.advance (asksForMore_of_literal ahead)⟩
  | group opened _ closed inner =>
    intro d wraps
    obtain ⟨n', d₁, readInner, same, wrapsInner⟩ := inner wraps.behind
    have behind := wrapsInner.pastNewlines
    exact ⟨n', _, .group (by rwa [wraps.kind]) readInner (by rwa [behind.kind]), same,
      behind.advance (by rw [closed]; rfl)⟩
  | sign ahead _ inner =>
    intro d wraps
    obtain ⟨n', d', readInner, same, wrapsInner⟩ := inner wraps.behind
    refine ⟨signed d.next n', d', .sign (by rwa [wraps.kind]) readInner, ?_, wrapsInner⟩
    rw [erase_signed, erase_signed, wraps.next, same]
  | stepNothing ahead _ inner =>
    intro d wraps
    obtain ⟨n', d', readInner, same, wrapsInner⟩ := inner (wraps.advance (asksForMore_of_isStep ahead))
    cases eq_absent_of_erase same
    exact ⟨.absent, d', .stepNothing (by rwa [wraps.kind]) readInner, rfl, wrapsInner⟩
  | @step c c' span target ahead _ inner =>
    intro d wraps
    obtain ⟨n', d', readInner, same, wrapsInner⟩ := inner (wraps.advance (asksForMore_of_isStep ahead))
    obtain ⟨span', target', rfl, sameTarget⟩ := eq_usage_of_erase same
    refine ⟨_, d', .step (by rwa [wraps.kind]) readInner, ?_, wrapsInner⟩
    rw [wraps.next]
    exact congrArg (Node.assignment .none (assignOp c.next) · .absent) sameTarget
  | @instantiation c c₁ c' blueprint args ahead named _ _ name arguments =>
    intro d wraps
    have first := wraps.advance (by rw [ahead]; rfl)
    have second := first.advance (by rw [named]; rfl)
    obtain ⟨blueprint', d₁, readName, sameName, wrapsName⟩ := name rfl second
    obtain ⟨args', d', readArgs, sameArgs, wrapsArgs⟩ := arguments wrapsName
    rw [← first.next] at readName
    refine ⟨_, d', .instantiation (by rwa [wraps.kind]) (by rwa [first.kind]) readName readArgs, ?_,
      wrapsArgs⟩
    rw [Node.erase_instantiation, Node.erase_instantiation, sameName, sameArgs]
  | nothing ahead =>
    intro d wraps
    exact ⟨.absent, d, .nothing (by rwa [wraps.kind]), rfl, wraps⟩
  | operandNothing _ atom =>
    intro d wraps
    obtain ⟨n', d', readAtom, same, wrapsAtom⟩ := atom wraps
    cases eq_absent_of_erase same
    exact ⟨.absent, d', .operandNothing readAtom, rfl, wrapsAtom⟩
  | operand _ present _ atom tail =>
    intro d wraps
    obtain ⟨left', d₁, readAtom, sameLeft, wrapsAtom⟩ := atom wraps
    obtain ⟨n', d', readTail, same, wrapsTail⟩ := tail sameLeft wrapsAtom
    exact ⟨n', d', .operand readAtom (by rwa [isAbsent_of_erase sameLeft]) readTail, same, wrapsTail⟩
  | tailDone stop =>
    intro left' d sameLeft wraps
    exact ⟨left', d, .tailDone (by rwa [wraps.kind]), sameLeft, wraps⟩
  | @tailStep c c' power span target n binds ahead _ tail =>
    -- The node to the left is made anew, from the same tokens with other spans.
    intro left' d sameLeft wraps
    obtain ⟨span', target', rfl, sameTarget⟩ := eq_usage_of_erase sameLeft
    have sameStep : (Node.assignment (span'.cover d.next.span) (assignOp d.next) target' .absent).erase =
        (Node.assignment (span.cover c.next.span) (assignOp c.next) target .absent).erase := by
      rw [wraps.next]
      exact congrArg (Node.assignment .none (assignOp c.next) · .absent) sameTarget
    obtain ⟨n', d', readTail, same, wrapsTail⟩ :=
      tail sameStep (wraps.advance (asksForMore_of_isStep ahead))
    exact ⟨n', d', .tailStep (by rwa [wraps.kind]) (by rwa [wraps.kind]) readTail, same, wrapsTail⟩
  | @tailCall c c₁ c' power left n args binds opened _ _ arguments tail =>
    intro left' d sameLeft wraps
    obtain ⟨args', d₁, readArgs, sameArgs, wrapsArgs⟩ := arguments wraps
    have sameCall : (Node.call ⟨left'.span.first, d₁.lastEnd⟩ (calleeOf left') args').erase =
        (Node.call ⟨left.span.first, c₁.lastEnd⟩ (calleeOf left) args).erase := by
      rw [Node.erase_call, Node.erase_call, erase_calleeOf, erase_calleeOf, sameLeft, sameArgs]
    obtain ⟨n', d', readTail, same, wrapsTail⟩ := tail sameCall wrapsArgs
    exact ⟨n', d', .tailCall (by rwa [wraps.kind]) (by rwa [wraps.kind]) readArgs readTail, same,
      wrapsTail⟩
  | tailMember binds ahead named _ tail =>
    intro left' d sameLeft wraps
    have behind := wraps.behind
    obtain ⟨n', d', readTail, same, wrapsTail⟩ :=
      tail (erase_memberOf sameLeft _) (behind.advance (by rw [named]; rfl))
    rw [← behind.next] at readTail
    exact ⟨n', d', .tailMember (by rwa [wraps.kind]) (by rwa [wraps.kind]) (by rwa [behind.kind]) readTail,
      same, wrapsTail⟩
  | @tailBinary c c₁ c' power op left right n binds ahead _ present _ inner tail =>
    intro left' d sameLeft wraps
    obtain ⟨right', d₁, readRight, sameRight, wrapsRight⟩ := inner wraps.behind
    have sameWhole : (Node.binary (left'.span.cover right'.span) op left' right').erase =
        (Node.binary (left.span.cover right.span) op left right).erase :=
      congrArg₂ (Node.binary .none op) sameLeft sameRight
    obtain ⟨n', d', readTail, same, wrapsTail⟩ := tail sameWhole wrapsRight
    exact ⟨n', d', .tailBinary (by rwa [wraps.kind]) (by rwa [wraps.kind]) (by rwa [wraps.kind])
      (by rwa [isAbsent_of_erase sameRight]) readTail, same, wrapsTail⟩
  | dottedDone stop =>
    intro left' d sameLeft wraps
    exact ⟨left', d, .dottedDone (by rwa [wraps.kind]), sameLeft, wraps⟩
  | dottedNext ahead named _ rest =>
    intro left' d sameLeft wraps
    have behind := wraps.behind
    obtain ⟨n', d', readRest, same, wrapsRest⟩ :=
      rest (erase_memberOf sameLeft _) (behind.advance (by rw [named]; rfl))
    rw [← behind.next] at readRest
    exact ⟨n', d', .dottedNext (by rwa [wraps.kind]) (by rwa [behind.kind]) readRest, same, wrapsRest⟩
  | argumentsNone opened closed =>
    intro d wraps
    have inside := wraps.behind
    exact ⟨[], _, .argumentsNone (by rwa [wraps.kind]) (by rwa [inside.kind]), rfl,
      inside.advance (by rw [closed]; rfl)⟩
  | argumentsSome opened notClosed _ present _ closed head more =>
    intro d wraps
    have inside := wraps.behind
    obtain ⟨n', d₁, readHead, sameHead, wrapsHead⟩ := head inside
    obtain ⟨args', d₂, readMore, sameMore, wrapsMore⟩ := more wrapsHead
    have behind := wrapsMore.pastNewlines
    exact ⟨n' :: args', _, .argumentsSome (by rwa [wraps.kind]) (by rwa [inside.kind]) readHead
      (by rwa [isAbsent_of_erase sameHead]) readMore (by rwa [behind.kind]),
      congrArg₂ List.cons sameHead sameMore, behind.advance (by rw [closed]; rfl)⟩
  | argumentsDone stop =>
    intro d wraps
    exact ⟨[], d, .argumentsDone (by rwa [wraps.kind]), rfl, wraps⟩
  | argumentsNext comma _ present _ head more =>
    intro d wraps
    obtain ⟨n', d₁, readHead, sameHead, wrapsHead⟩ := head wraps.behind
    obtain ⟨args', d', readMore, sameMore, wrapsMore⟩ := more wrapsHead
    exact ⟨n' :: args', d', .argumentsNext (by rwa [wraps.kind]) readHead
      (by rwa [isAbsent_of_erase sameHead]) readMore, congrArg₂ List.cons sameHead sameMore, wrapsMore⟩
  | expressionNothing _ operand =>
    intro d wraps
    obtain ⟨n', d', readOperand, same, wrapsOperand⟩ := operand wraps
    cases eq_absent_of_erase same
    exact ⟨.absent, d', .expressionNothing readOperand, rfl, wrapsOperand⟩
  | expressionPlain _ present stop operand =>
    intro d wraps
    obtain ⟨n', d', readOperand, same, wrapsOperand⟩ := operand wraps
    exact ⟨n', d', .expressionPlain readOperand (by rwa [isAbsent_of_erase same])
      (by rwa [wrapsOperand.kind]), same, wrapsOperand⟩
  | @expressionAssign c c₁ c' span target value _ assigns _ present operand inner =>
    intro d wraps
    obtain ⟨n', d₁, readTarget, sameLeft, wrapsTarget⟩ := operand wraps
    obtain ⟨span', target', rfl, sameTarget⟩ := eq_usage_of_erase sameLeft
    obtain ⟨value', d', readValue, sameValue, wrapsValue⟩ := inner wrapsTarget.behind
    refine ⟨_, d', .expressionAssign readTarget (by rwa [wrapsTarget.kind]) readValue
      (by rwa [isAbsent_of_erase sameValue]), ?_, wrapsValue⟩
    rw [wrapsTarget.next]
    exact congrArg₂ (Node.assignment .none (assignOp c₁.next)) sameTarget sameValue
  | statementsDone stop =>
    intro d wraps
    exact ⟨[], d, .statementsDone (by rwa [wraps.kind]), rfl, wraps⟩
  | statementsNext asks _ present _ head rest =>
    intro d wraps
    obtain ⟨n', d₁, readHead, sameHead, wrapsHead⟩ := head wraps
    obtain ⟨ns', d', readRest, sameRest, wrapsRest⟩ := rest wrapsHead.pastSeparators
    exact ⟨n' :: ns', d', .statementsNext (by rwa [wraps.kind]) readHead
      (by rwa [isAbsent_of_erase sameHead]) readRest, congrArg₂ List.cons sameHead sameRest, wrapsRest⟩
  | block opened _ closed inner =>
    intro d wraps
    obtain ⟨ns', d₁, readInner, same, wrapsInner⟩ := inner wraps.advanceNearly.pastSeparators
    refine ⟨_, _, .block (by rwa [wraps.kind]) readInner (by rwa [wrapsInner.kind]), ?_,
      wrapsInner.advance (by rw [closed]; rfl)⟩
    rw [Node.erase_tree, Node.erase_tree, same]
  | bodyBlock opened _ inner =>
    -- Here the line ends behind `do` are passed over.
    intro d nearly
    have behind := nearly.pastNewlines
    obtain ⟨n', d', readInner, same, wrapsInner⟩ := inner behind
    exact ⟨n', d', .bodyBlock (by rwa [behind.kind]) readInner, same, wrapsInner⟩
  | bodySingle notOpened _ present inner =>
    intro d nearly
    have behind := nearly.pastNewlines
    obtain ⟨n', d', readInner, same, wrapsInner⟩ := inner behind
    refine ⟨_, d', .bodySingle (by rwa [behind.kind]) readInner (by rwa [isAbsent_of_erase same]), ?_,
      wrapsInner⟩
    exact congrArg (fun n => Node.tree .none [n]) same
  | condition opened _ present closed test =>
    intro d wraps
    obtain ⟨n', d₁, readTest, same, wrapsTest⟩ := test wraps.behind
    have behind := wrapsTest.pastNewlines
    exact ⟨n', _, .condition (by rwa [wraps.kind]) readTest (by rwa [isAbsent_of_erase same])
      (by rwa [behind.kind]), same, behind.advance (by rw [closed]; rfl)⟩
  | variablePlain typed named notAssigned =>
    intro d start wraps
    have first := wraps.advance (Kind.asksForMore_of_isTypeWord typed)
    have second := first.advance (by rw [named]; rfl)
    refine ⟨_, _, .variablePlain (by rwa [wraps.kind]) (by rwa [first.kind]) (by rwa [second.kind]), ?_,
      second⟩
    rw [first.next, wraps.kind]
    rfl
  | @variableInitial c c' _ modifiers value typed named assigned _ present inner =>
    intro d start wraps
    have first := wraps.advance (Kind.asksForMore_of_isTypeWord typed)
    have second := first.advance (by rw [named]; rfl)
    obtain ⟨value', d', readValue, same, wrapsValue⟩ := inner second.behind
    refine ⟨_, d', .variableInitial (by rwa [wraps.kind]) (by rwa [first.kind]) (by rwa [second.kind])
      readValue (by rwa [isAbsent_of_erase same]), ?_, wrapsValue⟩
    rw [first.next, wraps.kind]
    exact congrArg (fun value => Node.variableDeclaration .none modifiers _ _
      (.assignment .none .assign (.identifier .none .absent _) value)) same
  | @function c c₁ c' _ modifiers names n ahead named readNames _ body =>
    intro d start wraps
    have first := wraps.advance (by rw [ahead]; rfl)
    obtain ⟨d₁, readParams, wrapsParams⟩ := readNames.wrap (first.advance (by rw [named]; rfl))
    obtain ⟨n', d', readBody, same, wrapsBody⟩ := body wrapsParams.pastNewlines
    refine ⟨_, d', .function (by rwa [wraps.kind]) (by rwa [first.kind]) readParams readBody, ?_,
      wrapsBody⟩
    rw [first.next]
    exact congrArg (Node.functionDeclaration .none modifiers _ names) same
  | @blueprint c c₁ _ modifiers ns ahead named opened _ closed members =>
    intro d start wraps
    have first := wraps.advance (by rw [ahead]; rfl)
    have second := (first.advance (by rw [named]; rfl)).pastNewlines
    obtain ⟨ns', d₁, readMembers, same, wrapsMembers⟩ := members second.advanceNearly.pastSeparators
    refine ⟨_, _, .blueprint (by rwa [wraps.kind]) (by rwa [first.kind]) (by rwa [second.kind])
      readMembers (by rwa [wrapsMembers.kind]), ?_, wrapsMembers.advance (by rw [closed]; rfl)⟩
    obtain ⟨sameFields, sameMethods, sameClasses⟩ := Members.mk.inj (erase_sortMembers same)
    rw [Node.erase_classDeclaration, Node.erase_classDeclaration, first.next, sameFields, sameMethods,
      sameClasses]
  | membersDone stop =>
    intro d wraps
    exact ⟨[], d, .membersDone (by rwa [wraps.kind]), rfl, wraps⟩
  | membersNext inside begins _ _ head rest =>
    intro d wraps
    obtain ⟨n', d₁, readHead, sameHead, wrapsHead⟩ := head wraps
    obtain ⟨ns', d', readRest, sameRest, wrapsRest⟩ := rest wrapsHead.pastSeparators
    exact ⟨n' :: ns', d', .membersNext (by rwa [wraps.kind]) (by rwa [wraps.kind]) readHead readRest,
      congrArg₂ List.cons sameHead sameRest, wrapsRest⟩
  | member _ declared =>
    -- No modifier asks for more, so the same modifiers stand ahead.
    intro d wraps
    obtain ⟨n', d', readDeclared, same, wrapsDeclared⟩ := declared _ wraps.pastModifiers
    rw [← wraps.modifiersAhead] at readDeclared
    exact ⟨n', d', .member readDeclared, same, wrapsDeclared⟩
  | statementDeclaration begins _ declared =>
    intro d wraps
    obtain ⟨n', d', readDeclared, same, wrapsDeclared⟩ := declared _ wraps.pastModifiers
    rw [← wraps.modifiersAhead] at readDeclared
    exact ⟨n', d', .statementDeclaration (by rwa [wraps.kind]) readDeclared, same, wrapsDeclared⟩
  | statementExpression plain _ present expression =>
    intro d wraps
    obtain ⟨n', d', readExpression, same, wrapsExpression⟩ := expression wraps
    exact ⟨n', d', .statementExpression (by rwa [wraps.kind]) readExpression
      (by rwa [isAbsent_of_erase same]), same, wrapsExpression⟩
  | branchPlain ahead _ _ plain condition body =>
    intro d wraps
    obtain ⟨test', d₁, readTest, sameTest, wrapsTest⟩ := condition (wraps.advance (by rw [ahead]; rfl))
    obtain ⟨yes', d', readYes, sameYes, wrapsYes⟩ := body wrapsTest.nearly
    exact ⟨_, d', .branchPlain (by rwa [wraps.kind]) readTest readYes (by rwa [wrapsYes.pastNewlines.kind]),
      congrArg₂ (Node.branch .none · · .absent) sameTest sameYes, wrapsYes⟩
  | branchElse ahead _ _ otherwise plain _ condition body alternative =>
    intro d wraps
    obtain ⟨test', d₁, readTest, sameTest, wrapsTest⟩ := condition (wraps.advance (by rw [ahead]; rfl))
    obtain ⟨yes', d₂, readYes, sameYes, wrapsYes⟩ := body wrapsTest.nearly
    have atElse := wrapsYes.pastNewlines
    have behind := atElse.behind
    obtain ⟨no', d', readNo, sameNo, wrapsNo⟩ := alternative behind.nearly
    refine ⟨_, d', .branchElse (by rwa [wraps.kind]) readTest readYes (by rwa [atElse.kind])
      (by rwa [behind.kind]) readNo, ?_, wrapsNo⟩
    rw [erase_branch, erase_branch, sameTest, sameYes, sameNo]
  | branchElseIf ahead _ _ otherwise again _ condition body alternative =>
    intro d wraps
    obtain ⟨test', d₁, readTest, sameTest, wrapsTest⟩ := condition (wraps.advance (by rw [ahead]; rfl))
    obtain ⟨yes', d₂, readYes, sameYes, wrapsYes⟩ := body wrapsTest.nearly
    have atElse := wrapsYes.pastNewlines
    have behind := atElse.behind
    obtain ⟨inner', d', readInner, sameInner, wrapsInner⟩ := alternative behind
    refine ⟨_, d', .branchElseIf (by rwa [wraps.kind]) readTest readYes (by rwa [atElse.kind])
      (by rwa [behind.kind]) readInner, ?_, wrapsInner⟩
    rw [erase_branch, erase_branch, Node.erase_tree, Node.erase_tree, sameTest, sameYes, List.map_singleton,
      sameInner, List.map_singleton]
  | whileLoop ahead _ _ condition body =>
    intro d wraps
    obtain ⟨test', d₁, readTest, sameTest, wrapsTest⟩ := condition (wraps.advance (by rw [ahead]; rfl))
    obtain ⟨inner', d', readInner, sameInner, wrapsInner⟩ := body wrapsTest.nearly
    exact ⟨_, d', .whileLoop (by rwa [wraps.kind]) readTest readInner,
      congrArg₂ (Node.whileLoop .none) sameTest sameInner, wrapsInner⟩
  | doWhileLoop ahead _ found _ body condition =>
    intro d wraps
    -- Nothing is passed over between `do` and its body, which does so itself.
    obtain ⟨inner', d₁, readInner, sameInner, wrapsInner⟩ := body wraps.advanceNearly
    have behind := wrapsInner.pastNewlines
    obtain ⟨test', d', readTest, sameTest, wrapsTest⟩ := condition (behind.advance (by rw [found]; rfl))
    exact ⟨_, d', .doWhileLoop (by rwa [wraps.kind]) readInner (by rwa [behind.kind]) readTest,
      congrArg₂ (Node.doWhileLoop .none) sameTest sameInner, wrapsTest⟩
  | forLoop ahead opened _ closed _ closedTest _ closedRound _ start part step body =>
    intro d wraps
    have atParen := wraps.advance (by rw [ahead]; rfl)
    obtain ⟨first', d₁, readFirst, sameFirst, wrapsFirst⟩ := start atParen.behind
    obtain ⟨test', d₂, readTest, sameTest, wrapsTest⟩ := part wrapsFirst.behind
    obtain ⟨round', d₃, readRound, sameRound, wrapsRound⟩ := step wrapsTest.behind
    have atClose := wrapsRound.pastNewlines
    obtain ⟨inner', d', readInner, sameInner, wrapsInner⟩ :=
      body (atClose.advance (by rw [closedRound]; rfl)).nearly
    refine ⟨_, d', .forLoop (by rwa [wraps.kind]) (by rwa [atParen.kind]) readFirst
      (by rwa [wrapsFirst.kind]) readTest (by rwa [wrapsTest.kind]) readRound (by rwa [atClose.kind])
      readInner, ?_, wrapsInner⟩
    rw [erase_forLoop, erase_forLoop, sameFirst, sameTest, sameRound, sameInner]
  | forStartNone ahead =>
    intro d wraps
    exact ⟨.absent, d, .forStartNone (by rwa [wraps.kind]), rfl, wraps⟩
  | forStartVariable typed _ declared =>
    intro d wraps
    obtain ⟨n', d', readDeclared, same, wrapsDeclared⟩ := declared _ wraps
    exact ⟨n', d', .forStartVariable (by rwa [wraps.kind]) readDeclared, same, wrapsDeclared⟩
  | forStartExpression notEmpty notTyped _ expression =>
    intro d wraps
    obtain ⟨n', d', readExpression, same, wrapsExpression⟩ := expression wraps
    exact ⟨n', d', .forStartExpression (by rwa [wraps.kind]) (by rwa [wraps.kind]) readExpression, same,
      wrapsExpression⟩
  | forPartNone ahead =>
    intro d wraps
    exact ⟨.absent, d, .forPartNone (by rwa [wraps.kind]), rfl, wraps⟩
  | forPartSome notClosed _ expression =>
    intro d wraps
    obtain ⟨n', d', readExpression, same, wrapsExpression⟩ := expression wraps
    exact ⟨n', d', .forPartSome (by rwa [wraps.kind]) readExpression, same, wrapsExpression⟩

end Parser

/-- A program that is accepted is accepted, and is the same but for spans, when line ends are put in behind
    tokens that ask for more. -/
theorem parseTokens_wrap {tokens wrapped : List Token} (wraps : Wraps tokens wrapped)
    (accepted : (parseTokens tokens).2 = []) :
    (parseTokens wrapped).2 = [] ∧ (parseTokens wrapped).1.erase = (parseTokens tokens).1.erase := by
  have parsed : parseTokens tokens = ((parseTokens tokens).1, []) := Prod.ext rfl accepted
  obtain ⟨c', ns, read, tree⟩ := parseTokens_eq_iff.1 parsed
  have start : (Cursor.mk tokens none []).Wraps (Cursor.mk wrapped none []) := wraps
  obtain ⟨ns', d', readAgain, same, _⟩ := read.wrap start.pastSeparators
  have parsedAgain := parseTokens_eq_iff.2 ⟨d', ns', readAgain, rfl⟩
  rw [parsedAgain, tree, Node.erase_tree, Node.erase_tree, same]
  exact ⟨rfl, rfl⟩

def wrapEach (lines : List Token) : List Token → List Token
  | [] => []
  | t :: rest =>
    if t.kind.asksForMore then t :: (lines ++ wrapEach lines rest) else t :: wrapEach lines rest

theorem wraps_wrapEach {lines : List Token} (allLines : ∀ line ∈ lines, line.kind = .newline)
    (tokens : List Token) : Wraps tokens (wrapEach lines tokens) := by
  induction tokens with
  | nil => exact .nil
  | cons t rest ih =>
    rw [wrapEach]
    split
    next asks => exact ih.insert asks allLines
    next => exact ih.keep

def oneLineText : List UInt8 :=
  "if (-f(1, 2) < a.b) c += 1 else do \x7b c = +c * 2 \x7d while (c); for (;;) d++".toUTF8.data.toList

theorem parseTokens_wrap_oneLineText :
    let tokens := (tokenize oneLineText).1
    let wrapped := wrapEach [⟨.newline, "", .none⟩, ⟨.newline, "", .none⟩] tokens
    (parseTokens tokens).2 = [] ∧ wrapped.length = tokens.length + 36 ∧ (parseTokens wrapped).2 = [] ∧
      (parseTokens wrapped).1.erase = (parseTokens tokens).1.erase := by
  intro tokens wrapped
  have accepted : (parseTokens tokens).2 = [] := by decide +kernel
  exact ⟨accepted, by decide +kernel, parseTokens_wrap (wraps_wrapEach (by decide) tokens) accepted⟩

end ClassScript
