import ClassScript.Proofs.Parser.Completeness
import ClassScript.Proofs.Syntax.Spans

/-! # Readings among other tokens

A reading does not depend on where its tokens stand in a source nor, up to the line end that separates
statements, on what comes behind them.  `Graft.Joins g c d` says that the tokens ahead of `d` are those
ahead of `c`, moved, with the end token replaced by the tokens of the graft; `Reads.graft` carries a
reading from `c` over to `d`.

Where the tokens of `c` end, a parser at `d` sees a line end or an end token instead.  No rule tells
these two apart but the ones that pass over line ends, so a phrase must not pass over line ends up to
the end of its tokens: that is the case if it yields a node, or does not stop at the end
(`Phrase.Settled`).  The one rule that does look beyond the line ends behind a statement, in search of
`else`, must not find one there.
-/

namespace ClassScript

/-- Other surroundings for a list of tokens: how far they are moved, the token in front of them, and
    the tokens in place of their end token. -/
structure Graft where
  bytes : Int
  lines : Int
  before : Option Token
  behind : List Token

namespace Graft

structure Closes (g : Graft) : Prop where
  kind : (Cursor.mk g.behind none []).kind = .endOfFile ∨ (Cursor.mk g.behind none []).kind = .newline
  notElse : (Cursor.mk g.behind none []).pastNewlines.kind ≠ .elseWord

structure Joins (g : Graft) (c d : Cursor) : Prop where
  ahead : ∃ own close, c.rest = own ++ [close] ∧ close.kind = .endOfFile ∧
    (∀ t ∈ own, t.kind ≠ .endOfFile) ∧ d.rest = own.map (·.shift g.bytes g.lines) ++ g.behind
  last : d.last = (c.last.map (·.shift g.bytes g.lines)).or g.before
  diagnostics : d.diagnostics = c.diagnostics

variable {g : Graft} {c d : Cursor}

namespace Joins

theorem next (joins : g.Joins c d) (notEnd : c.kind ≠ .endOfFile) :
    d.next = c.next.shift g.bytes g.lines := by
  obtain ⟨own, close, rest, closeKind, _, graftedRest⟩ := joins.ahead
  cases own with
  | nil => exact absurd ((Cursor.kind_of_rest_cons rest).trans closeKind) notEnd
  | cons t own => simp [Cursor.next, rest, graftedRest]

theorem kind (joins : g.Joins c d) (notEnd : c.kind ≠ .endOfFile) : d.kind = c.kind := by
  rw [Cursor.kind, joins.next notEnd]
  rfl

theorem advance (joins : g.Joins c d) (notEnd : c.kind ≠ .endOfFile) :
    g.Joins c.advance d.advance := by
  obtain ⟨own, close, rest, closeKind, notEnds, graftedRest⟩ := joins.ahead
  cases own with
  | nil => exact absurd ((Cursor.kind_of_rest_cons rest).trans closeKind) notEnd
  | cons t own =>
    simp only [List.cons_append, List.map_cons] at rest graftedRest
    refine ⟨⟨own, close, ?_, closeKind, fun u member => notEnds u (by simp [member]), ?_⟩, ?_, ?_⟩
    · simp [Cursor.advance, rest]
    · simp [Cursor.advance, graftedRest]
    · simp [Cursor.advance, rest, graftedRest]
    · simpa using joins.diagnostics

/-- At the end of its tokens a cursor is at the graft. -/
theorem rest_at_end (joins : g.Joins c d) (atEnd : c.kind = .endOfFile) : d.rest = g.behind := by
  obtain ⟨own, close, rest, _, notEnds, graftedRest⟩ := joins.ahead
  cases own with
  | nil => simpa using graftedRest
  | cons t own =>
    exact absurd ((Cursor.kind_of_rest_cons rest).symm.trans atEnd) (notEnds t (by simp))

theorem kind_at_end (joins : g.Joins c d) (atEnd : c.kind = .endOfFile) :
    d.kind = (Cursor.mk g.behind none []).kind := by
  simp only [Cursor.kind, Cursor.next, joins.rest_at_end atEnd]

/-- What a token ahead must be like carries over if line ends are like the end token. -/
theorem stable (closes : g.Closes) (joins : g.Joins c d) (likes : Kind → Prop)
    (atEnd : likes .endOfFile → likes .newline) (ahead : likes c.kind) : likes d.kind := by
  by_cases ends : c.kind = .endOfFile
  · rw [ends] at ahead
    rcases closes.kind with ended | line
    · rwa [joins.kind_at_end ends, ended]
    · rw [joins.kind_at_end ends, line]
      exact atEnd ahead
  · rwa [joins.kind ends]

/-- Where the tokens go on they have gone on before. -/
theorem inside (joins : g.Joins c d) {c₁ c₂ : Cursor} (first : c.Onward c₁) (second : c₁.Onward c₂)
    (notEnd : c₂.kind ≠ .endOfFile) : c₁.kind ≠ .endOfFile := by
  intro atEnd
  apply notEnd
  obtain ⟨own, close, rest, _, notEnds, _⟩ := joins.ahead
  have further := second.rest
  cases ahead : c₁.rest with
  | nil =>
    rw [ahead, List.suffix_nil] at further
    exact Cursor.kind_of_rest_nil further
  | cons t more =>
    have isEnd : t.kind = .endOfFile := (Cursor.kind_of_rest_cons ahead).symm.trans atEnd
    -- An end token that is not the last one would be among the own tokens.
    have isLast : more = [] := by
      obtain ⟨front, parts⟩ := ahead ▸ rest ▸ first.rest
      cases more with
      | nil => rfl
      | cons u more =>
        have whole := congrArg List.dropLast parts
        rw [List.dropLast_append_cons, List.dropLast_concat] at whole
        exact absurd isEnd (notEnds t (whole ▸ by simp))
    rw [ahead, isLast, List.suffix_cons_iff, List.suffix_nil] at further
    rcases further with same | empty
    · rw [Cursor.kind_of_rest_cons same, isEnd]
    · exact Cursor.kind_of_rest_nil empty

theorem lastEnd (joins : g.Joins c d) (taken : c.last.isSome) :
    d.lastEnd = c.lastEnd.shift g.bytes g.lines := by
  obtain ⟨t, isLast⟩ := Option.isSome_iff_exists.1 taken
  simp [Cursor.lastEnd, joins.last, isLast]

/-- Tokens are passed over alike, unless the line ends of the graft are passed over as well. -/
theorem skipWhile (joins : g.Joins c d) {skipped : Kind → Bool} (atEnd : skipped .endOfFile = false)
    (stops : (c.skipWhile skipped).kind ≠ .endOfFile ∨
      skipped (Cursor.mk g.behind none []).kind = false) :
    g.Joins (c.skipWhile skipped) (d.skipWhile skipped) := by
  induction c using Cursor.skip_induction atEnd generalizing d with
  | skip c notEnd isSkipped ih =>
    have next := joins.advance notEnd
    have same := joins.kind notEnd
    rw [Cursor.skipWhile_of_skipped notEnd isSkipped] at stops ⊢
    rw [← same] at notEnd isSkipped
    rw [Cursor.skipWhile_of_skipped notEnd isSkipped]
    exact ih next stops
  | stop c notSkipped =>
    rw [Cursor.skipWhile_eq_self notSkipped] at stops ⊢
    have graftNotSkipped : skipped d.kind = false := by
      by_cases ends : c.kind = .endOfFile
      · rw [joins.kind_at_end ends]
        exact stops.resolve_left (not_not_intro ends)
      · rwa [joins.kind ends]
    rwa [Cursor.skipWhile_eq_self graftNotSkipped]

/-- Behind the tokens that are passed over up to the end the graft goes on. -/
theorem skipWhile_at_end (joins : g.Joins c d) {skipped : Kind → Bool}
    (atEnd : skipped .endOfFile = false) (ends : (c.skipWhile skipped).kind = .endOfFile) :
    ∃ last, d.skipWhile skipped = (Cursor.mk g.behind last d.diagnostics).skipWhile skipped := by
  induction c using Cursor.skip_induction atEnd generalizing d with
  | skip c notEnd isSkipped ih =>
    have next := joins.advance notEnd
    have same := joins.kind notEnd
    rw [Cursor.skipWhile_of_skipped notEnd isSkipped] at ends
    rw [← same] at notEnd isSkipped
    rw [Cursor.skipWhile_of_skipped notEnd isSkipped]
    simpa using ih next ends
  | stop c notSkipped =>
    rw [Cursor.skipWhile_eq_self notSkipped] at ends
    exact ⟨d.last, by rw [← joins.rest_at_end ends]⟩

theorem pastNewlines (joins : g.Joins c d) (inside : c.pastNewlines.kind ≠ .endOfFile) :
    g.Joins c.pastNewlines d.pastNewlines :=
  joins.skipWhile (by decide) (.inl inside)

theorem pastSeparators (joins : g.Joins c d) (inside : c.pastSeparators.kind ≠ .endOfFile) :
    g.Joins c.pastSeparators d.pastSeparators :=
  joins.skipWhile (by decide) (.inl inside)

theorem pastModifiers (closes : g.Closes) (joins : g.Joins c d) :
    g.Joins c.pastModifiers d.pastModifiers := by
  refine joins.skipWhile (by decide) (.inr ?_)
  rcases closes.kind with ended | line
  · rw [ended]
    rfl
  · rw [line]
    rfl

theorem pastNewlines_ne_else (closes : g.Closes) (joins : g.Joins c d)
    (plain : c.pastNewlines.kind ≠ .elseWord) : d.pastNewlines.kind ≠ .elseWord := by
  by_cases atEnd : c.pastNewlines.kind = .endOfFile
  · obtain ⟨last, same⟩ := joins.skipWhile_at_end (by decide) atEnd
    rw [Cursor.pastNewlines, same]
    exact closes.notElse
  · rwa [(joins.pastNewlines atEnd).kind atEnd]

theorem modifiersAhead (closes : g.Closes) (joins : g.Joins c d) (inClass : Bool) :
    Parser.modifiersAhead d inClass = Parser.modifiersAhead c inClass := by
  unfold Parser.modifiersAhead
  generalize ({ inClass } : Modifiers) = seen
  induction c using @Cursor.skip_induction Kind.isModifier (by decide) generalizing d seen with
  | skip c notEnd isModifier ih =>
    have next := joins.advance notEnd
    have same := joins.kind notEnd
    rw [Cursor.takeWhile_of_skipped notEnd isModifier, List.foldl_cons, Cursor.next_kind, ← same]
    rw [← same] at notEnd isModifier
    rw [Cursor.takeWhile_of_skipped notEnd isModifier, List.foldl_cons, Cursor.next_kind]
    exact ih next _
  | stop c notModifier =>
    have graftNotModifier := joins.stable closes (Kind.isModifier · = false) (fun _ => rfl) notModifier
    rw [Cursor.takeWhile_of_stopped notModifier, Cursor.takeWhile_of_stopped graftNotModifier]

end Joins

end Graft

namespace Parser

open Cursor (Onward)

variable {c c' d : Cursor} {n : Node}

/-! ## Phrases that are moved -/

def Phrase.graft (g : Graft) : Phrase → Phrase
  | .tail power left => .tail power (left.shift g.bytes g.lines)
  | .dotted left => .dotted (left.shift g.bytes g.lines)
  | .declaration start modifiers => .declaration (start.shift g.bytes g.lines) modifiers
  | phrase => phrase

def Yield.graft (g : Graft) : Yield → Yield
  | .node n => .node (n.shift g.bytes g.lines)
  | .nodes ns => .nodes (ns.map (·.shift g.bytes g.lines))

def Members.map (f : Node → Node) (members : Members) : Members :=
  ⟨members.fields.map f, members.methods.map f, members.classes.map f⟩

def Phrase.Grounded : Phrase → Prop
  | .tail _ left | .dotted left => left.isAbsent = false
  | _ => True

def Phrase.Settled : Phrase → Yield → Cursor → Prop
  | .goal .expression, .node n, c' | .goal (.operand _), .node n, c' | .atom, .node n, c'
  | .forStart, .node n, c' | .forPart _, .node n, c' => n.isAbsent = false ∨ c'.kind ≠ .endOfFile
  | .statements _, _, c' | .members, _, c' => c'.kind ≠ .endOfFile
  | _, _, _ => True

section Shift

variable (bytes lines : Int)

theorem literal?_shift (t : Token) :
    literal? (t.shift bytes lines) = (literal? t).map (·.shift bytes lines) := by
  simp only [literal?, Token.kind_shift, Token.lexeme_shift]
  split
  · by_cases fits : (Number.readInteger t.lexeme).2 = true <;> simp [fits, Node.shift, Node.mapSpans]
  · by_cases fits : (Number.readDouble t.lexeme).2 = true <;> simp [fits, Node.shift, Node.mapSpans]
  all_goals rfl

theorem memberOf_shift {left : Node} (present : left.isAbsent = false) (t : Token) :
    memberOf (left.shift bytes lines) (t.shift bytes lines) =
      (memberOf left t).shift bytes lines := by
  simp [memberOf, Node.shift, Node.mapSpans, Node.span_mapSpans _ present]

theorem calleeOf_shift (left : Node) :
    calleeOf (left.shift bytes lines) = (calleeOf left).shift bytes lines := by
  cases left <;> rfl

theorem isAbsent_signed (t : Token) (operand : Node) :
    (signed t operand).isAbsent = operand.isAbsent := by
  have negated (span : Span) : (negate span operand).isAbsent = false := by cases operand <;> rfl
  unfold signed
  split
  next absent => exact absent.symm
  next present =>
    split
    · simp [negated, present]
    · rfl

theorem signed_shift (t : Token) (operand : Node) :
    signed (t.shift bytes lines) (operand.shift bytes lines) =
      (signed t operand).shift bytes lines := by
  cases operand <;>
    simp [signed, Node.shift, Node.mapSpans, Node.isAbsent, negate, Node.span] <;>
    split <;> simp [Node.mapSpans]

theorem sortMembers_mapSpans (f : Span → Span) (ns : List Node) :
    sortMembers (ns.map (·.mapSpans f)) = (sortMembers ns).map (·.mapSpans f) := by
  have addAll (seen : Members) : (ns.map (·.mapSpans f)).foldl Members.add
      (seen.map (·.mapSpans f)) = (ns.foldl Members.add seen).map (·.mapSpans f) := by
    induction ns generalizing seen with
    | nil => rfl
    | cons n ns ih =>
      have addOne : (seen.map (·.mapSpans f)).add (n.mapSpans f) = (seen.add n).map (·.mapSpans f) := by
        cases n <;> simp [Members.add, Members.map, Node.mapSpans]
      rw [List.map_cons, List.foldl_cons, List.foldl_cons, addOne, ih]
  exact addAll {}

theorem sortMembers_shift (ns : List Node) :
    sortMembers (ns.map (·.shift bytes lines)) = (sortMembers ns).map (·.shift bytes lines) :=
  sortMembers_mapSpans _ ns

end Shift

/-- An expression that is there, or that is read up to a token, begins with a token. -/
theorem Reads.operand_ahead {power : Nat} (read : Reads (.goal (.operand power)) c (.node n) c')
    (settled : n.isAbsent = false ∨ c'.kind ≠ .endOfFile) : c.kind ≠ .endOfFile := by
  intro atEnd
  obtain ⟨rfl, rfl⟩ := read.operand_nothing (by rw [atEnd]; rfl)
  simp [atEnd, Node.isAbsent] at settled

theorem Reads.expression_ahead (read : Reads (.goal .expression) c (.node n) c')
    (settled : n.isAbsent = false ∨ c'.kind ≠ .endOfFile) : c.kind ≠ .endOfFile := by
  intro atEnd
  obtain ⟨rfl, rfl⟩ := read.expression_nothing (by rw [atEnd]; rfl)
  simp [atEnd, Node.isAbsent] at settled

theorem Reads.block_kind (read : Reads .block c (.node n) c') : c.kind = .leftBrace := by
  cases read
  assumption

theorem Reads.body_ahead (read : Reads .body c (.node n) c') : c.pastNewlines.kind ≠ .endOfFile := by
  cases read with
  | bodyBlock opened _ => simp [opened]
  | bodySingle _ inner _ => exact inner.statement_ahead

theorem Reads.member_ahead (read : Reads (.goal .member) c (.node n) c') : c.kind ≠ .endOfFile := by
  intro atEnd
  cases read with
  | member declared =>
    rw [Cursor.pastModifiers_eq_self (by rw [atEnd]; decide)] at declared
    have begins := declared.declaration_kind
    simp [atEnd, Kind.isTypeWord, Kind.declaredType?] at begins

theorem ReadsMoreNames.graft {g : Graft} (closes : g.Closes) {names : List String}
    (read : ReadsMoreNames c names c') (joins : g.Joins c d) :
    ∃ d', ReadsMoreNames d names d' ∧ g.Joins c' d' := by
  induction read generalizing d with
  | done stop => exact ⟨d, .done (joins.stable closes (· ≠ .comma) (by simp) stop), joins⟩
  | @next c c' names comma named _ ih =>
    have behind := (joins.advance (by simp [comma])).pastNewlines (by simp [named])
    obtain ⟨d', readRest, joinsRest⟩ := ih (behind.advance (by simp [named]))
    have read := ReadsMoreNames.next (by rwa [joins.kind (by simp [comma])])
      (by rwa [behind.kind (by simp [named])]) readRest
    rw [behind.next (by simp [named])] at read
    exact ⟨d', read, joinsRest⟩

theorem ReadsParams.graft {g : Graft} (closes : g.Closes) {names : List String}
    (read : ReadsParams c names c') (joins : g.Joins c d) :
    ∃ d', ReadsParams d names d' ∧ g.Joins c' d' := by
  cases read with
  | none opened closed =>
    have inside := (joins.advance (by simp [opened])).pastNewlines (by simp [closed])
    exact ⟨_, .none (by rwa [joins.kind (by simp [opened])])
      (by rwa [inside.kind (by simp [closed])]), inside.advance (by simp [closed])⟩
  | some opened named more closed =>
    have inside := (joins.advance (by simp [opened])).pastNewlines (by simp [named])
    obtain ⟨d₁, readMore, joinsMore⟩ := more.graft closes (inside.advance (by simp [named]))
    have behind := joinsMore.pastNewlines (by simp [closed])
    have read := ReadsParams.some (by rwa [joins.kind (by simp [opened])])
      (by rwa [inside.kind (by simp [named])]) readMore (by rwa [behind.kind (by simp [closed])])
    rw [inside.next (by simp [named])] at read
    exact ⟨_, read, behind.advance (by simp [closed])⟩

theorem Reads.graft {g : Graft} (closes : g.Closes) {phrase : Phrase} {y : Yield}
    (read : Reads phrase c y c') (joins : g.Joins c d) (grounded : phrase.Grounded)
    (settled : phrase.Settled y c') :
    ∃ d', Reads (phrase.graft g) d (y.graft g) d' ∧ g.Joins c' d' := by
  induction read generalizing d with
  | @literal c n ahead =>
    have notEnd : c.kind ≠ .endOfFile := kind_ne_endOfFile (by decide) (beginsOperand_of_literal? ahead)
    refine ⟨d.advance, .literal ?_, joins.advance notEnd⟩
    rw [joins.next notEnd, literal?_shift, ahead]
    rfl
  | @group c c₁ n opened readInner closed inner =>
    have notEnd := Cursor.kind_ne_endOfFile_of_pastNewlines (c := c₁) (by simp [closed])
    have inside := (joins.advance (by simp [opened])).pastNewlines
      (readInner.expression_ahead (.inr notEnd))
    obtain ⟨d₁, readGraft, joinsInner⟩ := inner inside trivial (.inr notEnd)
    have behind := joinsInner.pastNewlines (by simp [closed])
    exact ⟨_, .group (by rwa [joins.kind (by simp [opened])]) readGraft
      (by rwa [behind.kind (by simp [closed])]), behind.advance (by simp [closed])⟩
  | @sign c c' n ahead readInner inner =>
    have notEnd := kind_ne_endOfFile (by decide) ahead
    have settledInner : n.isAbsent = false ∨ c'.kind ≠ .endOfFile := by
      rwa [Phrase.Settled, isAbsent_signed] at settled
    have behind := (joins.advance notEnd).pastNewlines (readInner.operand_ahead settledInner)
    obtain ⟨d', readGraft, joinsInner⟩ := inner behind trivial settledInner
    refine ⟨d', ?_, joinsInner⟩
    have read := Reads.sign (by rwa [joins.kind notEnd]) readGraft
    rwa [joins.next notEnd, signed_shift] at read
  | @stepNothing c c' ahead readInner inner =>
    have notEnd := kind_ne_endOfFile (by decide) ahead
    obtain ⟨d', readGraft, joinsInner⟩ := inner (joins.advance notEnd) trivial settled
    exact ⟨d', .stepNothing (by rwa [joins.kind notEnd]) readGraft, joinsInner⟩
  | @step c c' span target ahead readInner inner =>
    have notEnd := kind_ne_endOfFile (by decide) ahead
    obtain ⟨d', readGraft, joinsInner⟩ := inner (joins.advance notEnd) trivial (.inl rfl)
    refine ⟨d', ?_, joinsInner⟩
    have read := Reads.step (by rwa [joins.kind notEnd]) readGraft
    simpa [Phrase.graft, Yield.graft, Node.shift, Node.mapSpans, joins.next notEnd, assignOp] using read
  | @instantiation c c₁ c' blueprint args ahead named readName readArgs name arguments =>
    have notEnd : c.kind ≠ .endOfFile := by simp [ahead]
    have first := joins.advance notEnd
    have taken : c'.last.isSome := (readName.onward.trans readArgs.onward).advance.taken notEnd
    obtain ⟨d₁, readGraft, joinsName⟩ := name (first.advance (by simp [named])) rfl trivial
    obtain ⟨d', readArguments, joinsArguments⟩ := arguments joinsName trivial trivial
    refine ⟨d', ?_, joinsArguments⟩
    have sameName : (plainName c.advance.next).shift g.bytes g.lines = plainName d.advance.next := by
      rw [first.next (by simp [named])]
      rfl
    simp only [Phrase.graft, sameName] at readGraft
    have read := Reads.instantiation (by rwa [joins.kind notEnd])
      (by rwa [first.kind (by simp [named])]) readGraft readArguments
    simpa [Phrase.graft, Yield.graft, Node.shift, Node.mapSpans, joins.next notEnd,
      joinsArguments.lastEnd taken, Span.shift] using read
  | nothing ahead =>
    exact ⟨d, .nothing (joins.stable closes (beginsOperand · = false) (fun _ => rfl) ahead), joins⟩
  | operandNothing _ atom =>
    obtain ⟨d', readGraft, joinsAtom⟩ := atom joins trivial settled
    exact ⟨d', .operandNothing readGraft, joinsAtom⟩
  | operand _ present _ atom tail =>
    obtain ⟨d₁, readAtom, joinsAtom⟩ := atom joins trivial (.inl present)
    obtain ⟨d', readTail, joinsTail⟩ := tail joinsAtom present trivial
    exact ⟨d', .operand readAtom (by simpa [Node.shift] using present) readTail, joinsTail⟩
  | tailDone stop =>
    exact ⟨d, .tailDone (joins.stable closes (fun kind => ¬ _ < kind.power) id stop), joins⟩
  | @tailStep c c' power span target n binds ahead _ tail =>
    have notEnd := kind_ne_endOfFile (by decide) ahead
    obtain ⟨d', readTail, joinsTail⟩ := tail (joins.advance notEnd) rfl trivial
    refine ⟨d', .tailStep (by rwa [joins.kind notEnd]) (by rwa [joins.kind notEnd]) ?_, joinsTail⟩
    simpa [Phrase.graft, Yield.graft, Node.shift, Node.mapSpans, joins.next notEnd, assignOp]
      using readTail
  | @tailCall c c₁ c' power left n args binds opened readArgs _ arguments tail =>
    have notEnd : c.kind ≠ .endOfFile := by simp [opened]
    have taken : c₁.last.isSome := readArgs.arguments_ahead.taken notEnd
    obtain ⟨d₁, readArguments, joinsArguments⟩ := arguments joins trivial trivial
    obtain ⟨d', readTail, joinsTail⟩ := tail joinsArguments rfl trivial
    refine ⟨d', .tailCall (by rwa [joins.kind notEnd]) (by rwa [joins.kind notEnd]) readArguments ?_,
      joinsTail⟩
    rw [calleeOf_shift, joinsArguments.lastEnd taken]
    simpa [Phrase.graft, Yield.graft, Node.shift, Node.mapSpans, Node.span_mapSpans _ grounded,
      Span.shift] using readTail
  | @tailMember c c' power left n binds ahead named _ tail =>
    have notEnd : c.kind ≠ .endOfFile := by simp [ahead]
    have behind := (joins.advance notEnd).pastNewlines (by simp [named])
    obtain ⟨d', readTail, joinsTail⟩ := tail (behind.advance (by simp [named])) rfl trivial
    refine ⟨d', .tailMember (by rwa [joins.kind notEnd]) (by rwa [joins.kind notEnd])
      (by rwa [behind.kind (by simp [named])]) ?_, joinsTail⟩
    rw [behind.next (by simp [named]), memberOf_shift _ _ grounded]
    exact readTail
  | @tailBinary c c₁ c' power op left right n binds ahead readRight present _ inner tail =>
    have notEnd : c.kind ≠ .endOfFile := by
      intro atEnd
      simp [atEnd, Kind.binaryOp?] at ahead
    have behind := (joins.advance notEnd).pastNewlines (readRight.operand_ahead (.inl present))
    obtain ⟨d₁, readGraft, joinsRight⟩ := inner behind trivial (.inl present)
    obtain ⟨d', readTail, joinsTail⟩ := tail joinsRight rfl trivial
    refine ⟨d', .tailBinary (by rwa [joins.kind notEnd]) (by rwa [joins.kind notEnd])
      (by rwa [joins.kind notEnd]) (by simpa [Node.shift] using present) ?_, joinsTail⟩
    simpa [Phrase.graft, Yield.graft, Node.shift, Node.mapSpans, Node.span_mapSpans _ grounded,
      Node.span_mapSpans _ present] using readTail
  | dottedDone stop =>
    exact ⟨d, .dottedDone (joins.stable closes (· ≠ .dot) (by simp) stop), joins⟩
  | @dottedNext c c' left n ahead named _ rest =>
    have notEnd : c.kind ≠ .endOfFile := by simp [ahead]
    have behind := (joins.advance notEnd).pastNewlines (by simp [named])
    obtain ⟨d', readRest, joinsRest⟩ := rest (behind.advance (by simp [named])) rfl trivial
    refine ⟨d', .dottedNext (by rwa [joins.kind notEnd]) (by rwa [behind.kind (by simp [named])]) ?_,
      joinsRest⟩
    rw [behind.next (by simp [named]), memberOf_shift _ _ grounded]
    exact readRest
  | @argumentsNone c opened closed =>
    have inside := (joins.advance (by simp [opened])).pastNewlines (by simp [closed])
    exact ⟨_, .argumentsNone (by rwa [joins.kind (by simp [opened])])
      (by rwa [inside.kind (by simp [closed])]), inside.advance (by simp [closed])⟩
  | @argumentsSome c c₁ c₂ n args opened notClosed readHead present _ closed head more =>
    have notEnd := readHead.expression_ahead (.inl present)
    have inside := (joins.advance (by simp [opened])).pastNewlines notEnd
    obtain ⟨d₁, readGraft, joinsHead⟩ := head inside trivial (.inl present)
    obtain ⟨d₂, readMore, joinsMore⟩ := more joinsHead trivial trivial
    have behind := joinsMore.pastNewlines (by simp [closed])
    exact ⟨_, .argumentsSome (by rwa [joins.kind (by simp [opened])]) (by rwa [inside.kind notEnd])
      readGraft (by simpa [Node.shift] using present) readMore
      (by rwa [behind.kind (by simp [closed])]), behind.advance (by simp [closed])⟩
  | argumentsDone stop =>
    exact ⟨d, .argumentsDone (joins.stable closes (· ≠ .comma) (by simp) stop), joins⟩
  | @argumentsNext c c₁ c' n args comma readHead present _ head more =>
    have behind := (joins.advance (by simp [comma])).pastNewlines
      (readHead.expression_ahead (.inl present))
    obtain ⟨d₁, readGraft, joinsHead⟩ := head behind trivial (.inl present)
    obtain ⟨d', readMore, joinsMore⟩ := more joinsHead trivial trivial
    exact ⟨d', .argumentsNext (by rwa [joins.kind (by simp [comma])]) readGraft
      (by simpa [Node.shift] using present) readMore, joinsMore⟩
  | expressionNothing _ operand =>
    obtain ⟨d', readGraft, joinsOperand⟩ := operand joins trivial settled
    exact ⟨d', .expressionNothing readGraft, joinsOperand⟩
  | expressionPlain _ present stop operand =>
    obtain ⟨d', readGraft, joinsOperand⟩ := operand joins trivial (.inl present)
    have stopGraft := joinsOperand.stable closes (assignsValue · = false) (fun _ => rfl) stop
    exact ⟨d', .expressionPlain readGraft (by simpa [Node.shift] using present) stopGraft,
      joinsOperand⟩
  | @expressionAssign c c₁ c' span target value _ assigns readValue present operand inner =>
    have notEnd := kind_ne_endOfFile (by decide) assigns
    obtain ⟨d₁, readTarget, joinsTarget⟩ := operand joins trivial (.inl rfl)
    have behind := (joinsTarget.advance notEnd).pastNewlines
      (readValue.expression_ahead (.inl present))
    obtain ⟨d', readGraft, joinsValue⟩ := inner behind trivial (.inl present)
    refine ⟨d', ?_, joinsValue⟩
    have read := Reads.expressionAssign readTarget (by rwa [joinsTarget.kind notEnd]) readGraft
      (by simpa [Node.shift] using present)
    simpa [Phrase.graft, Yield.graft, Node.shift, Node.mapSpans, joinsTarget.next notEnd, assignOp,
      Node.span_mapSpans _ present] using read
  | statementsDone stop => exact ⟨d, .statementsDone (by rwa [joins.kind settled]), joins⟩
  | @statementsNext c c₁ c' more n ns asks readHead present readMore head rest =>
    have notEnd := readHead.statement_ahead
    obtain ⟨d₁, readGraft, joinsHead⟩ := head joins trivial trivial
    have behind := joinsHead.pastSeparators
      (joinsHead.inside (Cursor.onward_skipWhile _ _) readMore.onward settled)
    obtain ⟨d', readRest, joinsRest⟩ := rest behind trivial settled
    exact ⟨d', .statementsNext (by rwa [joins.kind notEnd]) readGraft
      (by simpa [Node.shift] using present) readRest, joinsRest⟩
  | @block c c₁ ns opened readInner closed inner =>
    have notEnd : c.kind ≠ .endOfFile := by simp [opened]
    have notClosed : c₁.kind ≠ .endOfFile := by simp [closed]
    have inside := (joins.advance notEnd).pastSeparators
      (joins.inside (Onward.refl c.advance).advance.thenPastSeparators readInner.onward notClosed)
    obtain ⟨d₁, readGraft, joinsInner⟩ := inner inside trivial notClosed
    have behind := joinsInner.advance notClosed
    have taken := readInner.onward.thenAdvance.pastSeparators.taken notEnd
    refine ⟨_, ?_, behind⟩
    have read := Reads.block (by rwa [joins.kind notEnd]) readGraft (by rwa [joinsInner.kind notClosed])
    simpa [Phrase.graft, Yield.graft, Node.shift, Node.mapSpans, joins.next notEnd,
      behind.lastEnd taken, Span.shift] using read
  | @bodyBlock c c' n opened _ inner =>
    have behind := joins.pastNewlines (by simp [opened])
    obtain ⟨d', readGraft, joinsInner⟩ := inner behind trivial trivial
    exact ⟨d', .bodyBlock (by rwa [behind.kind (by simp [opened])]) readGraft, joinsInner⟩
  | @bodySingle c c' n notOpened readInner present inner =>
    have notEnd := readInner.statement_ahead
    have behind := joins.pastNewlines notEnd
    obtain ⟨d', readGraft, joinsInner⟩ := inner behind trivial trivial
    have taken : c'.last.isSome := readInner.onward.moved readInner.statement_lt
    refine ⟨d', ?_, joinsInner⟩
    have read := Reads.bodySingle (by rwa [behind.kind notEnd]) readGraft
      (by simpa [Node.shift] using present)
    simpa [Phrase.graft, Yield.graft, Node.shift, Node.mapSpans, behind.next notEnd,
      joinsInner.lastEnd taken, Span.shift] using read
  | @condition c c₁ n opened readTest present closed test =>
    have inside := (joins.advance (by simp [opened])).pastNewlines
      (readTest.expression_ahead (.inl present))
    obtain ⟨d₁, readGraft, joinsTest⟩ := test inside trivial (.inl present)
    have behind := joinsTest.pastNewlines (by simp [closed])
    exact ⟨_, .condition (by rwa [joins.kind (by simp [opened])]) readGraft
      (by simpa [Node.shift] using present) (by rwa [behind.kind (by simp [closed])]),
      behind.advance (by simp [closed])⟩
  | @variablePlain c start modifiers typed named notAssigned =>
    have notEnd := kind_ne_endOfFile (by decide) typed
    have first := joins.advance notEnd
    have second := first.advance (by simp [named])
    have taken := (Onward.refl c.advance).thenAdvance.taken notEnd
    refine ⟨_, ?_, second⟩
    have read := @Reads.variablePlain d (start.shift g.bytes g.lines) modifiers
      (by rwa [joins.kind notEnd]) (by rwa [first.kind (by simp [named])])
      (second.stable closes (· ≠ .assign) (by simp) notAssigned)
    simpa [Phrase.graft, Yield.graft, Node.shift, Node.mapSpans, joins.kind notEnd,
      first.next (by simp [named] : c.advance.kind ≠ _), second.lastEnd taken, Span.shift] using read
  | @variableInitial c c' start modifiers value typed named assigned readValue present inner =>
    have notEnd := kind_ne_endOfFile (by decide) typed
    have first := joins.advance notEnd
    have second := first.advance (by simp [named])
    have third := (second.advance (by simp [assigned])).pastNewlines
      (readValue.expression_ahead (.inl present))
    obtain ⟨d', readGraft, joinsValue⟩ := inner third trivial (.inl present)
    have taken : c'.last.isSome := readValue.onward.pastNewlines.advance.advance.taken notEnd
    refine ⟨d', ?_, joinsValue⟩
    have read := @Reads.variableInitial d d' (start.shift g.bytes g.lines) modifiers _
      (by rwa [joins.kind notEnd]) (by rwa [first.kind (by simp [named])])
      (by rwa [second.kind (by simp [assigned])]) readGraft (by simpa [Node.shift] using present)
    simpa [Phrase.graft, Yield.graft, Node.shift, Node.mapSpans, joins.kind notEnd,
      first.next (by simp [named] : c.advance.kind ≠ _), joinsValue.lastEnd taken, Span.shift] using read
  | @function c c₁ c' start modifiers names n ahead named readNames readBody body =>
    have notEnd : c.kind ≠ .endOfFile := by simp [ahead]
    have first := joins.advance notEnd
    obtain ⟨d₁, readGraftNames, joinsNames⟩ :=
      readNames.graft closes (first.advance (by simp [named]))
    have opened := readBody.block_kind
    have behind := joinsNames.pastNewlines (by simp [opened])
    obtain ⟨d', readGraft, joinsBody⟩ := body behind trivial trivial
    have taken : c'.last.isSome :=
      (readNames.onward.trans readBody.onward.pastNewlines).advance.taken notEnd
    refine ⟨d', ?_, joinsBody⟩
    have read := @Reads.function d d₁ d' (start.shift g.bytes g.lines) modifiers names _
      (by rwa [joins.kind notEnd]) (by rwa [first.kind (by simp [named])]) readGraftNames readGraft
    simpa [Phrase.graft, Yield.graft, Node.shift, Node.mapSpans,
      first.next (by simp [named] : c.advance.kind ≠ _), joinsBody.lastEnd taken, Span.shift] using read
  | @blueprint c c₁ start modifiers ns ahead named opened readMembers closed members =>
    have notEnd : c.kind ≠ .endOfFile := by simp [ahead]
    have notClosed : c₁.kind ≠ .endOfFile := by simp [closed]
    have first := joins.advance notEnd
    have second := (first.advance (by simp [named])).pastNewlines (by simp [opened])
    have third := second.advance (by simp [opened])
    have inside := third.pastSeparators
      (third.inside (Onward.refl _).thenPastSeparators readMembers.onward notClosed)
    obtain ⟨d₁, readGraft, joinsMembers⟩ := members inside trivial notClosed
    have behind := joinsMembers.advance notClosed
    have taken :=
      readMembers.onward.thenAdvance.pastSeparators.advance.pastNewlines.advance.taken notEnd
    refine ⟨_, ?_, behind⟩
    have read := @Reads.blueprint d d₁ (start.shift g.bytes g.lines) modifiers _
      (by rwa [joins.kind notEnd]) (by rwa [first.kind (by simp [named])])
      (by rwa [second.kind (by simp [opened])]) readGraft (by rwa [joinsMembers.kind notClosed])
    rw [sortMembers_shift] at read
    simpa [Phrase.graft, Yield.graft, Node.shift, Node.mapSpans, Members.map,
      first.next (by simp [named] : c.advance.kind ≠ _), behind.lastEnd taken, Span.shift] using read
  | membersDone stop => exact ⟨d, .membersDone (by rwa [joins.kind settled]), joins⟩
  | @membersNext c c₁ c' n ns inside begins _ readMore head rest =>
    have notEnd := kind_ne_endOfFile (by decide) begins
    obtain ⟨d₁, readGraft, joinsHead⟩ := head joins trivial trivial
    have behind := joinsHead.pastSeparators
      (joinsHead.inside (Cursor.onward_skipWhile _ _) readMore.onward settled)
    obtain ⟨d', readRest, joinsRest⟩ := rest behind trivial settled
    exact ⟨d', .membersNext (by rwa [joins.kind notEnd]) (by rwa [joins.kind notEnd]) readGraft
      readRest, joinsRest⟩
  | @member c c' n readDeclared declared =>
    have notEnd := (Reads.member readDeclared).member_ahead
    obtain ⟨d', readGraft, joinsDeclared⟩ := declared (joins.pastModifiers closes) trivial trivial
    refine ⟨d', .member ?_, joinsDeclared⟩
    rw [joins.next notEnd, joins.modifiersAhead closes]
    exact readGraft
  | @statementDeclaration c c' n begins _ declared =>
    have notEnd := kind_ne_endOfFile (by decide) begins
    obtain ⟨d', readGraft, joinsDeclared⟩ := declared (joins.pastModifiers closes) trivial trivial
    refine ⟨d', .statementDeclaration (by rwa [joins.kind notEnd]) ?_, joinsDeclared⟩
    rw [joins.next notEnd, joins.modifiersAhead closes]
    exact readGraft
  | @statementExpression c c' n plain readExpression present expression =>
    have notEnd := readExpression.expression_ahead (.inl present)
    obtain ⟨d', readGraft, joinsExpression⟩ := expression joins trivial (.inl present)
    exact ⟨d', .statementExpression (by rwa [joins.kind notEnd]) readGraft
      (by simpa [Node.shift] using present), joinsExpression⟩
  | @branchPlain c c₁ c' test yes ahead readTest readYes plain condition body =>
    have notEnd : c.kind ≠ .endOfFile := by simp [ahead]
    obtain ⟨d₁, readGraftTest, joinsTest⟩ := condition (joins.advance notEnd) trivial trivial
    obtain ⟨d', readGraftYes, joinsYes⟩ := body joinsTest trivial trivial
    have taken : c'.last.isSome := (readTest.onward.trans readYes.onward).taken notEnd
    refine ⟨d', ?_, joinsYes⟩
    have read := Reads.branchPlain (by rwa [joins.kind notEnd]) readGraftTest readGraftYes
      (joinsYes.pastNewlines_ne_else closes plain)
    simpa [Phrase.graft, Yield.graft, Node.shift, Node.mapSpans, joins.next notEnd,
      joinsYes.lastEnd taken, Span.shift] using read
  | @branchElse c c₁ c₂ c' test yes no ahead readTest readYes otherwise plain readNo condition body
      alternative =>
    have notEnd : c.kind ≠ .endOfFile := by simp [ahead]
    obtain ⟨d₁, readGraftTest, joinsTest⟩ := condition (joins.advance notEnd) trivial trivial
    obtain ⟨d₂, readGraftYes, joinsYes⟩ := body joinsTest trivial trivial
    have atElse := joinsYes.pastNewlines (by simp [otherwise])
    have notDone : c₂.pastNewlines.advance.pastNewlines.kind ≠ .endOfFile := by
      simpa using readNo.body_ahead
    have behind := (atElse.advance (by simp [otherwise])).pastNewlines notDone
    obtain ⟨d', readGraftNo, joinsNo⟩ := alternative behind trivial trivial
    have taken : c'.last.isSome := (readTest.onward.trans (readYes.onward.trans
      readNo.onward.pastNewlines.advance.pastNewlines)).taken notEnd
    refine ⟨d', ?_, joinsNo⟩
    have read := Reads.branchElse (by rwa [joins.kind notEnd]) readGraftTest readGraftYes
      (by rwa [atElse.kind (by simp [otherwise])]) (by rwa [behind.kind notDone]) readGraftNo
    simpa [Phrase.graft, Yield.graft, Node.shift, Node.mapSpans, joins.next notEnd,
      joinsNo.lastEnd taken, Span.shift] using read
  | @branchElseIf c c₁ c₂ c' test yes inner ahead readTest readYes otherwise again readInner condition
      body alternative =>
    have notEnd : c.kind ≠ .endOfFile := by simp [ahead]
    obtain ⟨d₁, readGraftTest, joinsTest⟩ := condition (joins.advance notEnd) trivial trivial
    obtain ⟨d₂, readGraftYes, joinsYes⟩ := body joinsTest trivial trivial
    have atElse := joinsYes.pastNewlines (by simp [otherwise])
    have behind := (atElse.advance (by simp [otherwise])).pastNewlines (by simp [again])
    obtain ⟨d', readGraftInner, joinsInner⟩ := alternative behind trivial trivial
    have taken : c'.last.isSome := (readTest.onward.trans (readYes.onward.trans
      readInner.onward.pastNewlines.advance.pastNewlines)).taken notEnd
    refine ⟨d', ?_, joinsInner⟩
    have read := Reads.branchElseIf (by rwa [joins.kind notEnd]) readGraftTest readGraftYes
      (by rwa [atElse.kind (by simp [otherwise])]) (by rwa [behind.kind (by simp [again])])
      readGraftInner
    simpa [Phrase.graft, Yield.graft, Node.shift, Node.mapSpans, joins.next notEnd,
      atElse.next (by simp [otherwise] : c₂.pastNewlines.kind ≠ _), joinsInner.lastEnd taken,
      Span.shift] using read
  | @whileLoop c c₁ c' test inner ahead readTest readInner condition body =>
    have notEnd : c.kind ≠ .endOfFile := by simp [ahead]
    obtain ⟨d₁, readGraftTest, joinsTest⟩ := condition (joins.advance notEnd) trivial trivial
    obtain ⟨d', readGraftInner, joinsInner⟩ := body joinsTest trivial trivial
    have taken : c'.last.isSome := (readTest.onward.trans readInner.onward).taken notEnd
    refine ⟨d', ?_, joinsInner⟩
    have read := Reads.whileLoop (by rwa [joins.kind notEnd]) readGraftTest readGraftInner
    simpa [Phrase.graft, Yield.graft, Node.shift, Node.mapSpans, joins.next notEnd,
      joinsInner.lastEnd taken, Span.shift] using read
  | @doWhileLoop c c₁ c' test inner ahead readInner found readTest body condition =>
    have notEnd : c.kind ≠ .endOfFile := by simp [ahead]
    obtain ⟨d₁, readGraftInner, joinsInner⟩ := body (joins.advance notEnd) trivial trivial
    have behind := joinsInner.pastNewlines (by simp [found])
    obtain ⟨d', readGraftTest, joinsTest⟩ :=
      condition (behind.advance (by simp [found])) trivial trivial
    have taken : c'.last.isSome :=
      (readInner.onward.trans readTest.onward.advance.pastNewlines).taken notEnd
    refine ⟨d', ?_, joinsTest⟩
    have read := Reads.doWhileLoop (by rwa [joins.kind notEnd]) readGraftInner
      (by rwa [behind.kind (by simp [found])]) readGraftTest
    simpa [Phrase.graft, Yield.graft, Node.shift, Node.mapSpans, joins.next notEnd,
      joinsTest.lastEnd taken, Span.shift] using read
  | @forLoop c c₁ c₂ c₃ c' first test round inner ahead opened readFirst closed readTest closedTest
      readRound closedRound readInner start part step body =>
    have notEnd : c.kind ≠ .endOfFile := by simp [ahead]
    have notEnd₁ : c₁.kind ≠ .endOfFile := by simp [closed]
    have notEnd₂ : c₂.kind ≠ .endOfFile := by simp [closedTest]
    have notEnd₃ : c₃.kind ≠ .endOfFile :=
      Cursor.kind_ne_endOfFile_of_pastNewlines (by simp [closedRound])
    have atParen := joins.advance notEnd
    have paren := atParen.advance (by simp [opened])
    have header := paren.pastNewlines
      (paren.inside (Onward.refl _).thenPastNewlines readFirst.onward notEnd₁)
    obtain ⟨d₁, readGraftFirst, joinsFirst⟩ := start header trivial (.inr notEnd₁)
    have behindFirst := joinsFirst.advance notEnd₁
    have header₁ := behindFirst.pastNewlines
      (behindFirst.inside (Onward.refl _).thenPastNewlines readTest.onward notEnd₂)
    obtain ⟨d₂, readGraftTest, joinsTest⟩ := part header₁ trivial (.inr notEnd₂)
    have behindTest := joinsTest.advance notEnd₂
    have header₂ := behindTest.pastNewlines
      (behindTest.inside (Onward.refl _).thenPastNewlines readRound.onward notEnd₃)
    obtain ⟨d₃, readGraftRound, joinsRound⟩ := step header₂ trivial (.inr notEnd₃)
    have behindRound := joinsRound.pastNewlines (by simp [closedRound])
    obtain ⟨d', readGraftInner, joinsInner⟩ :=
      body (behindRound.advance (by simp [closedRound])) trivial trivial
    have taken : c'.last.isSome := (readFirst.onward.trans (readTest.onward.trans
      (readRound.onward.trans readInner.onward.advance.pastNewlines).pastNewlines.advance
      ).pastNewlines.advance).pastNewlines.advance.taken notEnd
    refine ⟨d', ?_, joinsInner⟩
    have read := Reads.forLoop (by rwa [joins.kind notEnd]) (by rwa [atParen.kind (by simp [opened])])
      readGraftFirst (by rwa [joinsFirst.kind notEnd₁]) readGraftTest
      (by rwa [joinsTest.kind notEnd₂]) readGraftRound
      (by rwa [behindRound.kind (by simp [closedRound])]) readGraftInner
    simpa [Phrase.graft, Yield.graft, Node.shift, Node.mapSpans, joins.next notEnd,
      joinsInner.lastEnd taken, Span.shift] using read
  | forStartNone ahead =>
    exact ⟨d, .forStartNone (by rwa [joins.kind (by simp [ahead])]), joins⟩
  | @forStartVariable c c' n typed _ declared =>
    have notEnd := kind_ne_endOfFile (by decide) typed
    obtain ⟨d', readGraft, joinsDeclared⟩ := declared joins trivial trivial
    refine ⟨d', .forStartVariable (by rwa [joins.kind notEnd]) ?_, joinsDeclared⟩
    rw [joins.next notEnd]
    exact readGraft
  | @forStartExpression c c' n notEmpty notTyped readExpression expression =>
    have notEnd := readExpression.expression_ahead settled
    obtain ⟨d', readGraft, joinsExpression⟩ := expression joins trivial settled
    exact ⟨d', .forStartExpression (by rwa [joins.kind notEnd]) (by rwa [joins.kind notEnd]) readGraft,
      joinsExpression⟩
  | @forPartNone c closing ahead =>
    have notEnd : c.kind ≠ .endOfFile := settled.resolve_left (by simp [Node.isAbsent])
    exact ⟨d, .forPartNone (by rwa [joins.kind notEnd]), joins⟩
  | @forPartSome c c' closing n notClosed readExpression expression =>
    have notEnd := readExpression.expression_ahead settled
    obtain ⟨d', readGraft, joinsExpression⟩ := expression joins trivial settled
    exact ⟨d', .forPartSome (by rwa [joins.kind notEnd]) readGraft, joinsExpression⟩

end Parser

end ClassScript
