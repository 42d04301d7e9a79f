import ClassScript.Proofs.Parser.Diagnostics.Expression

/-! # Diagnostics of statements

A statement that is missing at the end of the source is complained about there, and then the end token is taken as
if it were a statement (`unexpected_sound`).  All other rules keep the parser in one of its two states, whichever
it is in.
-/

namespace ClassScript.Parser

variable {source : List UInt8}

theorem expect_sound {c : Cursor} (sound : Sound source c) {kind : Kind} (notEnd : kind ≠ .endOfFile) :
    Gives (expect kind) c fun _ c' => Sound source c' := by
  rw [gives_expect]
  split
  case isTrue same =>
    subst same
    exact sound.advance notEnd
  case isFalse => exact sound.complain rfl

theorem require_sound {c : Cursor} (sound : Sound source c) {kind : Kind} (notEnd : kind ≠ .endOfFile) :
    Gives (require kind) c fun _ c' => Sound source c' := by
  simp only [require, gives_bind, gives_pure]
  exact expect_sound sound notEnd

theorem orNull_sound {c : Cursor} (sound : Sound source c) (found : Node) {complaint : Token → Complaint}
    (other : ∀ t, isUnexpected (complaint t) = false) :
    Gives (orNull found complaint) c fun _ c' => Sound source c' := by
  rw [orNull]
  split
  · simp only [gives_bind, gives_peek, gives_complain, gives_pure]
    exact sound.complain (other _)
  · exact (gives_pure found).2 sound

theorem params_sound {c : Cursor} (sound : Sound source c) : Gives params c fun _ c' => Sound source c' := by
  simp only [params, gives_bind]
  refine (expect_sound sound (by decide)).mono ?_
  rintro ⟨_, opened⟩ c₁ sound
  cases opened with
  | false => exact (gives_pure _).2 sound
  | true =>
    simp only [Bool.not_true, Bool.false_eq_true, ↓reduceIte, gives_bind, gives_skipNewlines, gives_peekKind]
    split
    · simp only [gives_bind, gives_skipNewlines, gives_pure]
      exact require_sound sound.pastNewlines.pastNewlines (by decide)
    · simp only [gives_bind, gives_skipNewlines, gives_pure]
      refine (expect_sound sound.pastNewlines (by decide)).mono fun first c₂ sound => ?_
      refine Gives.mono (gives_loop_from (I := fun _ c' => Sound source c') ?_ sound) fun names c₃ sound => ?_
      · intro names c₃ comma sound
        simp only [gives_bind, gives_advance, gives_skipNewlines, gives_pure]
        exact expect_sound (sound.advance (by simp_all)).pastNewlines (by decide)
      · exact require_sound sound.pastNewlines (by decide)

theorem modifiers_sound (inClass : Bool) {c : Cursor} (sound : Sound source c) :
    Gives (modifiers inClass) c fun _ c' => Sound source c' := by
  refine gives_loop_from (fun seen c₁ isModifier sound => ?_) sound
  simp only [gives_bind, gives_advance, gives_pure]
  exact sound.advance (kind_ne_endOfFile (by decide) isModifier)

/-- A token that begins no statement is complained about and taken.  At the end this leads astray. -/
theorem unexpected_sound {c : Cursor} (clear : Clear source c) :
    Sound source (c.complain (.unexpectedToken c.next.lexeme) c.next.span).advance := by
  have here := clear.here
  by_cases atEnd : c.kind = .endOfFile
  · -- The complaint is the one about a missing statement, and nothing is left to be read.
    have isEnd := here.next_eq_endToken atEnd
    have final : Position.start.advance source = Position.behind source := Position.advance_behind [] source
    refine .inr ⟨?_, c.diagnostics, [], ?_, clear.pointed, by simp⟩
    · exact (here.complain _ _).rest_advance_of_atEnd atEnd
    · rw [Cursor.diagnostics_advance, Cursor.complain, isEnd]
      simp only [endToken, final]
      rfl
  · -- Any other token begins before the end of the source.
    have before := first_lt_of_mem_tokenize here.next_mem atEnd
    have pointed : Pointed source ⟨.unexpectedToken c.next.lexeme, c.next.span, .error, ""⟩ := by
      refine ⟨here.next_in, fun same => ?_⟩
      have span : c.next.span = ⟨.behind source, .behind source⟩ := congrArg Diagnostic.span same
      rw [span, Position.offset_behind] at before
      omega
    exact Sound.advance (clear.stay.complain pointed).sound atEnd

section Rules

variable {rec : Goal → Parser Node} (tracks : Tracks source rec)

include tracks

theorem expression_sound {c : Cursor} (sound : Sound source c) :
    Gives (rec .expression) c fun _ c' => Sound source c' := by
  cases sound with
  | inl clear => exact (tracks.expression c clear).mono fun n c' reached => reached.goes.sound
  | inr past =>
    refine (tracks.expressionAtEnd c past.kind_eq).mono ?_
    rintro _ _ ⟨_, rfl⟩
    exact .inr past

theorem statements_sound (more : Kind → Bool) {c : Cursor} (sound : Sound source c) :
    Gives (statements rec more) c fun _ c' => Sound source c' := by
  simp only [statements, gives_bind, gives_skipSeparators]
  refine gives_loop_from (fun nodes c₁ _ sound => ?_) sound.pastSeparators
  simp only [gives_bind, gives_skipSeparators, gives_pure]
  exact (tracks.statement c₁ sound).mono fun node c' sound => sound.pastSeparators

theorem block_sound {c : Cursor} (sound : Sound source c) :
    Gives (block rec) c fun _ c' => Sound source c' := by
  simp only [block, gives_bind, gives_peek]
  refine (expect_sound sound (by decide)).mono ?_
  rintro ⟨_, opened⟩ c₁ sound
  cases opened with
  | false =>
    simp only [Bool.not_false, ↓reduceIte, gives_bind, gives_synchronize, gives_spanFrom, gives_pure]
    exact sound.synchronized
  | true =>
    simp only [Bool.not_true, Bool.false_eq_true, ↓reduceIte, gives_bind, gives_spanFrom, gives_pure]
    refine (statements_sound tracks _ sound).mono fun children c₂ sound => ?_
    exact require_sound sound (by decide)

theorem body_sound {c : Cursor} (sound : Sound source c) : Gives (body rec) c fun _ c' => Sound source c' := by
  simp only [body, gives_bind, gives_skipNewlines, gives_peekKind]
  split
  · exact block_sound tracks sound.pastNewlines
  · simp only [gives_bind, gives_peek, gives_spanFrom, gives_pure]
    exact tracks.statement _ sound.pastNewlines

theorem condition_sound {c : Cursor} (sound : Sound source c) :
    Gives (condition rec) c fun _ c' => Sound source c' := by
  simp only [condition, gives_bind]
  refine (expect_sound sound (by decide)).mono ?_
  rintro ⟨_, opened⟩ c₁ sound
  cases opened with
  | false => exact (gives_pure _).2 sound
  | true =>
    simp only [Bool.not_true, Bool.false_eq_true, ↓reduceIte, gives_bind, gives_skipNewlines]
    refine (expression_sound tracks sound.pastNewlines).mono fun found c₂ sound => ?_
    split
    · simp only [gives_bind, gives_peek, gives_complain, gives_skipNewlines, gives_pure]
      exact require_sound (sound.complain rfl).pastNewlines (by decide)
    · simp only [gives_bind, gives_skipNewlines, gives_pure]
      exact require_sound sound.pastNewlines (by decide)

theorem variableDeclaration_sound (start : Position) (modifiers : Modifiers) {c : Cursor}
    (sound : Sound source c) (notEnd : c.kind ≠ .endOfFile) :
    Gives (variableDeclaration rec start modifiers) c fun _ c' => Sound source c' := by
  simp only [variableDeclaration, gives_bind, gives_advance]
  refine (expect_sound (sound.advance notEnd) (by decide)).mono ?_
  rintro ⟨name, found⟩ c₁ sound
  cases found with
  | false =>
    simp only [Bool.not_false, ↓reduceIte, gives_bind, gives_synchronize, gives_spanFrom, gives_pure]
    exact sound.synchronized
  | true =>
    simp only [Bool.not_true, Bool.false_eq_true, ↓reduceIte, gives_bind, gives_peekKind]
    split
    case isTrue assigned =>
      simp only [gives_bind, gives_advance, gives_skipNewlines, gives_spanFrom, gives_pure]
      refine (expression_sound tracks (sound.advance (by simp [assigned])).pastNewlines).mono fun value c₂ sound => ?_
      exact orNull_sound sound value fun _ => rfl
    case isFalse =>
      simp only [gives_bind, gives_spanFrom, gives_pure]
      exact sound

theorem functionDeclaration_sound (start : Position) (modifiers : Modifiers) {c : Cursor}
    (sound : Sound source c) (notEnd : c.kind ≠ .endOfFile) :
    Gives (functionDeclaration rec start modifiers) c fun _ c' => Sound source c' := by
  simp only [functionDeclaration, gives_bind, gives_advance]
  refine (expect_sound (sound.advance notEnd) (by decide)).mono ?_
  rintro ⟨name, found⟩ c₁ sound
  cases found with
  | false =>
    simp only [Bool.not_false, ↓reduceIte, gives_bind, gives_synchronize, gives_spanFrom, gives_pure]
    exact sound.synchronized
  | true =>
    simp only [Bool.not_true, Bool.false_eq_true, ↓reduceIte, gives_bind, gives_skipNewlines, gives_spanFrom,
      gives_pure]
    refine (params_sound sound).mono fun names c₂ sound => ?_
    exact block_sound tracks sound.pastNewlines

theorem addMember_sound (members : Members) {c : Cursor} (sound : Sound source c)
    (inside : insideBlock c.kind = true) : Gives (addMember rec members) c fun _ c' => Sound source c' := by
  simp only [addMember, gives_bind, gives_peek]
  split
  · simp only [gives_bind, gives_skipSeparators, gives_pure]
    exact (tracks.member c sound).mono fun member c' sound => sound.pastSeparators
  · simp only [gives_bind, gives_complain, gives_advance, gives_synchronize, gives_skipSeparators, gives_pure]
    -- Members are only read inside of the block, so the token that is dropped is not the end.
    have notEnd := insideBlock_ne_endOfFile inside
    exact Sound.pastSeparators (Sound.synchronized (Sound.advance (sound.complain rfl) notEnd))

theorem classDeclaration_sound (start : Position) (modifiers : Modifiers) {c : Cursor}
    (sound : Sound source c) (notEnd : c.kind ≠ .endOfFile) :
    Gives (classDeclaration rec start modifiers) c fun _ c' => Sound source c' := by
  simp only [classDeclaration, gives_bind, gives_advance]
  refine (expect_sound (sound.advance notEnd) (by decide)).mono ?_
  rintro ⟨name, found⟩ c₁ sound
  cases found with
  | false =>
    simp only [Bool.not_false, ↓reduceIte, gives_bind, gives_synchronize, gives_spanFrom, gives_pure]
    exact sound.synchronized
  | true =>
    simp only [Bool.not_true, Bool.false_eq_true, ↓reduceIte, gives_bind, gives_skipNewlines]
    refine (expect_sound sound.pastNewlines (by decide)).mono ?_
    rintro ⟨_, opened⟩ c₂ sound
    cases opened with
    | false =>
      simp only [Bool.not_false, ↓reduceIte, gives_bind, gives_synchronize, gives_spanFrom, gives_pure]
      exact sound.synchronized
    | true =>
      simp only [Bool.not_true, Bool.false_eq_true, ↓reduceIte, gives_bind, gives_skipSeparators, gives_spanFrom,
        gives_pure]
      refine Gives.mono (gives_loop_from (I := fun _ c' => Sound source c') ?_ sound.pastSeparators)
        fun members c₃ sound => require_sound sound (by decide)
      intro members c₃ inside sound
      exact addMember_sound tracks members sound inside

theorem declaration_sound (inClass : Bool) {c : Cursor} (sound : Sound source c) :
    Gives (declaration rec inClass) c fun _ c' => Sound source c' := by
  simp only [declaration, gives_bind, gives_peek]
  refine (modifiers_sound inClass sound).mono fun modifiers c₁ sound => ?_
  split
  case isTrue typed => exact variableDeclaration_sound tracks _ _ sound (kind_ne_endOfFile (by decide) typed)
  case isFalse =>
    split
    case isTrue is => exact functionDeclaration_sound tracks _ _ sound (by simp [Cursor.kind, is])
    case isFalse =>
      split
      case isTrue is => exact classDeclaration_sound tracks _ _ sound (by simp [Cursor.kind, is])
      case isFalse =>
        simp only [gives_bind, gives_complain, gives_synchronize, gives_pure]
        exact (sound.complain rfl).synchronized

theorem branch_sound {c : Cursor} (sound : Sound source c) (notEnd : c.kind ≠ .endOfFile) :
    Gives (branch rec) c fun _ c' => Sound source c' := by
  simp only [branch, gives_bind, gives_advance, gives_get, gives_skipNewlines, gives_peekKind]
  refine (condition_sound tracks (sound.advance notEnd)).mono fun test c₁ sound => ?_
  refine (body_sound tracks sound).mono fun yes c₂ sound => ?_
  split
  case isTrue isElse =>
    simp only [gives_bind, gives_advance, gives_skipNewlines, gives_peekKind]
    have other := (sound.pastNewlines.advance (by simp [isElse])).pastNewlines
    split
    · simp only [gives_bind, gives_spanFrom, gives_pure]
      exact tracks.statement _ other
    · simp only [gives_bind, gives_spanFrom, gives_pure]
      exact body_sound tracks other
  case isFalse =>
    -- The search for an alternative is undone.
    simp only [gives_bind, gives_set, gives_spanFrom, gives_pure]
    exact sound

theorem whileLoop_sound {c : Cursor} (sound : Sound source c) (notEnd : c.kind ≠ .endOfFile) :
    Gives (whileLoop rec) c fun _ c' => Sound source c' := by
  simp only [whileLoop, gives_bind, gives_advance, gives_spanFrom, gives_pure]
  refine (condition_sound tracks (sound.advance notEnd)).mono fun test c₁ sound => ?_
  exact body_sound tracks sound

theorem doWhileLoop_sound {c : Cursor} (sound : Sound source c) (notEnd : c.kind ≠ .endOfFile) :
    Gives (doWhileLoop rec) c fun _ c' => Sound source c' := by
  simp only [doWhileLoop, gives_bind, gives_advance, gives_skipNewlines]
  refine (body_sound tracks (sound.advance notEnd)).mono fun inner c₁ sound => ?_
  -- The body may have taken the end token; then there is no place for the complaint about its condition.
  refine (expect_sound sound.pastNewlines (by decide)).mono ?_
  rintro ⟨_, found⟩ c₂ sound
  cases found with
  | false =>
    simp only [Bool.false_eq_true, ↓reduceIte, gives_bind, gives_spanFrom, gives_pure]
    exact sound
  | true =>
    simp only [↓reduceIte, gives_bind, gives_spanFrom, gives_pure]
    exact condition_sound tracks sound

theorem forStart_sound {c : Cursor} (sound : Sound source c) :
    Gives (forStart rec) c fun _ c' => Sound source c' := by
  simp only [forStart, gives_bind, gives_peek]
  split
  case isTrue => exact (gives_pure _).2 sound
  case isFalse =>
    split
    case isTrue typed => exact variableDeclaration_sound tracks _ _ sound (kind_ne_endOfFile (by decide) typed)
    case isFalse => exact expression_sound tracks sound

theorem forPart_sound (closing : Kind) {c : Cursor} (sound : Sound source c) :
    Gives (forPart rec closing) c fun _ c' => Sound source c' := by
  simp only [forPart, gives_bind, gives_peekKind]
  split
  · exact (gives_pure _).2 sound
  · exact expression_sound tracks sound

theorem forLoop_sound {c : Cursor} (sound : Sound source c) (notEnd : c.kind ≠ .endOfFile) :
    Gives (forLoop rec) c fun _ c' => Sound source c' := by
  simp only [forLoop, gives_bind, gives_advance]
  refine (expect_sound (sound.advance notEnd) (by decide)).mono ?_
  rintro ⟨_, opened⟩ c₁ sound
  cases opened with
  | false =>
    simp only [Bool.not_false, ↓reduceIte, gives_bind, gives_synchronize, gives_spanFrom, gives_pure]
    exact sound.synchronized
  | true =>
    simp only [Bool.not_true, Bool.false_eq_true, ↓reduceIte, gives_bind, gives_skipNewlines, gives_spanFrom,
      gives_pure]
    refine (forStart_sound tracks sound.pastNewlines).mono fun first c₂ sound => ?_
    refine (require_sound sound (by decide)).mono fun _ c₃ sound => ?_
    refine (forPart_sound tracks _ sound.pastNewlines).mono fun test c₄ sound => ?_
    refine (require_sound sound (by decide)).mono fun _ c₅ sound => ?_
    refine (forPart_sound tracks _ sound.pastNewlines).mono fun round c₆ sound => ?_
    refine (require_sound sound.pastNewlines (by decide)).mono fun _ c₇ sound => ?_
    exact body_sound tracks sound

theorem expressionStatement_sound {c : Cursor} (sound : Sound source c) :
    Gives (expressionStatement rec) c fun _ c' => Sound source c' := by
  simp only [expressionStatement, gives_bind]
  cases sound with
  | inl clear =>
    -- Only here the end token can be taken: an expression that is absent may be so because nothing is left.
    refine (tracks.expression c clear).mono fun found c₁ reached => ?_
    split
    · simp only [gives_bind, gives_peek, gives_complain, gives_advance, gives_synchronize, gives_pure]
      exact (unexpected_sound reached.goes.clear).synchronized
    · exact (gives_pure found).2 reached.goes.sound
  | inr past =>
    refine (tracks.expressionAtEnd c past.kind_eq).mono ?_
    rintro _ _ ⟨rfl, rfl⟩
    simp only [Node.isAbsent, ↓reduceIte, gives_bind, gives_peek, gives_complain, gives_advance,
      gives_synchronize, gives_pure]
    exact Sound.synchronized (.inr (past.complain _).advance)

theorem statement_sound {c : Cursor} (sound : Sound source c) :
    Gives (statement rec) c fun _ c' => Sound source c' := by
  simp only [statement, gives_bind, gives_peek]
  split
  case h_1 is => exact functionDeclaration_sound tracks _ _ sound (by simp [Cursor.kind, is])
  case h_2 is => exact classDeclaration_sound tracks _ _ sound (by simp [Cursor.kind, is])
  case h_3 is => exact branch_sound tracks sound (by simp [Cursor.kind, is])
  case h_4 is => exact whileLoop_sound tracks sound (by simp [Cursor.kind, is])
  case h_5 is => exact doWhileLoop_sound tracks sound (by simp [Cursor.kind, is])
  case h_6 is => exact forLoop_sound tracks sound (by simp [Cursor.kind, is])
  case h_7 =>
    split
    · exact declaration_sound tracks false sound
    · exact expressionStatement_sound tracks sound

/-- Each rule of the grammar does what is asked of its parts. -/
theorem tracks_rule : Tracks source (rule rec) where
  operand := fun power _ clear => operand_goes tracks power clear
  expression := fun _ clear => expression_goes tracks clear
  operandAtEnd := fun power _ atEnd => operand_atEnd atEnd power
  expressionAtEnd := fun _ atEnd => expression_atEnd tracks atEnd
  statement := fun _ sound => statement_sound tracks sound
  member := fun _ sound => declaration_sound tracks true sound

end Rules

end ClassScript.Parser
