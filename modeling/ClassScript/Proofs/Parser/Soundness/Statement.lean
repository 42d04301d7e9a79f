import ClassScript.Proofs.Parser.Soundness.Expression

/-! # Runs of statements and declarations

The lemmas of `ClassScript.Proofs.Parser.Soundness.Expression`, for the functions that parse statements,
declarations and the lists they hold.
-/

namespace ClassScript.Parser

open Cursor (Ran Moves)

section Rules

variable {rec : Goal → Parser Node} {n : Nat} {c : Cursor}

/-! ## Lists of names and modifiers -/

theorem ends_modifiers {Q : Modifiers → Cursor → Prop} (inClass : Bool) :
    Ends (modifiers inClass) c Q ↔ Q (modifiersAhead c inClass) c.pastModifiers := by
  have run : Ends (modifiers inClass) c fun seen c' =>
      seen = modifiersAhead c inClass ∧ c' = c.pastModifiers := by
    -- The invariant speaks of the modifiers still ahead, so that those already seen can be any.
    refine ends_loop (fun seen c all c' =>
      all = (c.rest.takeWhile fun t => t.kind.isModifier).foldl
        (fun seen t => withModifier seen t.kind) seen ∧ c' = c.pastModifiers) c.rest.length
      ?_ ?_ _ c (Nat.le_refl _)
    · intro seen c stop
      exact ⟨by rw [Cursor.takeWhile_of_stopped stop, List.foldl_nil],
        (Cursor.pastModifiers_eq_self stop).symm⟩
    · intro seen c _ modifier
      have notEnd : c.kind ≠ .endOfFile := by
        intro atEnd
        simp [atEnd, Kind.isModifier] at modifier
      simp only [ends_bind, ends_advance, ends_pure]
      refine ⟨Cursor.advance_lt notEnd, ?_⟩
      rintro all c' ⟨rfl, rfl⟩
      exact ⟨by rw [Cursor.takeWhile_of_skipped notEnd modifier, List.foldl_cons, Cursor.next_kind],
        (Cursor.skipWhile_of_skipped notEnd modifier).symm⟩
  -- A parser ends in one way only, so this is also all that it can end in.
  constructor
  · rintro ⟨seen, c', runs, holds⟩
    obtain ⟨seen', c'', runs', rfl, rfl⟩ := run
    cases runs.symm.trans runs'
    exact holds
  · intro holds
    exact run.mono fun seen c' same => same.1 ▸ same.2 ▸ holds

theorem moreNames_ends (names : List String) :
    Ends (loop (· = .comma) (fun names => do
        let _ ← advance
        skipNewlines
        let (name, found) ← expect .identifier
        return if found then names ++ [name.lexeme] else names) names) c fun all c' =>
      Ran c c' (∃ more, all = names ++ more ∧ ReadsMoreNames c more c') := by
  refine ends_loop (fun names c all c' =>
    Ran c c' (∃ more, all = names ++ more ∧ ReadsMoreNames c more c')) c.rest.length
    ?_ ?_ names c (Nat.le_refl _)
  · intro names c stop
    exact .rfl ⟨[], by simp, .done (by simpa using stop)⟩
  · intro names c _ comma
    simp only [decide_eq_true_eq] at comma
    have taken : c.advance.rest.length < c.rest.length := Cursor.advance_lt (by simp [comma])
    have passed := c.advance.moves_pastNewlines.length_le
    have named := c.advance.pastNewlines.moves_advance.length_le
    simp only [ends_bind, ends_advance, ends_skipNewlines, ends_expect, ends_pure]
    split
    next found =>
      refine ⟨by omega, fun all c₂ rest => (rest.mono ?_).advance.pastNewlines.advance⟩
      rintro ⟨more, rfl, readMore⟩
      exact ⟨_ :: more, by simp, .next comma found readMore⟩
    next =>
      -- A missing name is complained about, and then nothing has to have been read.
      refine ⟨by simp only [Cursor.complain]; omega, fun all c₂ rest => ?_⟩
      exact ((Ran.rfl trivial).complained rest.moves).pastNewlines.advance

theorem params_ends : Ends params c fun names c' => Ran c c' (ReadsParams c names c') := by
  simp only [params, ends_bind, ends_expect]
  split
  next opened =>
    simp only [Bool.not_true, Bool.false_eq_true, ↓reduceIte, ends_bind, ends_skipNewlines,
      ends_peekKind]
    split
    next closed =>
      simp only [ends_bind, ends_pure, ends_skipNewlines, Cursor.pastNewlines_pastNewlines,
        ends_require, closed, ↓reduceIte]
      exact (Ran.rfl (.none opened closed)).advance.pastNewlines.advance
    next =>
      -- The other names are looked for whether or not there is a first one.
      simp only [ends_bind, ends_expect]
      split
      next found =>
        simp only [ends_pure, ↓reduceIte, List.nil_append]
        refine (moreNames_ends _).mono fun names c₁ rest => ?_
        rw [ends_skipNewlines]
        refine require_ends rest.thenPastNewlines fun c' ran _ => ?_
        refine (ran.mono ?_).advance.pastNewlines.advance
        rintro ⟨⟨more, rfl, readMore⟩, closed, rfl⟩
        exact .some opened found readMore closed
      next =>
        simp only [ends_pure, Bool.false_eq_true, ↓reduceIte]
        refine (moreNames_ends _).mono fun names c₁ rest => ?_
        rw [ends_skipNewlines]
        refine require_ends rest.thenPastNewlines fun c' ran _ => ?_
        exact ((Ran.rfl trivial).complained ran.moves).pastNewlines.advance
  next =>
    simp only [Bool.not_false, ↓reduceIte, ends_pure]
    exact (Ran.rfl trivial).complained (.refl _)

/-! ## Blocks -/

/-- A statement that is read is there. -/
theorem Reads.statement_present {c' : Cursor} {node : Node}
    (read : Reads (.goal .statement) c (.node node) c') : node.isAbsent = false := by
  cases read with
  | statementDeclaration _ declared => cases declared <;> rfl
  | statementExpression _ _ present => exact present
  | _ => rfl

theorem statements_ends (below : Below rec n) {more : Kind → Bool} (atEnd : more .endOfFile = false)
    (short : c.rest.length < n) :
    Ends (statements rec more) c fun nodes c' =>
      Ran c c' (Reads (.statements more) c.pastSeparators (.nodes nodes) c') := by
  have passed := c.moves_pastSeparators.length_le
  simp only [statements, ends_bind, ends_skipSeparators]
  refine Ends.mono (ends_loop (fun nodes c all c' =>
    Ran c c' (∃ ns, all = nodes ++ ns ∧ Reads (.statements more) c (.nodes ns) c')) (n - 1)
    ?_ ?_ [] c.pastSeparators (by omega)) ?_
  · intro nodes c stop
    exact .rfl ⟨[], by simp, .statementsDone stop⟩
  · intro nodes c within asks
    simp only [ends_bind, ends_skipSeparators, ends_pure]
    refine (below .statement c (by omega)).mono fun node c₁ first => ?_
    -- A statement that takes no token stands at the end of the file, which asks for none.
    have shorter : c₁.rest.length < c.rest.length := by
      apply first.advances
      rintro ends
      simp [ends, atEnd] at asks
    have separated := c₁.moves_pastSeparators.length_le
    refine ⟨by omega, fun all c₂ rest => (first.ran.seq rest.pastSeparators).mono ?_⟩
    rintro ⟨read, ns, rfl, readRest⟩
    have present := read.statement_present
    exact ⟨node :: ns, by simp [keep, present], .statementsNext asks read present readRest⟩
  · intro nodes c' ran
    refine (ran.mono ?_).pastSeparators
    rintro ⟨ns, rfl, read⟩
    exact read

theorem block_ends (below : Below rec n) (short : c.rest.length ≤ n) :
    Ends (block rec) c fun node c' => Ran c c' (Reads .block c (.node node) c') := by
  simp only [block, ends_bind, ends_peek, ends_expect]
  split
  next opened =>
    have taken : c.advance.rest.length < c.rest.length := Cursor.advance_lt (by simp [opened])
    simp only [Bool.not_true, Bool.false_eq_true, ↓reduceIte, ends_bind, ends_spanFrom, ends_pure]
    refine (statements_ends below (by decide) (by omega)).mono fun nodes c₁ ran => ?_
    refine require_ends ran fun c' ran _ => (ran.mono ?_).advance
    rintro ⟨read, closed, rfl⟩
    exact .block opened read closed
  next =>
    simp only [Bool.not_false, ↓reduceIte, ends_bind, ends_synchronize, ends_spanFrom, ends_pure]
    exact (Ran.rfl trivial).complained (Cursor.moves_synchronized _)

theorem body_ends (below : Below rec n) (short : c.rest.length < n) :
    Ends (body rec) c fun node c' => Ran c c' (Reads .body c (.node node) c') := by
  have passed := c.moves_pastNewlines.length_le
  simp only [body, ends_bind, ends_skipNewlines, ends_peekKind]
  split
  next opened =>
    refine (block_ends below (by omega)).mono fun node c' ran => ?_
    exact (ran.mono fun read => .bodyBlock opened read).pastNewlines
  next notOpened =>
    simp only [ends_bind, ends_peek, ends_spanFrom, ends_pure]
    refine (below .statement _ (by omega)).mono fun node c' reading => ?_
    refine (reading.ran.mono fun read => ?_).pastNewlines
    have present := read.statement_present
    simp only [keep, present, Bool.false_eq_true, ↓reduceIte, List.nil_append]
    exact .bodySingle notOpened read present

theorem condition_ends (below : Below rec n) (short : c.rest.length ≤ n) :
    Ends (condition rec) c fun node c' => Ran c c' (Reads .condition c (.node node) c') := by
  simp only [condition, ends_bind, ends_expect]
  split
  next opened =>
    have taken : c.advance.rest.length < c.rest.length := Cursor.advance_lt (by simp [opened])
    have passed := c.advance.moves_pastNewlines.length_le
    simp only [Bool.not_true, Bool.false_eq_true, ↓reduceIte, ends_bind, ends_skipNewlines]
    refine (below .expression _ (by omega)).mono fun found c₁ reading => ?_
    split
    next =>
      simp only [ends_bind, ends_peek, ends_complain, ends_skipNewlines, ends_pure]
      -- The complaint makes up for the condition that was not read.
      refine require_ends (reading.ran.complained (R := False) (Cursor.moves_pastNewlines _))
        fun c' ran _ => ?_
      exact (ran.mono fun impossible => impossible.1.elim).pastNewlines.advance
    next present =>
      simp only [ends_bind, ends_skipNewlines, ends_pure]
      refine require_ends reading.ran.thenPastNewlines fun c' ran _ => ?_
      refine (ran.mono ?_).pastNewlines.advance
      rintro ⟨read, closed, rfl⟩
      exact .condition opened read (by simpa using present) closed
  next =>
    simp only [Bool.not_false, ↓reduceIte, ends_pure]
    exact (Ran.rfl trivial).complained (.refl _)

/-! ## Declarations -/

theorem advance_lt_of_isTypeWord (ahead : c.kind.isTypeWord = true) :
    c.advance.rest.length < c.rest.length := by
  apply Cursor.advance_lt
  intro atEnd
  simp [atEnd, Kind.isTypeWord, Kind.declaredType?] at ahead

theorem variableDeclaration_ends (below : Below rec n) (short : c.rest.length ≤ n)
    (ahead : c.kind.isTypeWord = true) (start : Position) (mods : Modifiers) :
    Ends (variableDeclaration rec start mods) c fun node c' =>
      Ran c c' (Reads (.declaration start mods) c (.node node) c') ∧
        c'.rest.length < c.rest.length := by
  have taken := advance_lt_of_isTypeWord ahead
  simp only [variableDeclaration, ends_bind, ends_advance, ends_expect]
  split
  next named =>
    have takenName := c.advance.moves_advance.length_le
    simp only [Bool.not_true, Bool.false_eq_true, ↓reduceIte, ends_bind, ends_peekKind]
    split
    next assigned =>
      have takenSign := c.advance.advance.moves_advance.length_le
      have passed := c.advance.advance.advance.moves_pastNewlines.length_le
      simp only [ends_bind, ends_advance, ends_skipNewlines, ends_orNull, ends_spanFrom, ends_pure]
      refine (below .expression _ (by omega)).mono fun value c' reading => ?_
      split
      next => exact (reading.ran.complained (.refl _)).pastNewlines.advance.advance.progress taken
      next present =>
        refine (reading.ran.mono fun read => ?_).pastNewlines.advance.advance.progress taken
        exact .variableInitial ahead named assigned read (by simpa using present)
    next notAssigned =>
      simp only [ends_bind, ends_spanFrom, ends_pure]
      exact (Ran.rfl (.variablePlain ahead named notAssigned)).advance.progress taken
  next =>
    -- Without a name the type word alone has been taken.
    simp only [Bool.not_false, ↓reduceIte, ends_bind, ends_synchronize, ends_spanFrom, ends_pure]
    exact ((Ran.rfl trivial).complained (Cursor.moves_synchronized _)).progress taken

theorem functionDeclaration_ends (below : Below rec n) (short : c.rest.length ≤ n)
    (ahead : c.kind = .functionWord) (start : Position) (mods : Modifiers) :
    Ends (functionDeclaration rec start mods) c fun node c' =>
      Ran c c' (Reads (.declaration start mods) c (.node node) c') ∧
        c'.rest.length < c.rest.length := by
  have taken : c.advance.rest.length < c.rest.length := Cursor.advance_lt (by simp [ahead])
  simp only [functionDeclaration, ends_bind, ends_advance, ends_expect]
  split
  next named =>
    have takenName := c.advance.moves_advance.length_le
    simp only [Bool.not_true, Bool.false_eq_true, ↓reduceIte, ends_bind, ends_skipNewlines,
      ends_spanFrom, ends_pure]
    refine params_ends.mono fun names c₁ first => ?_
    have later := first.length_le
    have passed := c₁.moves_pastNewlines.length_le
    refine (block_ends below (by omega)).mono fun node c' rest => ?_
    refine ((first.seq rest.pastNewlines).mono ?_).advance.progress taken
    rintro ⟨readNames, readBody⟩
    exact .function ahead named readNames readBody
  next =>
    simp only [Bool.not_false, ↓reduceIte, ends_bind, ends_synchronize, ends_spanFrom, ends_pure]
    exact ((Ran.rfl trivial).complained (Cursor.moves_synchronized _)).progress taken

theorem insideBlock_ne_endOfFile {kind : Kind} (inside : insideBlock kind = true) :
    kind ≠ .endOfFile := by
  rintro rfl
  simp [insideBlock] at inside

theorem addMember_ends (below : Below rec n) (short : c.rest.length < n)
    (inside : insideBlock c.kind = true) (members : Members) :
    Ends (addMember rec members) c fun members' c₁ => c₁.rest.length < c.rest.length ∧
      ∀ all c₂, Ran c₁ c₂ (∃ ns, all = ns.foldl Members.add members' ∧
          Reads .members c₁ (.nodes ns) c₂) →
        Ran c c₂ (∃ ns, all = ns.foldl Members.add members ∧ Reads .members c (.nodes ns) c₂) := by
  simp only [addMember, ends_bind, ends_peek]
  split
  next begins =>
    simp only [ends_bind, ends_skipSeparators, ends_pure]
    refine (below .member c short).mono fun member c₁ first => ?_
    have shorter : c₁.rest.length < c.rest.length := first.advances begins
    have passed := c₁.moves_pastSeparators.length_le
    refine ⟨by omega, fun all c₂ rest => (first.ran.seq rest.pastSeparators).mono ?_⟩
    rintro ⟨read, ns, rfl, readRest⟩
    exact ⟨member :: ns, rfl, .membersNext inside begins read readRest⟩
  next =>
    -- What begins no member is complained about and skipped, so the loop goes on behind it.
    simp only [ends_bind, ends_complain, ends_advance, ends_synchronize, ends_skipSeparators,
      ends_pure]
    have complained := Cursor.moves_advance (c.complain (.strayMember c.next.lexeme) c.next.span)
    have moves := (complained.trans (Cursor.moves_synchronized _)).trans
      (Cursor.moves_pastSeparators _)
    have taken : (c.complain (.strayMember c.next.lexeme) c.next.span).advance.rest.length <
        c.rest.length := Cursor.advance_lt (c := c.complain _ _) (insideBlock_ne_endOfFile inside)
    have later := ((Cursor.moves_synchronized
      (c.complain (.strayMember c.next.lexeme) c.next.span).advance).trans
      (Cursor.moves_pastSeparators _)).length_le
    refine ⟨by omega, fun all c₂ rest => ?_⟩
    exact (Ran.rfl trivial).complained (moves.trans rest.moves)

theorem members_ends (below : Below rec n) (short : c.rest.length < n) :
    Ends (loop insideBlock (addMember rec) {}) c fun members c' =>
      Ran c c' (∃ ns, members = sortMembers ns ∧ Reads .members c (.nodes ns) c') := by
  refine ends_loop (fun members c all c' => Ran c c' (∃ ns, all = ns.foldl Members.add members ∧
    Reads .members c (.nodes ns) c')) (n - 1) ?_ ?_ {} c (by omega)
  · intro members c stop
    exact .rfl ⟨[], rfl, .membersDone stop⟩
  · intro members c within inside
    exact addMember_ends below (by omega) inside members

theorem classDeclaration_ends (below : Below rec n) (short : c.rest.length ≤ n)
    (ahead : c.kind = .classWord) (start : Position) (mods : Modifiers) :
    Ends (classDeclaration rec start mods) c fun node c' =>
      Ran c c' (Reads (.declaration start mods) c (.node node) c') ∧
        c'.rest.length < c.rest.length := by
  have taken : c.advance.rest.length < c.rest.length := Cursor.advance_lt (by simp [ahead])
  simp only [classDeclaration, ends_bind, ends_advance, ends_expect]
  split
  next named =>
    have takenName := c.advance.moves_advance.length_le
    have passed := c.advance.advance.moves_pastNewlines.length_le
    simp only [Bool.not_true, Bool.false_eq_true, ↓reduceIte, ends_bind, ends_skipNewlines,
      ends_expect]
    split
    next opened =>
      have takenBrace := c.advance.advance.pastNewlines.moves_advance.length_le
      have separated := c.advance.advance.pastNewlines.advance.moves_pastSeparators.length_le
      simp only [ends_skipSeparators, ends_spanFrom, ends_pure]
      refine (members_ends below (by omega)).mono fun members c₁ ran => ?_
      refine require_ends ran fun c' ran _ => ?_
      refine (ran.mono ?_).pastSeparators.advance.pastNewlines.advance.progress taken
      rintro ⟨⟨ns, rfl, read⟩, closed, rfl⟩
      exact .blueprint ahead named opened read closed
    next =>
      simp only [Bool.not_false, ↓reduceIte, ends_bind, ends_synchronize, ends_spanFrom, ends_pure]
      exact ((Ran.rfl trivial).complained
        (Cursor.moves_synchronized _)).pastNewlines.advance.progress taken
  next =>
    simp only [Bool.not_false, ↓reduceIte, ends_bind, ends_synchronize, ends_spanFrom, ends_pure]
    exact ((Ran.rfl trivial).complained (Cursor.moves_synchronized _)).progress taken

theorem modifiersAhead_of_none (ahead : c.kind.isModifier = false) (inClass : Bool) :
    modifiersAhead c inClass = { inClass } := by
  rw [modifiersAhead, Cursor.takeWhile_of_stopped ahead, List.foldl_nil]

theorem pastModifiers_lt (ahead : c.kind.isModifier = true) :
    c.pastModifiers.rest.length < c.rest.length := by
  have notEnd : c.kind ≠ .endOfFile := by
    intro atEnd
    simp [atEnd, Kind.isModifier] at ahead
  have taken := Cursor.advance_lt notEnd
  have later := c.advance.moves_pastModifiers.length_le
  rw [Cursor.pastModifiers, Cursor.skipWhile_of_skipped notEnd ahead]
  exact Nat.lt_of_le_of_lt later taken

/-- Only a modifier begins a member that declares nothing. -/
theorem modifier_of_beginsMember (begins : beginsMember c.kind = true)
    (notTyped : ¬c.pastModifiers.next.kind.isTypeWord = true)
    (notFunction : ¬c.pastModifiers.next.kind = .functionWord)
    (notClass : ¬c.pastModifiers.next.kind = .classWord) : c.kind.isModifier = true := by
  cases modifier : c.kind.isModifier with
  | true => rfl
  | false =>
    rw [Cursor.pastModifiers_eq_self modifier] at notTyped notFunction notClass
    simp_all [beginsMember, Cursor.kind]

theorem declaration_ends (below : Below rec n) (short : c.rest.length ≤ n) (inClass : Bool) :
    Ends (declaration rec inClass) c fun node c' =>
      Ran c c' (Reads (.declaration c.next.span.first (modifiersAhead c inClass)) c.pastModifiers
        (.node node) c') ∧
      (beginsMember c.kind = true → c'.rest.length < c.rest.length) := by
  have passed := c.moves_pastModifiers.length_le
  simp only [declaration, ends_bind, ends_peek, ends_modifiers]
  split
  next typed =>
    refine (variableDeclaration_ends below (by omega) typed _ _).mono ?_
    rintro node c' ⟨ran, less⟩
    exact ⟨ran.pastModifiers, fun _ => by omega⟩
  next notTyped =>
    split
    next isFunction =>
      refine (functionDeclaration_ends below (by omega) isFunction _ _).mono ?_
      exact fun node c' run => ⟨run.1.pastModifiers, fun _ => by omega⟩
    next notFunction =>
      split
      next isClass =>
        refine (classDeclaration_ends below (by omega) isClass _ _).mono ?_
        exact fun node c' run => ⟨run.1.pastModifiers, fun _ => by omega⟩
      next notClass =>
        simp only [ends_bind, ends_complain, ends_synchronize, ends_pure]
        -- Only modifiers can have been taken here, and there was one since the token begins a member.
        refine ⟨((Ran.rfl trivial).complained (Cursor.moves_synchronized _)).pastModifiers,
          fun begins => Nat.lt_of_le_of_lt (Cursor.moves_synchronized _).length_le ?_⟩
        exact pastModifiers_lt (modifier_of_beginsMember begins notTyped notFunction notClass)

/-! ## Statements -/

theorem branch_ends (below : Below rec n) (short : c.rest.length ≤ n) (ahead : c.kind = .ifWord) :
    Ends (branch rec) c fun node c' =>
      Ran c c' (Reads (.goal .statement) c (.node node) c') ∧ c'.rest.length < c.rest.length := by
  have taken : c.advance.rest.length < c.rest.length := Cursor.advance_lt (by simp [ahead])
  simp only [branch, ends_bind, ends_advance]
  refine (condition_ends below (by omega)).mono fun test c₁ first => ?_
  have afterTest := first.length_le
  refine (body_ends below (by omega)).mono fun yes c₂ second => ?_
  have afterYes := second.length_le
  have beforeElse := c₂.moves_pastNewlines.length_le
  -- The line breaks before an `else` are skipped, and given back if there is none.
  simp only [ends_get, ends_skipNewlines, ends_peekKind]
  split
  next otherwise =>
    have takenElse := c₂.pastNewlines.moves_advance.length_le
    have afterElse := c₂.pastNewlines.advance.moves_pastNewlines.length_le
    simp only [ends_bind, ends_advance, ends_skipNewlines, ends_peekKind]
    split
    next again =>
      simp only [ends_bind, ends_spanFrom, ends_pure]
      refine (below .statement _ (by omega)).mono fun inner c' reading => ?_
      have third := reading.ran.pastNewlines.advance.pastNewlines
      refine ((first.seq (second.seq third)).mono ?_).progress taken
      rintro ⟨readTest, readYes, readInner⟩
      exact .branchElseIf ahead readTest readYes otherwise again readInner
    next notAgain =>
      simp only [ends_bind, ends_spanFrom, ends_pure]
      refine (body_ends below (by omega)).mono fun no c' third => ?_
      have third := third.pastNewlines.advance.pastNewlines
      refine ((first.seq (second.seq third)).mono ?_).progress taken
      rintro ⟨readTest, readYes, readNo⟩
      exact .branchElse ahead readTest readYes otherwise notAgain readNo
  next plain =>
    simp only [ends_bind, ends_set, ends_spanFrom, ends_pure]
    refine ((first.seq second).mono ?_).progress taken
    rintro ⟨readTest, readYes⟩
    exact .branchPlain ahead readTest readYes plain

theorem whileLoop_ends (below : Below rec n) (short : c.rest.length ≤ n)
    (ahead : c.kind = .whileWord) :
    Ends (whileLoop rec) c fun node c' =>
      Ran c c' (Reads (.goal .statement) c (.node node) c') ∧ c'.rest.length < c.rest.length := by
  have taken : c.advance.rest.length < c.rest.length := Cursor.advance_lt (by simp [ahead])
  simp only [whileLoop, ends_bind, ends_advance, ends_spanFrom, ends_pure]
  refine (condition_ends below (by omega)).mono fun test c₁ first => ?_
  have afterTest := first.length_le
  refine (body_ends below (by omega)).mono fun inner c' second => ?_
  refine ((first.seq second).mono ?_).progress taken
  rintro ⟨readTest, readInner⟩
  exact .whileLoop ahead readTest readInner

theorem doWhileLoop_ends (below : Below rec n) (short : c.rest.length ≤ n)
    (ahead : c.kind = .doWord) :
    Ends (doWhileLoop rec) c fun node c' =>
      Ran c c' (Reads (.goal .statement) c (.node node) c') ∧ c'.rest.length < c.rest.length := by
  have taken : c.advance.rest.length < c.rest.length := Cursor.advance_lt (by simp [ahead])
  simp only [doWhileLoop, ends_bind, ends_advance, ends_skipNewlines, ends_expect]
  refine (body_ends below (by omega)).mono fun inner c₁ first => ?_
  have afterInner := first.length_le
  have passed := c₁.moves_pastNewlines.length_le
  split
  next found =>
    have takenWhile := c₁.pastNewlines.moves_advance.length_le
    simp only [↓reduceIte, ends_bind, ends_spanFrom, ends_pure]
    refine (condition_ends below (by omega)).mono fun test c' second => ?_
    refine ((first.seq second.advance.pastNewlines).mono ?_).progress taken
    rintro ⟨readInner, readTest⟩
    exact .doWhileLoop ahead readInner found readTest
  next =>
    simp only [Bool.false_eq_true, ↓reduceIte, ends_bind, ends_spanFrom, ends_pure]
    exact (first.thenPastNewlines.complained (.refl _)).progress taken

theorem forStart_ends (below : Below rec n) (short : c.rest.length < n) :
    Ends (forStart rec) c fun node c' => Ran c c' (Reads .forStart c (.node node) c') := by
  simp only [forStart, ends_bind, ends_peek]
  split
  next empty =>
    rw [ends_pure]
    exact .rfl (.forStartNone empty)
  next notEmpty =>
    split
    next typed =>
      refine (variableDeclaration_ends below (by omega) typed _ _).mono ?_
      rintro node c' ⟨ran, _⟩
      exact ran.mono (.forStartVariable typed)
    next notTyped =>
      refine (below .expression c short).mono fun node c' reading => ?_
      exact reading.ran.mono (.forStartExpression notEmpty (by simpa [Cursor.kind] using notTyped))

theorem forPart_ends (below : Below rec n) (short : c.rest.length < n) (closing : Kind) :
    Ends (forPart rec closing) c fun node c' =>
      Ran c c' (Reads (.forPart closing) c (.node node) c') := by
  simp only [forPart, ends_bind, ends_peekKind]
  split
  next empty =>
    rw [ends_pure]
    exact .rfl (.forPartNone empty)
  next notEmpty =>
    refine (below .expression c short).mono fun node c' reading => ?_
    exact reading.ran.mono (.forPartSome notEmpty)

theorem forLoop_ends (below : Below rec n) (short : c.rest.length ≤ n) (ahead : c.kind = .forWord) :
    Ends (forLoop rec) c fun node c' =>
      Ran c c' (Reads (.goal .statement) c (.node node) c') ∧ c'.rest.length < c.rest.length := by
  have taken : c.advance.rest.length < c.rest.length := Cursor.advance_lt (by simp [ahead])
  simp only [forLoop, ends_bind, ends_advance, ends_expect]
  split
  next opened =>
    have takenParen := c.advance.moves_advance.length_le
    have passed := c.advance.advance.moves_pastNewlines.length_le
    simp only [Bool.not_true, Bool.false_eq_true, ↓reduceIte, ends_bind, ends_skipNewlines,
      ends_spanFrom, ends_pure]
    refine (forStart_ends below (by omega)).mono fun first c₁ readFirst => ?_
    -- From here on `header` gathers what has been read, one part of the header after another.
    refine require_ends readFirst fun c₁' header _ => ?_
    have afterFirst := header.length_le
    have passedFirst := c₁'.moves_pastNewlines.length_le
    refine (forPart_ends below (by omega) .semicolon).mono fun test c₂ readTest => ?_
    refine require_ends (header.seq readTest.pastNewlines) fun c₂' header _ => ?_
    have afterTest := header.length_le
    have passedTest := c₂'.moves_pastNewlines.length_le
    refine (forPart_ends below (by omega) .rightParen).mono fun round c₃ readRound => ?_
    refine require_ends (header.seq readRound.pastNewlines).thenPastNewlines fun c₃' header _ => ?_
    have afterRound := header.length_le
    refine (body_ends below (by omega)).mono fun inner c' readInner => ?_
    refine ((header.seq readInner).mono ?_).pastNewlines.advance.progress taken
    rintro ⟨⟨⟨⟨⟨⟨first, closed, rfl⟩, test⟩, closedTest, rfl⟩, round⟩, closedRound, rfl⟩, inner⟩
    exact .forLoop ahead opened first closed test closedTest round closedRound inner
  next =>
    simp only [Bool.not_false, ↓reduceIte, ends_bind, ends_synchronize, ends_spanFrom, ends_pure]
    exact ((Ran.rfl trivial).complained (Cursor.moves_synchronized _)).progress taken

theorem expressionStatement_ends
    (recurs : Ends (rec .expression) c (Reading .expression c)) (plain : leadsStatement c.kind = false) :
    Ends (expressionStatement rec) c (Reading .statement c) := by
  simp only [expressionStatement, ends_bind]
  refine recurs.mono fun found c₁ reading => ?_
  have later := reading.ran.length_le
  split
  next =>
    simp only [ends_bind, ends_peek, ends_complain, ends_advance, ends_synchronize, ends_pure]
    refine ⟨reading.ran.complained ((Cursor.moves_advance _).trans (Cursor.moves_synchronized _)), ?_⟩
    intro ahead
    refine Nat.lt_of_le_of_lt (Cursor.moves_synchronized _).length_le ?_
    exact (reading.ran.moves.trans (Cursor.moves_complain _ _ _)).advance_lt ahead
  next present =>
    rw [ends_pure]
    have present : found.isAbsent = false := by simpa using present
    exact ⟨reading.ran.mono fun read => .statementExpression plain read present,
      fun _ => reading.advances present⟩

/-- Each statement takes a token, so that a step down to an expression is its only recursion in
    place. -/
theorem statement_ends (below : Below rec c.rest.length)
    (recurs : Ends (rec .expression) c (Reading .expression c)) :
    Ends (statement rec) c (Reading .statement c) := by
  have declares {node : Node} {c' : Cursor} (plain : c.kind.isModifier = false)
      (begins : beginsMember c.kind = true)
      (run : Ran c c' (Reads (.declaration c.next.span.first {}) c (.node node) c') ∧
        c'.rest.length < c.rest.length) : Reading .statement c node c' := by
    refine ⟨run.1.mono fun read => .statementDeclaration begins ?_, fun _ => run.2⟩
    rwa [modifiersAhead_of_none plain, Cursor.pastModifiers_eq_self plain]
  simp only [statement, ends_bind, ends_peek]
  split
  next ahead =>
    have ahead : c.kind = .functionWord := ahead
    refine (functionDeclaration_ends below (Nat.le_refl _) ahead _ _).mono fun node c' run => ?_
    exact declares (by rw [ahead]; decide) (by rw [ahead]; decide) run
  next ahead =>
    have ahead : c.kind = .classWord := ahead
    refine (classDeclaration_ends below (Nat.le_refl _) ahead _ _).mono fun node c' run => ?_
    exact declares (by rw [ahead]; decide) (by rw [ahead]; decide) run
  next ahead =>
    exact (branch_ends below (Nat.le_refl _) ahead).mono fun node c' run => ⟨run.1, fun _ => run.2⟩
  next ahead =>
    exact (whileLoop_ends below (Nat.le_refl _) ahead).mono fun node c' run => ⟨run.1, fun _ => run.2⟩
  next ahead =>
    exact (doWhileLoop_ends below (Nat.le_refl _) ahead).mono fun node c' run =>
      ⟨run.1, fun _ => run.2⟩
  next ahead =>
    exact (forLoop_ends below (Nat.le_refl _) ahead).mono fun node c' run => ⟨run.1, fun _ => run.2⟩
  next notFunction notClass notIf notWhile notDo notFor =>
    split
    next declared =>
      have begins : beginsMember c.kind = true := by
        simp_all [beginsMember, Cursor.kind]
      refine (declaration_ends below (Nat.le_refl _) false).mono fun node c' run => ?_
      exact ⟨run.1.mono fun read => .statementDeclaration begins read, fun _ => run.2 begins⟩
    next notDeclared =>
      -- The one case without a token taken before the recursion, hence `recurs` and not `below`.
      refine expressionStatement_ends recurs ?_
      simp_all [leadsStatement, beginsMember, Cursor.kind]

theorem rule_ends (below : Below rec c.rest.length) {goal : Goal}
    (recurs : ∀ smaller : Goal, smaller.rank < goal.rank →
      Ends (rec smaller) c (Reading smaller c)) :
    Ends (rule rec goal) c (Reading goal c) := by
  cases goal with
  | statement => exact statement_ends below (recurs .expression (by decide))
  | member =>
    refine (declaration_ends below (Nat.le_refl _) true).mono fun node c' run => ?_
    exact ⟨run.1.mono .member, run.2⟩
  | expression => exact expression_ends below (recurs (.operand 0) (by decide))
  | operand power => exact operand_ends below (Nat.le_refl _) power

end Rules

end ClassScript.Parser
