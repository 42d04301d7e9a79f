import ClassScript.Proofs.Parser.Grammar

/-! # A reading goes onward

A reading only takes tokens: it leaves a rest of its token list, it remembers the token it took last,
and it complains about nothing (`Reads.onward`).
-/

namespace ClassScript

/-- `c'` is `c` after some of its tokens have been taken. -/
structure Cursor.Onward (c c' : Cursor) : Prop where
  rest : c'.rest <:+ c.rest
  last : c.last.isSome → c'.last.isSome
  moved : c'.rest.length < c.rest.length → c'.last.isSome
  diagnostics : c'.diagnostics = c.diagnostics

namespace Cursor

variable {c c₁ c₂ : Cursor}

theorem onward_advance (c : Cursor) : Onward c c.advance := by
  refine ⟨c.moves_advance.rest, ?_, ?_, c.diagnostics_advance⟩ <;> unfold Cursor.advance <;> split <;>
    simp

theorem onward_skipWhile (skipped : Kind → Bool) (c : Cursor) : Onward c (c.skipWhile skipped) := by
  refine ⟨(c.moves_skipWhile skipped).rest, fun taken => by simp [skipWhile, taken], ?_, rfl⟩
  have parts := congrArg List.length (List.takeWhile_append_dropWhile (p := fun t : Token => skipped t.kind) (l := c.rest))
  simp only [skipWhile]
  intro shorter
  cases taken : c.rest.takeWhile fun t => skipped t.kind with
  | nil =>
    rw [taken, List.nil_append] at parts
    omega
  | cons t more => simp

namespace Onward

theorem refl (c : Cursor) : Onward c c :=
  ⟨List.suffix_rfl, id, fun impossible => absurd impossible (Nat.lt_irrefl _), rfl⟩

theorem trans (first : Onward c c₁) (second : Onward c₁ c₂) : Onward c c₂ := by
  refine ⟨second.rest.trans first.rest, fun taken => second.last (first.last taken), fun moved => ?_,
    second.diagnostics.trans first.diagnostics⟩
  rcases Nat.lt_or_ge c₁.rest.length c.rest.length with movedFirst | stayed
  · exact second.last (first.moved movedFirst)
  · exact second.moved (Nat.lt_of_lt_of_le moved stayed)

theorem length_le (onward : Onward c c₁) : c₁.rest.length ≤ c.rest.length := onward.rest.length_le

/-! What comes in front of a way onward. -/

theorem advance (rest : Onward c.advance c₁) : Onward c c₁ := c.onward_advance.trans rest

theorem pastNewlines (rest : Onward c.pastNewlines c₁) : Onward c c₁ :=
  (c.onward_skipWhile _).trans rest

theorem pastSeparators (rest : Onward c.pastSeparators c₁) : Onward c c₁ :=
  (c.onward_skipWhile _).trans rest

theorem pastModifiers (rest : Onward c.pastModifiers c₁) : Onward c c₁ :=
  (c.onward_skipWhile _).trans rest

/-! What comes behind it. -/

theorem thenAdvance (first : Onward c c₁) : Onward c c₁.advance := first.trans c₁.onward_advance

theorem thenPastNewlines (first : Onward c c₁) : Onward c c₁.pastNewlines :=
  first.trans (c₁.onward_skipWhile _)

theorem thenPastSeparators (first : Onward c c₁) : Onward c c₁.pastSeparators :=
  first.trans (c₁.onward_skipWhile _)

/-- Behind a token there is a token taken last. -/
theorem taken (onward : Onward c.advance c₁) (ahead : c.kind ≠ .endOfFile) : c₁.last.isSome := by
  apply onward.last
  unfold Cursor.advance
  split
  next empty => exact absurd (kind_of_rest_nil empty) ahead
  next => rfl

end Onward

end Cursor

namespace Parser

open Cursor (Onward)

variable {c c' : Cursor}

theorem ReadsMoreNames.onward {names : List String} (read : ReadsMoreNames c names c') :
    Onward c c' := by
  induction read with
  | done => exact .refl _
  | next _ _ _ ih => exact ih.advance.pastNewlines.advance

theorem ReadsParams.onward {names : List String} (read : ReadsParams c names c') : Onward c c' := by
  cases read with
  | none => exact (Onward.refl _).advance.pastNewlines.advance
  | some _ _ more _ => exact more.onward.thenPastNewlines.thenAdvance.advance.pastNewlines.advance

theorem Reads.onward {phrase : Phrase} {y : Yield} (read : Reads phrase c y c') : Onward c c' := by
  induction read with
  | literal => exact Cursor.onward_advance _
  | nothing | tailDone | dottedDone | argumentsDone | statementsDone | membersDone | forStartNone
    | forPartNone => exact .refl _
  | group _ _ _ inner => exact inner.thenPastNewlines.thenAdvance.pastNewlines.advance
  | sign _ _ operand => exact operand.pastNewlines.advance
  | stepNothing _ _ operand | step _ _ operand => exact operand.advance
  | instantiation _ _ _ _ name args => exact (name.trans args).advance.advance
  | operandNothing _ atom => exact atom
  | operand _ _ _ atom tail => exact atom.trans tail
  | tailStep _ _ _ tail => exact tail.advance
  | tailCall _ _ _ _ args tail => exact args.trans tail
  | tailMember _ _ _ _ tail | dottedNext _ _ _ tail => exact tail.advance.pastNewlines.advance
  | tailBinary _ _ _ _ _ right tail => exact (right.trans tail).pastNewlines.advance
  | argumentsNone => exact (Onward.refl _).advance.pastNewlines.advance
  | argumentsSome _ _ _ _ _ _ head more =>
    exact (head.trans more).thenPastNewlines.thenAdvance.pastNewlines.advance
  | argumentsNext _ _ _ _ head more => exact (head.trans more).pastNewlines.advance
  | expressionNothing _ operand => exact operand
  | expressionPlain _ _ _ operand => exact operand
  | expressionAssign _ _ _ _ target value => exact target.trans value.pastNewlines.advance
  | statementsNext _ _ _ _ head more => exact head.trans more.pastSeparators
  | block _ _ _ inner => exact inner.thenAdvance.pastSeparators.advance
  | bodyBlock _ _ inner => exact inner.pastNewlines
  | bodySingle _ _ _ inner => exact inner.pastNewlines
  | condition _ _ _ _ test => exact test.thenPastNewlines.thenAdvance.pastNewlines.advance
  | variablePlain => exact (Onward.refl _).advance.advance
  | variableInitial _ _ _ _ _ value => exact value.pastNewlines.advance.advance.advance
  | function _ _ names _ body => exact (names.onward.trans body.pastNewlines).advance.advance
  | blueprint _ _ _ _ _ members =>
    exact members.thenAdvance.pastSeparators.advance.pastNewlines.advance.advance
  | membersNext _ _ _ _ head more => exact head.trans more.pastSeparators
  | member _ declared => exact declared.pastModifiers
  | statementDeclaration _ _ declared => exact declared.pastModifiers
  | statementExpression _ _ _ expression => exact expression
  | branchPlain _ _ _ _ test yes => exact (test.trans yes).advance
  | branchElse _ _ _ _ _ _ test yes no | branchElseIf _ _ _ _ _ _ test yes no =>
    exact (test.trans (yes.trans no.pastNewlines.advance.pastNewlines)).advance
  | whileLoop _ _ _ test inner => exact (test.trans inner).advance
  | doWhileLoop _ _ _ _ inner test => exact (inner.trans test.advance.pastNewlines).advance
  | forLoop _ _ _ _ _ _ _ _ _ first test round inner =>
    exact (first.trans (test.trans (round.trans inner.advance.pastNewlines).pastNewlines.advance
      ).pastNewlines.advance).pastNewlines.advance.advance
  | forStartVariable _ _ declared => exact declared
  | forStartExpression _ _ _ expression => exact expression
  | forPartSome _ _ expression => exact expression

end Parser

end ClassScript
