import ClassScript.Proofs.Parser.Completeness

/-! # Expressions in front of other tokens

An expression that is read up to a token is read in the same way when other tokens come behind that one
(`Reads.widen`): no rule for expressions looks further than to the token ahead.
-/

namespace ClassScript

namespace Cursor

def widen (behind : List Token) (diagnostics : List Diagnostic) (c : Cursor) : Cursor :=
  ⟨c.rest ++ behind, c.last, diagnostics⟩

variable {behind : List Token} {diagnostics : List Diagnostic} {c c₁ : Cursor}

theorem next_widen (ahead : c.rest ≠ []) : (c.widen behind diagnostics).next = c.next := by
  cases tokens : c.rest with
  | nil => exact absurd tokens ahead
  | cons t rest => simp [next, widen, tokens]

theorem kind_widen (ahead : c.rest ≠ []) : (c.widen behind diagnostics).kind = c.kind := by
  rw [kind, next_widen ahead, kind]

theorem lastEnd_widen (ahead : c.rest ≠ []) : (c.widen behind diagnostics).lastEnd = c.lastEnd := by
  rw [lastEnd, lastEnd, next_widen ahead]
  rfl

theorem advance_widen (ahead : c.rest ≠ []) :
    (c.widen behind diagnostics).advance = c.advance.widen behind diagnostics := by
  cases tokens : c.rest with
  | nil => exact absurd tokens ahead
  | cons t rest => simp [advance, widen, tokens]

theorem pastNewlines_widen (ahead : c.pastNewlines.rest ≠ []) :
    (c.widen behind diagnostics).pastNewlines = c.pastNewlines.widen behind diagnostics := by
  refine @skip_induction (· = .newline) (by decide) (fun c => c.pastNewlines.rest ≠ [] →
    (c.widen behind diagnostics).pastNewlines = c.pastNewlines.widen behind diagnostics) ?_ ?_ c ahead
  · intro c stop ahead
    have other : c.kind ≠ .newline := by simpa using stop
    rw [pastNewlines_eq_self other] at ahead ⊢
    exact pastNewlines_eq_self (by rwa [kind_widen ahead])
  · intro c notEnd isNewline ih ahead
    have start : c.rest ≠ [] := fun none => notEnd (kind_of_rest_nil none)
    have skipped : c.pastNewlines = c.advance.pastNewlines := skipWhile_of_skipped notEnd isNewline
    rw [skipped] at ahead ⊢
    rw [← ih ahead, ← advance_widen start]
    exact skipWhile_of_skipped (by rwa [kind_widen start]) (by rwa [kind_widen start])

theorem Onward.ahead (onward : Onward c c₁) (ahead : c₁.rest ≠ []) : c.rest ≠ [] := by
  intro none
  have rest := onward.rest
  rw [none, List.suffix_nil] at rest
  exact ahead rest

end Cursor

namespace Parser

open Cursor

def Phrase.isExpression : Phrase → Bool
  | .goal .expression | .goal (.operand _) | .atom | .tail .. | .dotted _ | .arguments | .moreArguments => true
  | _ => false

variable {behind : List Token} {diagnostics : List Diagnostic} {c c' : Cursor}

theorem Reads.widen {phrase : Phrase} {y : Yield} (read : Reads phrase c y c')
    (expression : phrase.isExpression = true) (ahead : c'.rest ≠ []) :
    Reads phrase (c.widen behind diagnostics) y (c'.widen behind diagnostics) := by
  -- There is a token left at the end, and so at every cursor on the way there: each case goes back from the
  -- end to the start and finds that the parser looks at the same tokens.
  induction read with
  | @literal c n found =>
    have start := c.onward_advance.ahead ahead
    rw [← advance_widen start]
    exact .literal (by rwa [next_widen start])
  | @group c c₁ n opened readInner closed inner =>
    have closing := c₁.pastNewlines.onward_advance.ahead ahead
    have within := (c₁.onward_skipWhile _).ahead closing
    have inside := readInner.onward.ahead within
    have start := (Onward.refl _).pastNewlines.advance.ahead inside
    rw [← advance_widen closing, ← pastNewlines_widen closing]
    refine .group (by rwa [kind_widen start]) ?_ (by rwa [pastNewlines_widen closing, kind_widen closing])
    rw [advance_widen start, pastNewlines_widen inside]
    exact inner rfl within
  | @sign c c' n sign readInner inner =>
    have inside := readInner.onward.ahead ahead
    have start := (Onward.refl _).pastNewlines.advance.ahead inside
    rw [← next_widen start]
    refine .sign (by rwa [kind_widen start]) ?_
    rw [advance_widen start, pastNewlines_widen inside]
    exact inner rfl ahead
  | @stepNothing c c' step readInner inner =>
    have start := readInner.onward.advance.ahead ahead
    refine .stepNothing (by rwa [kind_widen start]) ?_
    rw [advance_widen start]
    exact inner rfl ahead
  | @step c c' span target step readInner inner =>
    have start := readInner.onward.advance.ahead ahead
    rw [← next_widen start]
    refine .step (by rwa [kind_widen start]) ?_
    rw [advance_widen start]
    exact inner rfl ahead
  | @instantiation c c₁ c' blueprint args begins named readName readArgs name arguments =>
    have within := readArgs.onward.ahead ahead
    have second := readName.onward.advance.ahead within
    have start := c.onward_advance.ahead second
    rw [← next_widen start, ← lastEnd_widen ahead]
    refine .instantiation (by rwa [kind_widen start]) ?_ ?_ (arguments rfl ahead)
    · rwa [advance_widen start, kind_widen second]
    · rw [advance_widen start, next_widen second, advance_widen second]
      exact name rfl within
  | nothing nothing => exact .nothing (by rwa [kind_widen ahead])
  | operandNothing _ atom => exact .operandNothing (atom rfl ahead)
  | operand _ present readTail atom tail =>
    exact .operand (atom rfl (readTail.onward.ahead ahead)) present (tail rfl ahead)
  | tailDone stop => exact .tailDone (by rwa [kind_widen ahead])
  | @tailStep c c' power span target n binds step readTail tail =>
    have start := readTail.onward.advance.ahead ahead
    refine .tailStep (by rwa [kind_widen start]) (by rwa [kind_widen start]) ?_
    rw [next_widen start, advance_widen start]
    exact tail rfl ahead
  | @tailCall c c₁ c' power left n args binds opened readArgs readTail arguments tail =>
    have within := readTail.onward.ahead ahead
    have start := readArgs.onward.ahead within
    refine .tailCall (by rwa [kind_widen start]) (by rwa [kind_widen start]) (arguments rfl within) ?_
    rw [lastEnd_widen within]
    exact tail rfl ahead
  | @tailMember c c' power left n binds point named readTail tail =>
    have second := readTail.onward.advance.ahead ahead
    have start := (Onward.refl _).pastNewlines.advance.ahead second
    refine .tailMember (by rwa [kind_widen start]) (by rwa [kind_widen start]) ?_ ?_
    · rwa [advance_widen start, pastNewlines_widen second, kind_widen second]
    · rw [advance_widen start, pastNewlines_widen second, next_widen second, advance_widen second]
      exact tail rfl ahead
  | @tailBinary c c₁ c' power op left right n binds found readRight present readTail inner tail =>
    have within := readTail.onward.ahead ahead
    have second := readRight.onward.ahead within
    have start := (Onward.refl _).pastNewlines.advance.ahead second
    refine .tailBinary (by rwa [kind_widen start]) (by rwa [kind_widen start]) ?_ present (tail rfl ahead)
    rw [advance_widen start, pastNewlines_widen second, kind_widen start]
    exact inner rfl within
  | dottedDone stop => exact .dottedDone (by rwa [kind_widen ahead])
  | @dottedNext c c' left n point named readRest rest =>
    have second := readRest.onward.advance.ahead ahead
    have start := (Onward.refl _).pastNewlines.advance.ahead second
    refine .dottedNext (by rwa [kind_widen start]) ?_ ?_
    · rwa [advance_widen start, pastNewlines_widen second, kind_widen second]
    · rw [advance_widen start, pastNewlines_widen second, next_widen second, advance_widen second]
      exact rest rfl ahead
  | @argumentsNone c opened closed =>
    have second := c.advance.pastNewlines.onward_advance.ahead ahead
    have start := (Onward.refl _).pastNewlines.advance.ahead second
    rw [← advance_widen second, ← pastNewlines_widen second, ← advance_widen start]
    refine .argumentsNone (by rwa [kind_widen start]) ?_
    rwa [advance_widen start, pastNewlines_widen second, kind_widen second]
  | @argumentsSome c c₁ c₂ n args opened notClosed readHead present readMore closed head more =>
    have closing := c₂.pastNewlines.onward_advance.ahead ahead
    have last := (c₂.onward_skipWhile _).ahead closing
    have within := readMore.onward.ahead last
    have second := readHead.onward.ahead within
    have start := (Onward.refl _).pastNewlines.advance.ahead second
    rw [← advance_widen closing, ← pastNewlines_widen closing]
    refine .argumentsSome (by rwa [kind_widen start]) ?_ ?_ present (more rfl last)
      (by rwa [pastNewlines_widen closing, kind_widen closing])
    · rwa [advance_widen start, pastNewlines_widen second, kind_widen second]
    · rw [advance_widen start, pastNewlines_widen second]
      exact head rfl within
  | argumentsDone stop => exact .argumentsDone (by rwa [kind_widen ahead])
  | @argumentsNext c c₁ c' n args comma readHead present readMore head more =>
    have within := readMore.onward.ahead ahead
    have second := readHead.onward.ahead within
    have start := (Onward.refl _).pastNewlines.advance.ahead second
    refine .argumentsNext (by rwa [kind_widen start]) ?_ present (more rfl ahead)
    rw [advance_widen start, pastNewlines_widen second]
    exact head rfl within
  | expressionNothing _ operand => exact .expressionNothing (operand rfl ahead)
  | expressionPlain _ present plain operand =>
    exact .expressionPlain (operand rfl ahead) present (by rwa [kind_widen ahead])
  | @expressionAssign c c₁ c' span target value readTarget assigns readValue present left right =>
    have second := readValue.onward.ahead ahead
    have within := (Onward.refl _).pastNewlines.advance.ahead second
    rw [← next_widen within]
    refine .expressionAssign (left rfl within) (by rwa [kind_widen within]) ?_ present
    rw [advance_widen within, pastNewlines_widen second]
    exact right rfl ahead
  | _ => cases expression

end Parser

end ClassScript
