import ClassScript.Proofs.Parser.Run
import ClassScript.Proofs.Token.Tiling

/-! # Places of a parser in a source

`Position.In` and `Span.In` say that a position or a span belongs to a source.  A cursor that stands before some
token of a source (`Cursor.Among`) has two places there: where the last token ends and where the next one begins.
Both go onward with the cursor (`Cursor.Walk`), which is what bounds the spans of all that is read on the way.
-/

namespace ClassScript

/-! ## Places in a source -/

/-- A place behind some first bytes of the source, with the line and the column that it has there. -/
def Position.In (source : List UInt8) (p : Position) : Prop := ∃ before, before <+: source ∧ p = behind before

structure Span.In (source : List UInt8) (s : Span) : Prop where
  first : s.first.In source
  last : s.last.In source
  ordered : s.first.offset ≤ s.last.offset

variable {source : List UInt8}

theorem Position.In.one_le_line {p : Position} (here : p.In source) : 1 ≤ p.line := by
  obtain ⟨before, _, rfl⟩ := here
  simp only [behind]
  omega

theorem Span.not_in_none : ¬ Span.none.In source := by
  intro here
  have line : (1 : Int) ≤ 0 := here.first.one_le_line
  omega

theorem Span.In.cover {s other : Span} (one : s.In source) (two : other.In source) :
    (s.cover other).In source := by
  have ordered₁ := one.ordered
  have ordered₂ := two.ordered
  constructor
  · simp only [Span.cover]
    split
    · exact two.first
    · exact one.first
  · simp only [Span.cover]
    split
    · exact two.last
    · exact one.last
  · simp only [Span.cover]
    split <;> split <;> omega

/-! ## Tokens -/

theorem span_in_of_mem_tokenize {t : Token} (member : t ∈ (tokenize source).1) : t.span.In source := by
  obtain ⟨front, bytes, after, parts, is, _⟩ := (tiled_tokenize source).placed member
  rw [List.nil_append] at parts
  rw [is]
  refine ⟨⟨front, ?_, rfl⟩, ⟨front ++ bytes, ?_, rfl⟩, ?_⟩
  · exact ⟨bytes ++ after, by rw [parts, List.append_assoc]⟩
  · exact ⟨after, parts.symm⟩
  · simp only [Position.offset_behind, List.length_append]
    omega

/-- Only the end token begins at the end of the source. -/
theorem first_lt_of_mem_tokenize {t : Token} (member : t ∈ (tokenize source).1) (notEnd : t.kind ≠ .endOfFile) :
    t.span.first.offset < source.length := by
  obtain ⟨front, bytes, after, parts, is, own⟩ := (tiled_tokenize source).placed member
  have filled := List.length_pos_iff.2 (own notEnd).1
  have size := congrArg List.length parts
  simp only [List.nil_append, List.length_append] at size
  rw [is, Position.offset_behind]
  omega

/-! ## Cursors -/

namespace Cursor

def ahead (c : Cursor) : Int := c.next.span.first.offset

def back (c : Cursor) : Int := c.lastEnd.offset

/-- The cursor stands among the tokens of a source, at its end token at the latest. -/
structure Among (source : List UInt8) (c : Cursor) : Prop where
  taken : ∃ taken, (tokenize source).1 = taken ++ c.rest ∧ c.last = taken.getLast?
  more : c.rest ≠ []

theorem among_start (source : List UInt8) : Among source { rest := (tokenize source).1 } :=
  ⟨⟨[], rfl, rfl⟩, by simp [tokenize]⟩

namespace Among

variable {c : Cursor}

theorem rest_eq (here : c.Among source) : c.rest = c.next :: c.advance.rest := by
  rw [advance, next]
  cases rest : c.rest with
  | nil => exact absurd rest here.more
  | cons t more => rfl

theorem complain (here : c.Among source) (complaint : Complaint) (span : Span) :
    (c.complain complaint span).Among source := ⟨here.taken, here.more⟩

theorem next_mem (here : c.Among source) : c.next ∈ (tokenize source).1 := by
  obtain ⟨taken, tokens, _⟩ := here.taken
  rw [tokens, here.rest_eq]
  simp

theorem next_in (here : c.Among source) : c.next.span.In source := span_in_of_mem_tokenize here.next_mem

theorem lastEnd_in (here : c.Among source) : c.lastEnd.In source := by
  obtain ⟨taken, tokens, last⟩ := here.taken
  rw [lastEnd]
  cases is : c.last with
  | none => exact here.next_in.first
  | some t =>
    rw [is] at last
    refine (span_in_of_mem_tokenize ?_).last
    rw [tokens]
    exact List.mem_append_left _ (List.mem_of_getLast? last.symm)

/-- The last token ends before the next one begins. -/
theorem back_le_ahead (here : c.Among source) : c.back ≤ c.ahead := by
  obtain ⟨taken, tokens, last⟩ := here.taken
  rw [back, ahead, lastEnd]
  cases is : c.last with
  | none => exact Int.le_refl _
  | some t =>
    rw [is] at last
    have ordered := (tiled_tokenize source).ordered
    rw [tokens, here.rest_eq, List.pairwise_append] at ordered
    exact ordered.2.2 t (List.mem_of_getLast? last.symm) _ List.mem_cons_self

theorem lastEnd_advance (here : c.Among source) : c.advance.lastEnd = c.next.span.last := by
  rw [advance, next]
  cases rest : c.rest with
  | nil => exact absurd rest here.more
  | cons t more => rfl

theorem back_advance (here : c.Among source) : c.advance.back = c.next.span.last.offset := by
  rw [back, here.lastEnd_advance]

theorem ahead_le_back_advance (here : c.Among source) : c.ahead ≤ c.advance.back := by
  rw [here.back_advance]
  exact here.next_in.ordered

/-- The end token is the last one of the source. -/
theorem next_eq_endToken (here : c.Among source) (atEnd : c.kind = .endOfFile) :
    c.next = endToken source := by
  have member := here.next_mem
  rw [tokenize_eq] at member
  rcases List.mem_append.1 member with own | isEnd
  · exact absurd atEnd (ownTokens_ne_endOfFile own)
  · exact List.mem_singleton.1 isEnd

/-- Nothing comes behind the end token. -/
theorem rest_advance_of_atEnd (here : c.Among source) (atEnd : c.kind = .endOfFile) : c.advance.rest = [] := by
  obtain ⟨taken, tokens, _⟩ := here.taken
  rw [here.rest_eq, tokenize_eq] at tokens
  rcases List.eq_nil_or_concat c.advance.rest with empty | ⟨more, t, is⟩
  · exact empty
  · -- The end token would be one of the others.
    rw [is, List.concat_eq_append, ← List.cons_append, ← List.append_assoc] at tokens
    have own := (List.append_inj' tokens rfl).1
    have member : c.next ∈ ownTokens source := by simp [own]
    exact absurd atEnd (ownTokens_ne_endOfFile member)

/-- Behind a token that is not the end there is another one. -/
theorem advance (here : c.Among source) (notEnd : c.kind ≠ .endOfFile) : c.advance.Among source := by
  obtain ⟨taken, tokens, last⟩ := here.taken
  have rest := here.rest_eq
  refine ⟨⟨taken ++ [c.next], ?_, ?_⟩, ?_⟩
  · rw [tokens, rest, List.append_assoc]
    rfl
  · rw [List.getLast?_append, Cursor.advance, rest]
    rfl
  · intro empty
    rw [rest, empty] at tokens
    -- The cursor would stand at the last token, which is the end.
    have final : (tokenize source).1.getLast? = some (endToken source) := by simp [tokenize]
    rw [tokens, List.getLast?_append] at final
    have isEnd : c.next = endToken source := by simpa using final
    rw [kind, isEnd] at notEnd
    exact notEnd rfl

end Among

structure Walk (source : List UInt8) (c c' : Cursor) : Prop where
  here : c'.Among source
  ahead : c.ahead ≤ c'.ahead
  back : c.back ≤ c'.back

theorem Among.stay {c : Cursor} (here : c.Among source) : Walk source c c :=
  ⟨here, Int.le_refl _, Int.le_refl _⟩

namespace Walk

variable {c c₁ c₂ : Cursor}

theorem trans (first : Walk source c c₁) (second : Walk source c₁ c₂) : Walk source c c₂ :=
  ⟨second.here, Int.le_trans first.ahead second.ahead, Int.le_trans first.back second.back⟩

theorem advance (walk : Walk source c c₁) (notEnd : c₁.kind ≠ .endOfFile) : Walk source c c₁.advance := by
  have taken := walk.here.advance notEnd
  have first := walk.here.back_le_ahead
  have second := walk.here.ahead_le_back_advance
  have third := taken.back_le_ahead
  have fourth := walk.ahead
  have fifth := walk.back
  exact ⟨taken, by omega, by omega⟩

theorem skipWhile {skipped : Kind → Bool} (atEnd : skipped .endOfFile = false) (walk : Walk source c c₁) :
    Walk source c (c₁.skipWhile skipped) := by
  induction c₁ using skip_induction atEnd with
  | stop c₁ stops => rwa [skipWhile_eq_self stops]
  | skip c₁ notEnd isSkipped ih =>
    rw [skipWhile_of_skipped notEnd isSkipped]
    exact ih (walk.advance notEnd)

theorem pastNewlines (walk : Walk source c c₁) : Walk source c c₁.pastNewlines :=
  walk.skipWhile (by decide)

theorem pastSeparators (walk : Walk source c c₁) : Walk source c c₁.pastSeparators :=
  walk.skipWhile (by decide)

theorem pastModifiers (walk : Walk source c c₁) : Walk source c c₁.pastModifiers :=
  walk.skipWhile (by decide)

theorem back_le_ahead (walk : Walk source c c₁) : c.back ≤ c₁.ahead :=
  Int.le_trans walk.back walk.here.back_le_ahead

end Walk

/-! What lies behind the next token. -/

namespace Among

variable {c c₁ : Cursor}

theorem ahead_le_back (here : c.Among source) (walk : Walk source c.advance c₁) : c.ahead ≤ c₁.back :=
  Int.le_trans here.ahead_le_back_advance walk.back

theorem last_le_ahead (here : c.Among source) (walk : Walk source c.advance c₁) :
    c.next.span.last.offset ≤ c₁.ahead := by
  rw [← here.back_advance]
  exact walk.back_le_ahead

/-- From the next token to the one taken last there is a stretch of the source. -/
theorem span_in (here : c.Among source) (walk : Walk source c.advance c₁) :
    (⟨c.next.span.first, c₁.lastEnd⟩ : Span).In source :=
  ⟨here.next_in.first, walk.here.lastEnd_in, here.ahead_le_back walk⟩

end Among

end Cursor

end ClassScript
