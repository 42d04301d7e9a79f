import ClassScript.Parser

/-! # Runs of a parser

`Ends p c Q` says that the parser `p` gives an answer at the cursor `c` and that the answer, with the
cursor it leaves, satisfies `Q`.  The primitive steps are equations for `Ends`, so that a run through
a `do` block is read off by rewriting.  Only two things need an argument of their own: a loop
(`ends_loop`, by the number of tokens ahead) and the recursion of the grammar.

A cursor never goes back and never drops a complaint (`Cursor.Moves`).  So a run that ends with as
many complaints as it began with had no complaint at any point in between, which is what
`Moves.clean_left` and `Moves.clean_right` say for a run in two parts.
-/

namespace ClassScript

namespace Cursor

def pastNewlines (c : Cursor) : Cursor := c.skipWhile (· = .newline)

def pastSeparators (c : Cursor) : Cursor := c.skipWhile Parser.isSeparator

def pastModifiers (c : Cursor) : Cursor := c.skipWhile Kind.isModifier

def synchronized (c : Cursor) : Cursor :=
  let here := c.skipWhile fun kind => !Parser.isBoundary kind
  if Parser.isSeparator here.kind then here.advance else here

/-! ## Moving on -/

/-- A cursor further on in the same token list, with the same complaints and perhaps more. -/
structure Moves (c c' : Cursor) : Prop where
  rest : c'.rest <:+ c.rest
  diagnostics : c.diagnostics <+: c'.diagnostics

namespace Moves

theorem refl (c : Cursor) : Moves c c := ⟨List.suffix_rfl, List.prefix_rfl⟩

theorem trans {c c₁ c₂ : Cursor} (first : Moves c c₁) (second : Moves c₁ c₂) : Moves c c₂ :=
  ⟨second.rest.trans first.rest, first.diagnostics.trans second.diagnostics⟩

theorem length_le {c c' : Cursor} (moves : Moves c c') : c'.rest.length ≤ c.rest.length :=
  moves.rest.length_le

/-- The first part of a run without complaints has none. -/
theorem clean_left {c c₁ c₂ : Cursor} (first : Moves c c₁) (second : Moves c₁ c₂)
    (clean : c₂.diagnostics = c.diagnostics) : c₁.diagnostics = c.diagnostics := by
  have shorter := first.diagnostics.length_le
  have longer := second.diagnostics.length_le
  rw [clean] at longer
  exact (first.diagnostics.eq_of_length (by omega)).symm

/-- The second part of a run without complaints has none. -/
theorem clean_right {c c₁ c₂ : Cursor} (first : Moves c c₁) (second : Moves c₁ c₂)
    (clean : c₂.diagnostics = c.diagnostics) : c₂.diagnostics = c₁.diagnostics :=
  clean.trans (first.clean_left second clean).symm

end Moves

theorem moves_advance (c : Cursor) : Moves c c.advance := by
  unfold advance
  split
  · exact .refl c
  next t rest ahead => exact ⟨⟨[t], by simp [ahead]⟩, List.prefix_rfl⟩

theorem moves_skipWhile (skipped : Kind → Bool) (c : Cursor) : Moves c (c.skipWhile skipped) :=
  ⟨List.dropWhile_suffix _, List.prefix_rfl⟩

theorem moves_complain (c : Cursor) (complaint : Complaint) (span : Span) :
    Moves c (c.complain complaint span) :=
  ⟨List.suffix_rfl, List.prefix_append _ _⟩

theorem moves_synchronized (c : Cursor) : Moves c c.synchronized := by
  simp only [synchronized]
  split
  · exact (moves_skipWhile _ c).trans (moves_advance _)
  · exact moves_skipWhile _ c

theorem moves_pastNewlines (c : Cursor) : Moves c c.pastNewlines := moves_skipWhile _ c

theorem moves_pastSeparators (c : Cursor) : Moves c c.pastSeparators := moves_skipWhile _ c

theorem moves_pastModifiers (c : Cursor) : Moves c c.pastModifiers := moves_skipWhile _ c

/-- A run that complains at its start is not clean. -/
theorem Moves.not_clean {c c' : Cursor} {complaint : Complaint} {span : Span}
    (moves : Moves (c.complain complaint span) c') : c'.diagnostics ≠ c.diagnostics := by
  intro clean
  have longer := moves.diagnostics.length_le
  simp only [clean, complain, List.length_append, List.length_singleton] at longer
  omega

@[simp] theorem diagnostics_advance (c : Cursor) : c.advance.diagnostics = c.diagnostics := by
  unfold advance
  split <;> rfl

@[simp] theorem diagnostics_skipWhile (skipped : Kind → Bool) (c : Cursor) :
    (c.skipWhile skipped).diagnostics = c.diagnostics := rfl

@[simp] theorem diagnostics_pastNewlines (c : Cursor) :
    c.pastNewlines.diagnostics = c.diagnostics := rfl

@[simp] theorem diagnostics_pastSeparators (c : Cursor) :
    c.pastSeparators.diagnostics = c.diagnostics := rfl

@[simp] theorem diagnostics_pastModifiers (c : Cursor) :
    c.pastModifiers.diagnostics = c.diagnostics := rfl

/-! ## The token ahead -/

theorem next_kind (c : Cursor) : c.next.kind = c.kind := rfl

theorem kind_of_rest_nil {c : Cursor} (empty : c.rest = []) : c.kind = .endOfFile := by
  simp [kind, next, empty, Token.missing]

theorem kind_of_rest_cons {c : Cursor} {t : Token} {rest : List Token} (ahead : c.rest = t :: rest) :
    c.kind = t.kind := by
  simp [kind, next, ahead]

/-- A token that does not end the list is there to be taken. -/
theorem advance_lt {c : Cursor} (ahead : c.kind ≠ .endOfFile) :
    c.advance.rest.length < c.rest.length := by
  unfold advance
  split
  next empty => exact absurd (kind_of_rest_nil empty) ahead
  next t rest ahead => simp [ahead]

/-- From a token that does not end the list, going on and taking a token takes one at least. -/
theorem Moves.advance_lt {c c' : Cursor} (moves : Moves c c') (ahead : c.kind ≠ .endOfFile) :
    c'.advance.rest.length < c.rest.length := by
  rcases Nat.lt_or_ge c'.rest.length c.rest.length with less | notLess
  · exact Nat.lt_of_le_of_lt c'.moves_advance.length_le less
  · have same : c'.rest = c.rest := moves.rest.eq_of_length_le notLess
    rw [← same]
    apply Cursor.advance_lt
    rwa [kind, next, same]

/-- A cursor behind the tokens of some kinds is at a token of another kind. -/
theorem skipWhile_kind {skipped : Kind → Bool} {c : Cursor} (atEnd : skipped .endOfFile = false) :
    skipped (c.skipWhile skipped).kind = false := by
  have stopped := List.head?_dropWhile_not (fun t : Token => skipped t.kind) c.rest
  simp only [kind, next, skipWhile]
  cases left : (c.rest.dropWhile fun t => skipped t.kind).head? with
  | none => simpa [Token.missing] using atEnd
  | some t => simpa [left] using stopped

theorem takeWhile_of_stopped {skipped : Kind → Bool} {c : Cursor} (stopped : skipped c.kind = false) :
    c.rest.takeWhile (fun t => skipped t.kind) = [] := by
  cases ahead : c.rest with
  | nil => rfl
  | cons t rest =>
    rw [kind_of_rest_cons ahead] at stopped
    simp [stopped]

theorem takeWhile_of_skipped {skipped : Kind → Bool} {c : Cursor} (ahead : c.kind ≠ .endOfFile)
    (isSkipped : skipped c.kind = true) :
    c.rest.takeWhile (fun t => skipped t.kind) =
      c.next :: c.advance.rest.takeWhile fun t => skipped t.kind := by
  cases tokens : c.rest with
  | nil => exact absurd (kind_of_rest_nil tokens) ahead
  | cons t rest =>
    rw [kind_of_rest_cons tokens] at isSkipped
    simp [advance, next, tokens, isSkipped]

theorem skipWhile_eq_self {skipped : Kind → Bool} {c : Cursor} (stopped : skipped c.kind = false) :
    c.skipWhile skipped = c := by
  obtain ⟨rest, last, diagnostics⟩ := c
  cases rest with
  | nil => simp [skipWhile]
  | cons t rest =>
    have notSkipped : skipped t.kind = false := stopped
    simp [skipWhile, notSkipped]

/-- Skipping tokens is taking them one by one. -/
theorem skipWhile_of_skipped {skipped : Kind → Bool} {c : Cursor} (ahead : c.kind ≠ .endOfFile)
    (isSkipped : skipped c.kind = true) : c.skipWhile skipped = c.advance.skipWhile skipped := by
  obtain ⟨rest, last, diagnostics⟩ := c
  cases rest with
  | nil => exact absurd rfl ahead
  | cons t rest =>
    have isSkipped : skipped t.kind = true := isSkipped
    simp only [skipWhile, advance, isSkipped, List.dropWhile_cons_of_pos, List.takeWhile_cons_of_pos,
      Cursor.mk.injEq, and_true, true_and]
    cases rest.takeWhile fun t => skipped t.kind with
    | nil => rfl
    | cons u more =>
      rw [List.getLast?_cons_cons, Option.or_of_isSome (by simp), Option.or_of_isSome (by simp)]

/-- Induction over the tokens that are skipped. -/
theorem skip_induction {skipped : Kind → Bool} (atEnd : skipped .endOfFile = false)
    {motive : Cursor → Prop} (stop : ∀ c, skipped c.kind = false → motive c)
    (skip : ∀ c, c.kind ≠ .endOfFile → skipped c.kind = true → motive c.advance → motive c)
    (c : Cursor) : motive c := by
  induction more : c.rest.length using Nat.strongRecOn generalizing c with
  | ind more ih =>
    cases isSkipped : skipped c.kind with
    | false => exact stop c isSkipped
    | true =>
      have notEnd : c.kind ≠ .endOfFile := by
        intro ends
        simp [ends, atEnd] at isSkipped
      exact skip c notEnd isSkipped (ih _ (more ▸ advance_lt notEnd) _ rfl)

theorem pastNewlines_eq_self {c : Cursor} (ahead : c.kind ≠ .newline) : c.pastNewlines = c :=
  skipWhile_eq_self (by simpa using ahead)

@[simp] theorem pastNewlines_pastNewlines (c : Cursor) :
    c.pastNewlines.pastNewlines = c.pastNewlines :=
  skipWhile_eq_self (@skipWhile_kind (· = .newline) c (by decide))

theorem pastModifiers_eq_self {c : Cursor} (ahead : c.kind.isModifier = false) :
    c.pastModifiers = c :=
  skipWhile_eq_self ahead

/-- A token that stops the skipping of others is still ahead. -/
theorem kind_ne_endOfFile_of_pastNewlines {c : Cursor} (ahead : c.pastNewlines.kind ≠ .endOfFile) :
    c.kind ≠ .endOfFile := by
  intro atEnd
  rw [pastNewlines_eq_self (by rw [atEnd]; decide)] at ahead
  exact ahead atEnd

end Cursor

namespace Parser

theorem kind_ne_endOfFile {c : Cursor} {asks : Kind → Bool} (atEnd : asks .endOfFile = false)
    (ahead : asks c.kind = true) : c.kind ≠ .endOfFile := by
  intro same
  simp [same, atEnd] at ahead

/-! ## What a run ends with -/

/-- The parser answers at the cursor, and its answer satisfies `Q`. -/
def Ends {α : Type} (p : Parser α) (c : Cursor) (Q : α → Cursor → Prop) : Prop :=
  ∃ a c', p c = some (a, c') ∧ Q a c'

section Ends

variable {α β : Type} {c : Cursor} {Q : α → Cursor → Prop}

theorem Ends.mono {p : Parser α} {Q' : α → Cursor → Prop} (ends : Ends p c Q)
    (weaker : ∀ a c', Q a c' → Q' a c') : Ends p c Q' := by
  obtain ⟨a, c', run, holds⟩ := ends
  exact ⟨a, c', run, weaker a c' holds⟩

theorem bind_run (p : Parser β) (f : β → Parser α) (c : Cursor) :
    (p >>= f) c = (p c).bind fun r => f r.1 r.2 := rfl

@[simp] theorem ends_pure (a : α) : Ends (pure a) c Q ↔ Q a c := by
  constructor
  · rintro ⟨a', c', run, holds⟩
    cases run
    exact holds
  · exact fun holds => ⟨a, c, rfl, holds⟩

@[simp] theorem ends_bind (p : Parser β) (f : β → Parser α) :
    Ends (p >>= f) c Q ↔ Ends p c fun b c₁ => Ends (f b) c₁ Q := by
  constructor
  · rintro ⟨a, c', run, holds⟩
    rw [bind_run, Option.bind_eq_some_iff] at run
    obtain ⟨⟨b, c₁⟩, first, second⟩ := run
    exact ⟨b, c₁, first, a, c', second, holds⟩
  · rintro ⟨b, c₁, first, a, c', second, holds⟩
    exact ⟨a, c', by rw [bind_run, first]; exact second, holds⟩

@[simp] theorem ends_map (f : β → α) (p : Parser β) :
    Ends (f <$> p) c Q ↔ Ends p c fun b c₁ => Q (f b) c₁ := by
  rw [show f <$> p = p >>= fun b => pure (f b) from rfl, ends_bind]
  simp only [ends_pure]

@[simp] theorem ends_get {Q : Cursor → Cursor → Prop} : Ends get c Q ↔ Q c c :=
  ends_pure (c := c) c

@[simp] theorem ends_set {Q : PUnit → Cursor → Prop} (c₁ : Cursor) :
    Ends (set c₁) c Q ↔ Q ⟨⟩ c₁ := by
  constructor
  · rintro ⟨a, c', run, holds⟩
    cases run
    exact holds
  · exact fun holds => ⟨⟨⟩, c₁, rfl, holds⟩

@[simp] theorem ends_modify {Q : PUnit → Cursor → Prop} (f : Cursor → Cursor) :
    Ends (modify f) c Q ↔ Q ⟨⟩ (f c) := by
  constructor
  · rintro ⟨a, c', run, holds⟩
    cases run
    exact holds
  · exact fun holds => ⟨⟨⟩, f c, rfl, holds⟩

@[simp] theorem ends_peek {Q : Token → Cursor → Prop} : Ends peek c Q ↔ Q c.next c := by
  simp [peek]

@[simp] theorem ends_peekKind {Q : Kind → Cursor → Prop} : Ends peekKind c Q ↔ Q c.kind c := by
  simp [peekKind]

@[simp] theorem ends_advance {Q : Token → Cursor → Prop} :
    Ends advance c Q ↔ Q c.next c.advance := by
  simp [advance]

@[simp] theorem ends_complain {Q : Unit → Cursor → Prop} (complaint : Complaint) (span : Span) :
    Ends (complain complaint span) c Q ↔ Q () (c.complain complaint span) := by
  simp [complain]

@[simp] theorem ends_expect {Q : Token × Bool → Cursor → Prop} (kind : Kind) :
    Ends (expect kind) c Q ↔
      if c.kind = kind then Q (c.next, true) c.advance
      else Q (c.next, false) (c.complain (.expectedKind kind c.kind) c.next.span) := by
  simp only [expect, ends_bind, ends_peek]
  by_cases same : c.next.kind = kind
  · simp [same, Cursor.kind]
  · simp [same, Cursor.kind]

@[simp] theorem ends_require {Q : Unit → Cursor → Prop} (kind : Kind) :
    Ends (require kind) c Q ↔
      if c.kind = kind then Q () c.advance
      else Q () (c.complain (.expectedKind kind c.kind) c.next.span) := by
  simp [require]

@[simp] theorem ends_skipNewlines {Q : Unit → Cursor → Prop} :
    Ends skipNewlines c Q ↔ Q () c.pastNewlines := by
  simp [skipNewlines, Cursor.pastNewlines]

@[simp] theorem ends_skipSeparators {Q : Unit → Cursor → Prop} :
    Ends skipSeparators c Q ↔ Q () c.pastSeparators := by
  simp [skipSeparators, Cursor.pastSeparators]

@[simp] theorem ends_synchronize {Q : Unit → Cursor → Prop} :
    Ends synchronize c Q ↔ Q () c.synchronized := by
  simp only [synchronize, ends_bind, ends_modify, ends_peekKind, Cursor.synchronized]
  split <;> simp

@[simp] theorem ends_spanFrom {Q : Span → Cursor → Prop} (first : Position) :
    Ends (spanFrom first) c Q ↔ Q ⟨first, c.lastEnd⟩ c := by
  simp [spanFrom]

end Ends

/-! ## Loops -/

section Loop

variable {α : Type} {more : Kind → Bool} {body : α → Parser α}
  (P : α → Cursor → α → Cursor → Prop) (bound : Nat)

/-- A loop whose rounds take a token each has rounds enough, and relates its start to its end by
    any relation that holds of a loop without rounds and is kept by putting a round in front. -/
theorem ends_loopWithin
    (stop : ∀ a c, more c.kind = false → P a c a c)
    (round : ∀ a c, c.rest.length ≤ bound → more c.kind = true →
      Ends (body a) c fun a₁ c₁ =>
        c₁.rest.length < c.rest.length ∧ ∀ a₂ c₂, P a₁ c₁ a₂ c₂ → P a c a₂ c₂)
    (rounds : Nat) (a : α) (c : Cursor) (within : c.rest.length ≤ bound)
    (enough : c.rest.length < rounds) :
    Ends (loopWithin more body rounds a) c (P a c) := by
  induction rounds generalizing a c with
  | zero => omega
  | succ rounds ih =>
    simp only [loopWithin, ends_bind, ends_peekKind]
    by_cases asks : more c.kind = true
    · simp only [asks, ↓reduceIte, ends_bind]
      refine (round a c within asks).mono ?_
      rintro a₁ c₁ ⟨shorter, extend⟩
      exact (ih a₁ c₁ (by omega) (by omega)).mono fun a₂ c₂ => extend a₂ c₂
    · simp only [asks, Bool.false_eq_true, ↓reduceIte, ends_pure]
      exact stop a c (by simpa using asks)

theorem ends_loop
    (stop : ∀ a c, more c.kind = false → P a c a c)
    (round : ∀ a c, c.rest.length ≤ bound → more c.kind = true →
      Ends (body a) c fun a₁ c₁ =>
        c₁.rest.length < c.rest.length ∧ ∀ a₂ c₂, P a₁ c₁ a₂ c₂ → P a c a₂ c₂)
    (a : α) (c : Cursor) (within : c.rest.length ≤ bound) :
    Ends (loop more body a) c (P a c) := by
  simp only [loop, ends_bind, ends_get]
  exact ends_loopWithin P bound stop round _ a c within (Nat.lt_succ_self _)

end Loop

end Parser

end ClassScript
