import ClassScript.Proofs.Parser.Answers
import ClassScript.Proofs.Parser.Places

/-! # Diagnostics of expressions

A parser is in one of two states.  It stands before some token of the source and all diagnostics so far point into
the source (`Clear`), or it has taken the end token and the last diagnostics have no place (`Past`).  Expressions
stay in the first state (`Reached`): they never take the end token.
-/

namespace ClassScript.Parser

open Cursor (Walk)

variable {source : List UInt8}

/-! ## Diagnostics -/

def missingStatement (source : List UInt8) : Diagnostic where
  complaint := .unexpectedToken ""
  span := ⟨.behind source, .behind source⟩

/-- A diagnostic that points into the source, and is not about a missing statement. -/
structure Pointed (source : List UInt8) (d : Diagnostic) : Prop where
  place : d.span.In source
  other : d ≠ missingStatement source

def isUnexpected : Complaint → Bool
  | .unexpectedToken _ => true
  | _ => false

theorem pointed_of_complaint {complaint : Complaint} {span : Span} (place : span.In source)
    (other : isUnexpected complaint = false) : Pointed source { complaint, span } := by
  refine ⟨place, fun same => ?_⟩
  have is : complaint = .unexpectedToken "" := congrArg Diagnostic.complaint same
  rw [is] at other
  cases other

/-- The diagnostics once the end token has been taken: those behind the missing statement have no place. -/
def Astray (source : List UInt8) (ds : List Diagnostic) : Prop :=
  ∃ before after, ds = before ++ missingStatement source :: after ∧ (∀ d ∈ before, Pointed source d) ∧
    ∀ d ∈ after, d.span = .none

/-! ## States -/

/-- The parser stands before a token of the source, and all diagnostics point there. -/
structure Clear (source : List UInt8) (c : Cursor) : Prop where
  here : c.Among source
  pointed : ∀ d ∈ c.diagnostics, Pointed source d

structure Past (source : List UInt8) (c : Cursor) : Prop where
  rest : c.rest = []
  astray : Astray source c.diagnostics

def Sound (source : List UInt8) (c : Cursor) : Prop := Clear source c ∨ Past source c

structure Goes (source : List UInt8) (c c' : Cursor) : Prop where
  walk : Walk source c c'
  pointed : ∀ d ∈ c'.diagnostics, Pointed source d

theorem Clear.stay {c : Cursor} (clear : Clear source c) : Goes source c c := ⟨clear.here.stay, clear.pointed⟩

namespace Goes

variable {c c₁ c₂ : Cursor}

theorem clear (goes : Goes source c c₁) : Clear source c₁ := ⟨goes.walk.here, goes.pointed⟩

theorem trans (first : Goes source c c₁) (second : Goes source c₁ c₂) : Goes source c c₂ :=
  ⟨first.walk.trans second.walk, second.pointed⟩

theorem advance (goes : Goes source c c₁) (notEnd : c₁.kind ≠ .endOfFile) : Goes source c c₁.advance :=
  ⟨goes.walk.advance notEnd, by simpa using goes.pointed⟩

theorem skipWhile {skipped : Kind → Bool} (atEnd : skipped .endOfFile = false) (goes : Goes source c c₁) :
    Goes source c (c₁.skipWhile skipped) :=
  ⟨goes.walk.skipWhile atEnd, goes.pointed⟩

theorem pastNewlines (goes : Goes source c c₁) : Goes source c c₁.pastNewlines := goes.skipWhile (by decide)

theorem complain (goes : Goes source c c₁) {complaint : Complaint} {span : Span}
    (pointed : Pointed source { complaint, span }) : Goes source c (c₁.complain complaint span) := by
  refine ⟨⟨goes.walk.here.complain complaint span, goes.walk.ahead, goes.walk.back⟩, ?_⟩
  simp only [Cursor.complain, List.forall_mem_append, List.forall_mem_singleton]
  exact ⟨goes.pointed, pointed⟩

end Goes

theorem Goes.sound {c c₁ : Cursor} (goes : Goes source c c₁) : Sound source c₁ := .inl goes.clear

namespace Past

variable {c : Cursor}

theorem kind_eq (past : Past source c) : c.kind = .endOfFile := Cursor.kind_of_rest_nil past.rest

theorem span_next (past : Past source c) : c.next.span = .none := by
  simp [Cursor.next, past.rest, Token.missing]

theorem complain (past : Past source c) (complaint : Complaint) :
    Past source (c.complain complaint c.next.span) := by
  obtain ⟨before, after, is, pointed, lost⟩ := past.astray
  refine ⟨past.rest, before, after ++ [{ complaint, span := c.next.span }], ?_, pointed, ?_⟩
  · rw [Cursor.complain, is, List.append_assoc, List.cons_append]
  · simp only [List.forall_mem_append, List.forall_mem_singleton]
    exact ⟨lost, past.span_next⟩

theorem advance (past : Past source c) : Past source c.advance := by
  have same : c.advance = c := by simp [Cursor.advance, past.rest]
  rwa [same]

end Past

namespace Sound

variable {c : Cursor}

/-- A token other than the end is only ahead before the end was taken. -/
theorem clear (sound : Sound source c) (notEnd : c.kind ≠ .endOfFile) : Clear source c := by
  cases sound with
  | inl clear => exact clear
  | inr past => exact absurd past.kind_eq notEnd

theorem advance (sound : Sound source c) (notEnd : c.kind ≠ .endOfFile) : Sound source c.advance :=
  ((sound.clear notEnd).stay.advance notEnd).sound

theorem skipWhile {skipped : Kind → Bool} (sound : Sound source c) (atEnd : skipped .endOfFile = false) :
    Sound source (c.skipWhile skipped) := by
  cases sound with
  | inl clear => exact (clear.stay.skipWhile atEnd).sound
  | inr past =>
    rw [Cursor.skipWhile_eq_self (past.kind_eq ▸ atEnd)]
    exact .inr past

theorem pastNewlines (sound : Sound source c) : Sound source c.pastNewlines := sound.skipWhile (by decide)

theorem pastSeparators (sound : Sound source c) : Sound source c.pastSeparators := sound.skipWhile (by decide)

theorem synchronized (sound : Sound source c) : Sound source c.synchronized := by
  have here : Sound source (c.skipWhile fun kind => !isBoundary kind) := sound.skipWhile (by decide)
  simp only [Cursor.synchronized]
  split
  case isTrue separates => exact here.advance (kind_ne_endOfFile (by decide) separates)
  case isFalse => exact here

/-- A complaint about the next token. -/
theorem complain (sound : Sound source c) {complaint : Complaint} (other : isUnexpected complaint = false) :
    Sound source (c.complain complaint c.next.span) := by
  cases sound with
  | inl clear => exact (clear.stay.complain (pointed_of_complaint clear.here.next_in other)).sound
  | inr past => exact .inr (past.complain complaint)

end Sound

/-! ## Expressions -/

structure Anchored (source : List UInt8) (c : Cursor) (n : Node) : Prop where
  place : n.span.In source
  before : n.span.first.offset ≤ c.back

structure Reached (source : List UInt8) (c : Cursor) (n : Node) (c' : Cursor) : Prop where
  goes : Goes source c c'
  anchored : n.isAbsent = false → Anchored source c' n

/-- What is asked of the parser for the parts of the grammar.  Expressions are asked for before some token, and
    at the end there is none; statements and members may be asked for in either state. -/
structure Tracks (source : List UInt8) (rec : Goal → Parser Node) : Prop where
  operand : ∀ power c, Clear source c → Gives (rec (.operand power)) c (Reached source c)
  expression : ∀ c, Clear source c → Gives (rec .expression) c (Reached source c)
  operandAtEnd : ∀ power c, c.kind = .endOfFile →
    Gives (rec (.operand power)) c fun n c' => n = .absent ∧ c' = c
  expressionAtEnd : ∀ c, c.kind = .endOfFile → Gives (rec .expression) c fun n c' => n = .absent ∧ c' = c
  statement : ∀ c, Sound source c → Gives (rec .statement) c fun _ c' => Sound source c'
  member : ∀ c, Sound source c → Gives (rec .member) c fun _ c' => Sound source c'

theorem expect_goes {c c₁ : Cursor} (goes : Goes source c c₁) {kind : Kind} (notEnd : kind ≠ .endOfFile) :
    Gives (expect kind) c₁ fun r c' => Goes source c c' ∧ r.1 = c₁.next ∧ (r.2 = true → c' = c₁.advance) := by
  rw [gives_expect]
  split
  case isTrue same =>
    subst same
    exact ⟨goes.advance notEnd, rfl, fun _ => rfl⟩
  case isFalse =>
    refine ⟨goes.complain (pointed_of_complaint goes.walk.here.next_in rfl), rfl, fun taken => ?_⟩
    cases taken

theorem require_goes {c c₁ : Cursor} (goes : Goes source c c₁) {kind : Kind} (notEnd : kind ≠ .endOfFile) :
    Gives (require kind) c₁ fun _ c' => Goes source c c' := by
  simp only [require, gives_bind, gives_pure]
  exact (expect_goes goes notEnd).mono fun r c' reached => reached.1

theorem Anchored.mono {c c' : Cursor} {n : Node} (anchored : Anchored source c n) (goes : Goes source c c') :
    Anchored source c' n :=
  ⟨anchored.place, Int.le_trans anchored.before goes.walk.back⟩

/-- A node that is as long as another one and a stretch of the source together. -/
theorem Anchored.cover {c : Cursor} {n node : Node} (anchored : Anchored source c n) {span : Span}
    (place : span.In source) (own : node.span = n.span.cover span) : Anchored source c node := by
  refine ⟨own ▸ anchored.place.cover place, ?_⟩
  have before := anchored.before
  rw [own]
  simp only [Span.cover]
  split <;> omega

theorem Reached.place {c c' : Cursor} {n : Node} (reached : Reached source c n c') (present : n.isAbsent = false) :
    n.span.In source := (reached.anchored present).place

theorem reached_absent {c c' : Cursor} (goes : Goes source c c') : Reached source c .absent c' := by
  refine ⟨goes, fun present => ?_⟩
  cases present

theorem assignTarget_goes {c c₁ : Cursor} {left : Node} (goes : Goes source c c₁) (place : left.span.In source)
    (operator : Token) : Gives (assignTarget left operator) c₁ fun _ c' => Goes source c c' := by
  cases left with
  | usage span target => exact (gives_pure target).2 goes
  | _ =>
    simp only [assignTarget, gives_bind, gives_complain, gives_pure]
    exact goes.complain (pointed_of_complaint place rfl)

theorem orNull_goes {c c₁ : Cursor} {found : Node} (goes : Goes source c c₁)
    (place : found.isAbsent = false → found.span.In source) {complaint : Token → Complaint}
    (other : ∀ t, isUnexpected (complaint t) = false) :
    Gives (orNull found complaint) c₁ fun n c' => Goes source c c' ∧ n.span.In source := by
  rw [orNull]
  split
  case isTrue =>
    simp only [gives_bind, gives_peek, gives_complain, gives_pure]
    have here := goes.walk.here.next_in
    exact ⟨goes.complain (pointed_of_complaint here (other _)), here⟩
  case isFalse present => exact (gives_pure found).2 ⟨goes, place (by simpa using present)⟩

theorem memberRead_goes {c : Cursor} {left : Node} (clear : Clear source c) (ahead : c.kind = .dot)
    (anchored : Anchored source c left) :
    Gives (memberRead left) c fun n c' => Goes source c c' ∧ Anchored source c' n := by
  have goes := (clear.stay.advance (by simp [ahead])).pastNewlines
  simp only [memberRead, gives_bind, gives_advance, gives_skipNewlines, gives_pure]
  refine (expect_goes goes (by decide)).mono fun r c' reached => ⟨reached.1, ?_⟩
  rw [reached.2.1]
  exact (anchored.mono reached.1).cover goes.walk.here.next_in rfl

/-- The next token is taken, and a node made of it. -/
theorem anchored_next {c : Cursor} (clear : Clear source c) {n : Node} (own : n.span = c.next.span) :
    Anchored source c.advance n := by
  constructor
  · rw [own]
    exact clear.here.next_in
  · rw [own]
    exact clear.here.ahead_le_back_advance

theorem anchored_cover_next {c c' : Cursor} (clear : Clear source c) (goes : Goes source c.advance c')
    {n operand : Node} (place : operand.span.In source) (own : n.span = c.next.span.cover operand.span) :
    Anchored source c' n :=
  ((anchored_next (n := .null c.next.span) clear rfl).mono goes).cover place own

theorem literal_goes {c : Cursor} (clear : Clear source c) (notEnd : c.kind ≠ .endOfFile) {n : Node}
    (own : n.span = c.next.span) : Gives (do let _ ← advance; return n) c (Reached source c) := by
  simp only [gives_bind, gives_advance, gives_pure]
  exact ⟨clear.stay.advance notEnd, fun _ => anchored_next clear own⟩

theorem number_goes {c : Cursor} (clear : Clear source c) (notEnd : c.kind ≠ .endOfFile) {n : Node}
    (own : n.span = c.next.span) (fits : Bool) {complaint : Complaint}
    (other : isUnexpected complaint = false) : Gives (do
      let _ ← advance
      if !fits then complain complaint c.next.span
      return n) c (Reached source c) := by
  have goes := clear.stay.advance notEnd
  have anchored := anchored_next clear own
  cases fits with
  | true =>
    simp only [gives_bind, gives_advance, gives_pure, Bool.not_true, Bool.false_eq_true, ↓reduceIte]
    exact ⟨goes, fun _ => anchored⟩
  | false =>
    simp only [gives_bind, gives_advance, gives_pure, gives_complain, Bool.not_false, ↓reduceIte]
    have complained := goes.complain (pointed_of_complaint clear.here.next_in other)
    exact ⟨complained, fun _ => ⟨anchored.place, anchored.before⟩⟩

theorem span_negate (span : Span) (operand : Node) : (negate span operand).span = span := by
  cases operand <;> rfl

section Rules

variable {rec : Goal → Parser Node}

/-! At the end of the tokens no expression begins, and nothing is taken or complained about. -/

theorem atom_atEnd {c : Cursor} (atEnd : c.kind = .endOfFile) :
    Gives (atom rec) c fun n c' => n = .absent ∧ c' = c := by
  have is : c.next.kind = .endOfFile := atEnd
  simp [atom, is]

theorem operand_atEnd {c : Cursor} (atEnd : c.kind = .endOfFile) (power : Nat) :
    Gives (operand rec power) c fun n c' => n = .absent ∧ c' = c := by
  simp only [operand, gives_bind]
  refine (atom_atEnd atEnd).mono ?_
  rintro _ _ ⟨rfl, rfl⟩
  simp [Node.isAbsent]

variable (tracks : Tracks source rec)

include tracks

theorem expression_atEnd {c : Cursor} (atEnd : c.kind = .endOfFile) :
    Gives (expression rec) c fun n c' => n = .absent ∧ c' = c := by
  simp only [expression, gives_bind]
  refine (tracks.operandAtEnd 0 c atEnd).mono ?_
  rintro _ _ ⟨rfl, rfl⟩
  simp [Node.isAbsent]

theorem argument_goes {c c₁ : Cursor} (goes : Goes source c c₁) :
    Gives (argument rec) c₁ fun _ c' => Goes source c c' := by
  simp only [argument, gives_bind]
  refine (tracks.expression c₁ goes.clear).mono fun n c₂ reached => ?_
  exact (orNull_goes (goes.trans reached.goes) reached.place fun _ => rfl).mono fun n c' found => found.1

theorem arguments_goes {c : Cursor} (clear : Clear source c) :
    Gives (arguments rec) c fun _ c' => Goes source c c' := by
  -- With arguments or without, the list ends in the same way.
  have rest (args : List Node) {c₁ : Cursor} (goes : Goes source c c₁) :
      Gives (do skipNewlines; require .rightParen; return args) c₁ fun _ c' => Goes source c c' := by
    simp only [gives_bind, gives_skipNewlines, gives_pure]
    exact require_goes goes.pastNewlines (by decide)
  simp only [arguments, gives_bind]
  refine (expect_goes clear.stay (by decide)).mono ?_
  rintro ⟨_, opened⟩ c₁ ⟨goes, _⟩
  cases opened with
  | false => exact (gives_pure _).2 goes
  | true =>
    simp only [Bool.not_true, Bool.false_eq_true, ↓reduceIte, gives_bind, gives_skipNewlines, gives_peekKind]
    split
    · exact rest [] goes.pastNewlines
    · simp only [gives_bind]
      refine (argument_goes tracks goes.pastNewlines).mono fun head c₂ goes => ?_
      refine Gives.mono (gives_loop_from (I := fun _ c' => Goes source c c') ?_ goes) fun args c₃ goes => ?_
      · intro args c₃ comma goes
        simp only [gives_bind, gives_advance, gives_skipNewlines, gives_pure]
        exact argument_goes tracks (goes.advance (by simp_all)).pastNewlines
      · simpa only [gives_bind] using rest args goes

theorem callOf_goes {c : Cursor} {callee : Node} (clear : Clear source c) (anchored : Anchored source c callee) :
    Gives (callOf rec callee) c fun n c' => Goes source c c' ∧ Anchored source c' n := by
  simp only [callOf, gives_bind, gives_get, gives_pure]
  refine (arguments_goes tracks clear).mono fun args c' goes => ⟨goes, ?_⟩
  have before := (anchored.mono goes).before
  exact ⟨⟨anchored.place.first, goes.walk.here.lastEnd_in, before⟩, before⟩

theorem binaryWith_goes {c : Cursor} {left : Node} (clear : Clear source c) (notEnd : c.kind ≠ .endOfFile)
    (anchored : Anchored source c left) (operator : Token) (op : BinaryOp) :
    Gives (binaryWith rec left operator op) c fun n c' => Goes source c c' ∧ Anchored source c' n := by
  have goes := (clear.stay.advance notEnd).pastNewlines
  simp only [binaryWith, gives_bind, gives_advance, gives_skipNewlines, gives_pure]
  refine (tracks.operand _ _ goes.clear).mono fun right c₁ reached => ?_
  refine (orNull_goes (goes.trans reached.goes) reached.place fun _ => rfl).mono fun right c' found => ⟨found.1, ?_⟩
  exact (anchored.mono found.1).cover found.2 rfl

theorem extend_goes {c : Cursor} {left : Node} (clear : Clear source c) (anchored : Anchored source c left) :
    Gives (extend rec left) c fun n c' => Goes source c c' ∧ Anchored source c' n := by
  have step (notEnd : c.kind ≠ .endOfFile) : Gives (do
      let _ ← advance
      return Node.assignment (left.span.cover c.next.span) (assignOp c.next) (← assignTarget left c.next) .absent) c
      fun n c' => Goes source c c' ∧ Anchored source c' n := by
    simp only [gives_bind, gives_advance, gives_pure]
    refine (assignTarget_goes (clear.stay.advance notEnd) anchored.place _).mono fun target c' goes => ⟨goes, ?_⟩
    exact (anchored.mono goes).cover clear.here.next_in rfl
  simp only [extend, gives_bind, gives_peek]
  split
  case h_1 is | h_2 is => exact step (by simp [Cursor.kind, is])
  case h_3 => exact callOf_goes tracks clear anchored
  case h_4 is => exact memberRead_goes clear is anchored
  case h_5 =>
    split
    case h_1 op isOp =>
      refine binaryWith_goes tracks clear (fun atEnd => ?_) anchored _ _
      rw [show c.next.kind = .endOfFile from atEnd] at isOp
      cases isOp
    case h_2 => exact (gives_pure left).2 ⟨clear.stay, anchored⟩

theorem instantiation_goes {c : Cursor} (clear : Clear source c) (ahead : c.kind = .newWord) :
    Gives (instantiation rec) c (Reached source c) := by
  have taken := clear.stay.advance (by simp [ahead])
  -- With or without a name behind `new`, the node begins at that word and ends with the token taken last.
  have spanned {c' : Cursor} (goes : Goes source c.advance c') {n : Node}
      (own : n.span = ⟨c.next.span.first, c'.lastEnd⟩) : Reached source c n c' := by
    refine ⟨taken.trans goes, fun _ => ⟨?_, ?_⟩⟩
    · rw [own]
      exact clear.here.span_in goes.walk
    · rw [own]
      exact clear.here.ahead_le_back goes.walk
  simp only [instantiation, gives_bind, gives_advance]
  refine (expect_goes taken.clear.stay (by decide)).mono ?_
  rintro ⟨name, found⟩ c₁ ⟨goes, rfl, isNext⟩
  cases found with
  | false =>
    simp only [Bool.not_false, ↓reduceIte, gives_bind, gives_spanFrom, gives_pure]
    exact spanned goes rfl
  | true =>
    obtain rfl := isNext rfl
    simp only [Bool.not_true, Bool.false_eq_true, ↓reduceIte, gives_bind, gives_spanFrom, gives_pure]
    refine Gives.mono (gives_loop_from (I := fun n c' => Goes source c.advance c' ∧ Anchored source c' n) ?_
      ⟨goes, anchored_next taken.clear rfl⟩) fun blueprint c₂ named => ?_
    · rintro left c₂ dot ⟨goes, anchored⟩
      exact (memberRead_goes goes.clear (by simpa using dot) anchored).mono fun n c' read =>
        ⟨goes.trans read.1, read.2⟩
    · exact (arguments_goes tracks named.1.clear).mono fun args c' goes => spanned (named.1.trans goes) rfl

theorem stepFront_goes {c : Cursor} (clear : Clear source c) (notEnd : c.kind ≠ .endOfFile) : Gives (do
    let _ ← advance
    let operand ← rec (.operand signPower)
    if operand.isAbsent then return Node.absent
    return Node.assignment (c.next.span.cover operand.span) (assignOp c.next)
      (← assignTarget operand c.next) .absent) c (Reached source c) := by
  have taken := clear.stay.advance notEnd
  simp only [gives_bind, gives_advance]
  refine (tracks.operand _ _ taken.clear).mono fun operand c₁ reached => ?_
  split
  case isTrue => exact (gives_pure _).2 (reached_absent (taken.trans reached.goes))
  case isFalse present =>
    have place := reached.place (by simpa using present)
    simp only [gives_bind, gives_pure]
    refine (assignTarget_goes reached.goes place _).mono fun target c' goes => ⟨taken.trans goes, fun _ => ?_⟩
    exact anchored_cover_next clear goes place rfl

theorem atom_goes {c : Cursor} (clear : Clear source c) : Gives (atom rec) c (Reached source c) := by
  simp only [atom, gives_bind, gives_peek]
  -- One goal for each kind of token that `atom` looks for, in its order.
  split
  case h_1 is | h_2 is => exact number_goes clear (by simp [Cursor.kind, is]) rfl _ rfl
  case h_3 is | h_4 is | h_5 is | h_6 is => exact literal_goes clear (by simp [Cursor.kind, is]) rfl
  case h_7 is =>
    -- A group is its inner expression, which ends before the parenthesis that closes it.
    have goes := (clear.stay.advance (by simp [Cursor.kind, is])).pastNewlines
    simp only [gives_bind, gives_advance, gives_skipNewlines, gives_pure]
    refine (tracks.expression _ goes.clear).mono fun inner c₁ reached => ?_
    refine (require_goes reached.goes.clear.stay.pastNewlines (by decide)).mono fun _ c' closing => ?_
    exact ⟨(goes.trans reached.goes).trans closing, fun present => (reached.anchored present).mono closing⟩
  case h_8 is =>
    -- A minus sign makes a node over itself and its operand.
    have taken := clear.stay.advance (by simp [Cursor.kind, is])
    have lines := taken.clear.stay.pastNewlines
    simp only [gives_bind, gives_advance, gives_skipNewlines]
    refine (tracks.operand _ _ lines.clear).mono fun operand c' reached => ?_
    have goes := lines.trans reached.goes
    split
    case isTrue => exact (gives_pure _).2 (reached_absent (taken.trans goes))
    case isFalse present =>
      have place := reached.place (by simpa using present)
      refine (gives_pure _).2 ⟨taken.trans goes, fun _ => ?_⟩
      exact anchored_cover_next clear goes place (span_negate _ operand)
  case h_9 is =>
    -- A plus sign leaves its operand as it is.
    have goes := (clear.stay.advance (by simp [Cursor.kind, is])).pastNewlines
    simp only [gives_bind, gives_advance, gives_skipNewlines]
    exact (tracks.operand _ _ goes.clear).mono fun operand c' reached =>
      ⟨goes.trans reached.goes, reached.anchored⟩
  case h_10 is | h_11 is => exact stepFront_goes tracks clear (by simp [Cursor.kind, is])
  case h_12 is => exact instantiation_goes tracks clear is
  case h_13 => exact (gives_pure _).2 (reached_absent clear.stay)

theorem operand_goes (power : Nat) {c : Cursor} (clear : Clear source c) :
    Gives (operand rec power) c (Reached source c) := by
  simp only [operand, gives_bind]
  refine (atom_goes tracks clear).mono fun left c₁ reached => ?_
  split
  case isTrue => exact (gives_pure _).2 (reached_absent reached.goes)
  case isFalse present =>
    have anchored := reached.anchored (by simpa using present)
    -- Each operator behind the operand makes a new left operand, which begins where the old one did.
    refine Gives.mono (gives_loop_from (I := fun n c' => Goes source c c' ∧ Anchored source c' n) ?_
      ⟨reached.goes, anchored⟩) fun n c' reached => ⟨reached.1, fun _ => reached.2⟩
    rintro left c₂ _ ⟨goes, anchored⟩
    exact (extend_goes tracks goes.clear anchored).mono fun n c' reached => ⟨goes.trans reached.1, reached.2⟩

theorem expression_goes {c : Cursor} (clear : Clear source c) : Gives (expression rec) c (Reached source c) := by
  simp only [expression, gives_bind]
  refine (tracks.operand 0 c clear).mono fun left c₁ reached => ?_
  split
  case isTrue => exact (gives_pure _).2 (reached_absent reached.goes)
  case isFalse present =>
    have anchored := reached.anchored (by simpa using present)
    simp only [gives_bind, gives_peekKind]
    split
    case isTrue => exact (gives_pure left).2 reached
    case isFalse assigns =>
      have asks : assignsValue c₁.kind = true := by simpa using assigns
      have notEnd := kind_ne_endOfFile (by decide) asks
      have goes := (reached.goes.clear.stay.advance notEnd).pastNewlines
      simp only [gives_bind, gives_advance, gives_skipNewlines, gives_pure]
      refine (tracks.expression _ goes.clear).mono fun value c₂ reachedValue => ?_
      refine (orNull_goes (goes.trans reachedValue.goes) reachedValue.place fun _ => rfl).mono fun value c₃ found => ?_
      refine (assignTarget_goes found.1 anchored.place _).mono fun target c' goes => ?_
      exact ⟨reached.goes.trans goes, fun _ => (anchored.mono goes).cover found.2 rfl⟩

end Rules

end ClassScript.Parser
