import ClassScript.Proofs.Parser.Diagnostics.Statement

/-! # Where diagnostics point

Diagnostics point into the source, with one exception.  A statement that is missing at the end of the source is
complained about there, and then the end token is taken as if it were a statement; whatever comes up after that
has no place (`diagnostics_placed`).
-/

namespace ClassScript.Parser

variable {source : List UInt8}

/-! ## Programs -/

theorem tracks_parse (source : List UInt8) (depth : Nat) : Tracks source (parse depth) := by
  induction depth with
  | zero =>
    -- Without depth the parser yields nothing, so nothing is asked of it.
    have nothing {goal : Goal} {c : Cursor} {Q : Node → Cursor → Prop} : Gives (parse 0 goal) c Q := by
      intro n c' run
      cases run
    exact ⟨fun _ _ _ => nothing, fun _ _ => nothing, fun _ _ _ => nothing, fun _ _ => nothing,
      fun _ _ => nothing, fun _ _ => nothing⟩
  | succ depth ih => exact tracks_rule ih

theorem parseTokens_sound (source : List UInt8) :
    (∀ d ∈ (parseTokens (tokenize source).1).2, Pointed source d) ∨
      Astray source (parseTokens (tokenize source).1).2 := by
  obtain ⟨tree, c', run, _⟩ := run_ends (tokenize source).1
  have start : Sound source { rest := (tokenize source).1 } := .inl ⟨Cursor.among_start source, by simp⟩
  have gives : Gives (program (depthFor (tokenize source).1)) { rest := (tokenize source).1 }
      fun _ c' => Sound source c' := by
    simp only [program, gives_bind, gives_peek, gives_pure]
    exact statements_sound (tracks_parse source _) _ start
  rw [parseTokens, run]
  cases gives tree c' run with
  | inl clear => exact .inl clear.pointed
  | inr past => exact .inr past.astray

/-! ## Sources -/

theorem span_in_of_mem_place {source before : List UInt8} {pieces : List Piece}
    (whole : before ++ pieces.flatMap Piece.bytes = source) :
    ∀ p ∈ Piece.place (.behind before) pieces, p.span.In source := by
  induction pieces generalizing before with
  | nil => simp [Piece.place]
  | cons piece pieces ih =>
    rw [List.flatMap_cons, ← List.append_assoc] at whole
    rw [Piece.place, Position.advance_behind, List.forall_mem_cons]
    refine ⟨⟨⟨before, ?_, rfl⟩, ⟨_, ⟨_, whole⟩, rfl⟩, ?_⟩, ih whole⟩
    · exact (List.prefix_append before _).trans ⟨_, whole⟩
    · simp only [Position.offset_behind, List.length_append]
      omega

theorem isUnexpected_of_complaint? {p : PlacedPiece} {complaint : Complaint}
    (complains : p.complaint? = some complaint) : isUnexpected complaint = false := by
  rw [PlacedPiece.complaint?] at complains
  split at complains
  case h_1 =>
    split at complains
    · cases complains
      rfl
    · split at complains <;> cases complains <;> rfl
  case h_2 =>
    split at complains
    · cases complains
      rfl
    · cases complains
  case h_3 =>
    cases complains
    rfl
  case h_4 => cases complains

/-- The diagnostics about the tokens of a source point into it. -/
theorem pointed_of_mem_tokenize {source : List UInt8} {d : Diagnostic} (member : d ∈ (tokenize source).2) :
    Pointed source d := by
  obtain ⟨p, placed, isDiagnostic⟩ := List.mem_filterMap.1 member
  obtain ⟨complaint, complains, rfl⟩ := Option.map_eq_some_iff.1 isDiagnostic
  have whole : [] ++ (Piece.cut source).flatMap Piece.bytes = source := Piece.bytes_cut source
  exact pointed_of_complaint (span_in_of_mem_place whole p placed) (isUnexpected_of_complaint? complains)

theorem parseSource_sound (source : List UInt8) :
    (∀ d ∈ (parseSource source).2, Pointed source d) ∨ Astray source (parseSource source).2 := by
  have lexical : ∀ d ∈ (tokenize source).2, Pointed source d := fun d member => pointed_of_mem_tokenize member
  have is : (parseSource source).2 = (tokenize source).2 ++ (parseTokens (tokenize source).1).2 := rfl
  rw [is]
  cases parseTokens_sound source with
  | inl pointed => exact .inl (List.forall_mem_append.2 ⟨lexical, pointed⟩)
  | inr astray =>
    obtain ⟨before, after, split, pointed, lost⟩ := astray
    refine .inr ⟨(tokenize source).2 ++ before, after, ?_, List.forall_mem_append.2 ⟨lexical, pointed⟩, lost⟩
    rw [split, List.append_assoc]

theorem span_in_missingStatement (source : List UInt8) : (missingStatement source).span.In source :=
  ⟨⟨source, List.prefix_rfl, rfl⟩, ⟨source, List.prefix_rfl, rfl⟩, Int.le_refl _⟩

/-- Which diagnostics of a list that went astray point into the source. -/
theorem Astray.span_in_iff {ds before after : List Diagnostic} {d : Diagnostic} (astray : Astray source ds)
    (is : ds = before ++ d :: after) : d.span.In source ↔ missingStatement source ∉ before := by
  obtain ⟨front, rest, split, pointed, lost⟩ := astray
  have absent : missingStatement source ∉ front := fun member => (pointed _ member).other rfl
  rw [is] at split
  rcases List.append_eq_append_iff.1 split with ⟨more, rfl, tail⟩ | ⟨more, rfl, tail⟩
  · have notBefore : missingStatement source ∉ before := fun member => absent (List.mem_append_left _ member)
    cases more with
    | nil =>
      obtain ⟨rfl, _⟩ := List.cons.inj tail
      exact iff_of_true (span_in_missingStatement source) notBefore
    | cons e more =>
      obtain ⟨rfl, _⟩ := List.cons.inj tail
      exact iff_of_true (pointed d (by simp)).place notBefore
  · cases more with
    | nil =>
      obtain ⟨rfl, _⟩ := List.cons.inj tail
      exact iff_of_true (span_in_missingStatement source) (by simpa using absent)
    | cons e more =>
      -- The missing statement comes before the diagnostic, which therefore has no place.
      obtain ⟨rfl, rfl⟩ := List.cons.inj tail
      have none := lost d (by simp)
      refine iff_of_false ?_ (by simp)
      rw [none]
      exact Span.not_in_none

/-- A diagnostic points into the source, with real lines and columns, exactly if no statement was missing at the end
    of the source before it came up; otherwise it has no place at all. -/
theorem diagnostics_placed (source : List UInt8) :
    (∀ before d after, (parseSource source).2 = before ++ d :: after →
      (d.span.In source ↔ missingStatement source ∉ before)) ∧
    ∀ d ∈ (parseSource source).2, ¬ d.span.In source → d.span = .none := by
  cases parseSource_sound source with
  | inl pointed =>
    constructor
    · intro before d after is
      have all : ∀ e ∈ before ++ d :: after, Pointed source e := is ▸ pointed
      refine iff_of_true (all d (by simp)).place fun member => ?_
      exact (all _ (List.mem_append_left _ member)).other rfl
    · exact fun d member outside => absurd (pointed d member).place outside
  | inr astray =>
    refine ⟨fun before d after is => astray.span_in_iff is, fun d member outside => ?_⟩
    obtain ⟨front, rest, split, pointed, lost⟩ := astray
    rw [split] at member
    rcases List.mem_append.1 member with early | late
    · exact absurd (pointed d early).place outside
    · rcases List.mem_cons.1 late with rfl | behind
      · exact absurd (span_in_missingStatement source) outside
      · exact lost d behind

def bareLoop : List UInt8 := "do".toUTF8.data.toList

def lostCondition : Diagnostic where
  complaint := .expectedKind .whileWord .endOfFile
  span := .none

/-- The end of the source is taken for the statement of the loop, and then there is no place for the complaint
    about its condition. -/
theorem diagnostics_bareLoop :
    (parseSource bareLoop).2 = [missingStatement bareLoop, lostCondition] ∧
      ¬ lostCondition.span.In bareLoop := by
  exact ⟨by decide +kernel, Span.not_in_none⟩

end ClassScript.Parser
