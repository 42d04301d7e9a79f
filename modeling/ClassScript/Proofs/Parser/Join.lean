import ClassScript.Proofs.Parser.Graft
import ClassScript.Proofs.Token.Join

/-! # Programs one after the other

The tokens of two programs, the second ones moved behind the first ones and a line end between them,
are read as the statements of the one program and then those of the other
(`ReadsProgram.append`).  The first program is read among the tokens of the second one, which
`Reads.graft` allows for each statement of it; the second one is read behind the tokens of the first.
-/

namespace ClassScript

namespace Parser

open Cursor (Onward)

abbrev goesOn (kind : Kind) : Bool := kind ≠ .endOfFile

variable {g : Graft} {c c' d : Cursor} {ns ms : List Node}

/-- Statements up to the end of the tokens are followed by those of the graft. -/
theorem Reads.statements_graft (closes : g.Closes)
    (read : Reads (.statements goesOn) c.pastSeparators (.nodes ns) c') (joins : g.Joins c d) :
    ∃ last, ∀ ms d', Reads (.statements goesOn)
        (Cursor.mk g.behind last d.diagnostics).pastSeparators (.nodes ms) d' →
      Reads (.statements goesOn) d.pastSeparators
        (.nodes (ns.map (·.shift g.bytes g.lines) ++ ms)) d' := by
  -- The induction is on the list of statements; each one starts behind separators.
  induction ns generalizing c d with
  | nil =>
    cases read with
    | statementsDone stop =>
      have ends : c.pastSeparators.kind = .endOfFile := by simpa using stop
      obtain ⟨last, same⟩ := joins.skipWhile_at_end (by decide) ends
      refine ⟨last, fun ms d' rest => ?_⟩
      rw [Cursor.pastSeparators, same]
      exact rest
  | cons n ns ih =>
    cases read with
    | statementsNext asks readHead present readRest =>
      have notEnd := readHead.statement_ahead
      have start := joins.pastSeparators notEnd
      obtain ⟨d₁, readGraft, joinsHead⟩ := readHead.graft closes start trivial trivial
      obtain ⟨last, continues⟩ := ih readRest joinsHead
      have sameDiagnostics : d₁.diagnostics = d.diagnostics := readGraft.onward.diagnostics
      rw [sameDiagnostics] at continues
      refine ⟨last, fun ms d' rest => ?_⟩
      exact .statementsNext (by rwa [start.kind notEnd]) readGraft
        (by simpa [Node.shift] using present) (continues ms d' rest)

/-- A program does not begin with the alternative of a branch. -/
theorem Reads.statements_ne_else {y : Yield}
    (read : Reads (.statements goesOn) c.pastSeparators y c') : c.pastNewlines.kind ≠ .elseWord := by
  intro atElse
  -- Line breaks are separators, so both come to the same token.
  have sameStart : c.pastSeparators.kind = .elseWord := by
    induction c using @Cursor.skip_induction (· = .newline) (by decide) with
    | skip c notEnd isNewline ih =>
      have separates : isSeparator c.kind = true := by
        simp only [decide_eq_true_eq] at isNewline
        rw [isNewline]
        rfl
      rw [Cursor.pastNewlines, Cursor.skipWhile_of_skipped notEnd isNewline] at atElse
      rw [Cursor.pastSeparators, Cursor.skipWhile_of_skipped notEnd separates] at read ⊢
      exact ih read atElse
    | stop c notNewline =>
      rw [Cursor.pastNewlines, Cursor.skipWhile_eq_self notNewline] at atElse
      rw [Cursor.pastSeparators, Cursor.skipWhile_eq_self (by rw [atElse]; rfl), atElse]
  cases read with
  | statementsDone stop => simp [sameStart] at stop
  | statementsNext _ statement _ _ =>
    have begins := statement.statement_begins
    rw [sameStart] at begins
    exact absurd begins (by decide)

/-- Tokens that only the last one ends. -/
structure Ended (own : List Token) (close : Token) : Prop where
  close : close.kind = .endOfFile
  own : ∀ t ∈ own, t.kind ≠ .endOfFile

theorem closes_of_end {bytes lines : Int} {before : Option Token} {close : Token}
    (ended : close.kind = .endOfFile) : (Graft.mk bytes lines before [close]).Closes := by
  have atEnd : (Cursor.mk [close] none []).kind = .endOfFile := ended
  refine ⟨.inl atEnd, ?_⟩
  rw [Cursor.pastNewlines_eq_self (by rw [atEnd]; decide), atEnd]
  decide

/-- The statements of the first program are read before those of the second. -/
theorem ReadsProgram.append {own₁ own₂ : List Token} {close₁ close₂ line : Token} {tree₁ tree₂ : Node}
    {c₁ c₂ : Cursor} (bytes lines : Int) (ended₁ : Ended own₁ close₁) (ended₂ : Ended own₂ close₂)
    (isLine : line.kind = .newline) (first : ReadsProgram (own₁ ++ [close₁]) tree₁ c₁)
    (second : ReadsProgram (own₂ ++ [close₂]) tree₂ c₂) :
    ∃ span₁ span₂ span ns₁ ns₂ c', tree₁ = .tree span₁ ns₁ ∧ tree₂ = .tree span₂ ns₂ ∧
      ReadsProgram (own₁ ++ line :: (own₂ ++ [close₂]).map (·.shift bytes lines))
        (.tree span (ns₁ ++ ns₂.map (·.shift bytes lines))) c' := by
  obtain ⟨ns₁, read₁, rfl⟩ := first
  obtain ⟨ns₂, read₂, rfl⟩ := second
  -- The second program: its tokens are moved, and it ends as it did.
  let behind : Graft := ⟨bytes, lines, some line, [close₂.shift bytes lines]⟩
  have closesBehind : behind.Closes := closes_of_end ended₂.close
  have joinsBehind : behind.Joins (Cursor.mk (own₂ ++ [close₂]) none [])
      (Cursor.mk ((own₂ ++ [close₂]).map (·.shift bytes lines)) (some line) []) :=
    ⟨⟨own₂, close₂, rfl, ended₂.close, ended₂.own, by simp [behind]⟩, rfl, rfl⟩
  obtain ⟨last₂, continues₂⟩ := read₂.statements_graft closesBehind joinsBehind
  have atEnd : isSeparator (Cursor.mk behind.behind last₂ []).kind = false := by
    simp [Cursor.kind, Cursor.next, behind, ended₂.close, isSeparator]
  have readBehind := continues₂ [] _ (.statementsDone (by
    simp [Cursor.pastSeparators, Cursor.skipWhile_eq_self atEnd, Cursor.kind, Cursor.next, behind,
      ended₂.close]))
  have plain := joinsBehind.pastNewlines_ne_else closesBehind read₂.statements_ne_else
  -- The first program: its tokens stay, and those of the second one come behind the line end.
  generalize (own₂ ++ [close₂]).map (·.shift bytes lines) = tokens at *
  have line_skipped {skipped : Kind → Bool} (isSkipped : skipped .newline = true)
      (last : Option Token) : (Cursor.mk (line :: tokens) last []).skipWhile skipped =
        (Cursor.mk tokens (some line) []).skipWhile skipped :=
    Cursor.skipWhile_of_skipped (c := Cursor.mk (line :: tokens) last [])
      (by simp [Cursor.kind, Cursor.next, isLine])
      (by simpa [Cursor.kind, Cursor.next, isLine] using isSkipped)
  let among : Graft := ⟨0, 0, none, line :: tokens⟩
  have closesAmong : among.Closes := by
    refine ⟨.inr isLine, ?_⟩
    rw [Cursor.pastNewlines, line_skipped (by decide)]
    exact plain
  have joinsAmong : among.Joins (Cursor.mk (own₁ ++ [close₁]) none [])
      (Cursor.mk (own₁ ++ line :: tokens) none []) :=
    ⟨⟨own₁, close₁, rfl, ended₁.close, ended₁.own, by simp [among]⟩, rfl, rfl⟩
  obtain ⟨last₁, continues₁⟩ := read₁.statements_graft closesAmong joinsAmong
  have readAll := continues₁ _ _ (by rwa [Cursor.pastSeparators, line_skipped rfl])
  simp only [behind, among, List.append_nil, Node.shift_zero, List.map_id'] at readAll
  exact ⟨_, _, _, ns₁, ns₂, _, rfl, rfl, _, readAll, rfl⟩

end Parser

/-- The parts of a parse without diagnostics. -/
theorem parseSource_clean {source : List UInt8} (clean : (parseSource source).2 = []) :
    (tokenize source).2 = [] ∧ ∃ tree, parseTokens (tokenize source).1 = (tree, []) ∧
      parseSource source = (tree, []) := by
  obtain ⟨lexical, grammatical⟩ := List.append_eq_nil_iff.1 clean
  refine ⟨lexical, _, Prod.ext rfl grammatical, Prod.ext rfl clean⟩

/-- The program that two sources with a line end between them write: the statements of the one, and
    then those of the other, some bytes and lines further on. -/
theorem parseSource_join {s₁ s₂ : List UInt8} (clean₁ : (parseSource s₁).2 = [])
    (clean₂ : (parseSource s₂).2 = []) :
    ∃ span₁ span₂ span ns₁ ns₂, parseSource s₁ = (.tree span₁ ns₁, []) ∧
      parseSource s₂ = (.tree span₂ ns₂, []) ∧
      parseSource (s₁ ++ Piece.lineEnd :: s₂) = (.tree span (ns₁ ++ ns₂.map
        (·.shift (s₁.length + 1) (1 + s₁.count Piece.lineEnd))), []) := by
  obtain ⟨lexical₁, tree₁, parsed₁, source₁⟩ := parseSource_clean clean₁
  obtain ⟨lexical₂, tree₂, parsed₂, source₂⟩ := parseSource_clean clean₂
  obtain ⟨c₁, read₁⟩ := parseTokens_eq_iff.1 parsed₁
  obtain ⟨c₂, read₂⟩ := parseTokens_eq_iff.1 parsed₂
  obtain ⟨line, isLine, tokens⟩ := tokenize_join lexical₁ lexical₂
  have ended (source : List UInt8) : Parser.Ended (ownTokens source) (endToken source) :=
    ⟨rfl, fun _ => ownTokens_ne_endOfFile⟩
  obtain ⟨span₁, span₂, span, ns₁, ns₂, c', rfl, rfl, read⟩ := read₁.append
    (s₁.length + 1) (1 + s₁.count Piece.lineEnd) (ended s₁) (ended s₂) isLine read₂
  refine ⟨span₁, span₂, span, ns₁, ns₂, source₁, source₂, ?_⟩
  have parsed := parseTokens_eq_iff.2 ⟨c', read⟩
  simp only [parseSource, tokens, tokenize_eq] at parsed ⊢
  rw [parsed]
  rfl

end ClassScript
