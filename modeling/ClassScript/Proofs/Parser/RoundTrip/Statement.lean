import ClassScript.Proofs.Parser.RoundTrip.Expression

/-! # Reading back the tokens of a statement

A statement has to know a little more about what follows it than an expression does: an `else` there would be
taken for its own (`Breaks`).  Statements and class members stand on lines of their own, and one lemma reads
back both kinds of lines (`lines_read`).
-/

namespace ClassScript

namespace Parser

open Cursor (At headKind)

variable {c c₁ c' : Cursor} {rest : List Token} {n : Node} {span : Span}

/-! ## Lines -/

def opensStatement (kind : Kind) : Bool := leadsStatement kind || beginsOperand kind

/-- Neither an expression nor a branch goes on at these tokens. -/
def Breaks (rest : List Token) : Prop :=
  Closes rest ∧ headKind (rest.dropWhile fun t => t.kind = .newline) ≠ .elseWord

theorem of_opensStatement {kind : Kind} (opens : opensStatement kind = true) :
    isSeparator kind = false ∧ insideBlock kind = true ∧ kind ≠ .elseWord := by
  revert opens
  cases kind with
  | other code => exact nofun
  | _ => decide

theorem opensStatement_insideProgram (kind : Kind) (opens : opensStatement kind = true) :
    decide (kind ≠ .endOfFile) = true :=
  (Bool.and_eq_true _ _ ▸ (of_opensStatement opens).2.1).2

theorem opensStatement_of_beginsMember {kind : Kind} (begins : beginsMember kind = true) :
    opensStatement kind = true := by
  simp [opensStatement, leadsStatement, begins]

theorem kind_pastNewlines (here : At rest c) :
    c.pastNewlines.kind = headKind (rest.dropWhile fun t => t.kind = .newline) := by
  rw [Cursor.pastNewlines, Cursor.skipWhile, Cursor.kind, Cursor.next, here.rest]
  rfl

theorem dropWhile_newline {tokens : List Token} (ahead : isSeparator (headKind tokens) = false) :
    tokens.dropWhile (fun t => t.kind = .newline) = tokens := by
  cases tokens with
  | nil => rfl
  | cons t tokens =>
    refine List.dropWhile_cons_of_neg fun newline => ?_
    rw [show headKind (t :: tokens) = .newline from of_decide_eq_true newline] at ahead
    cases ahead

theorem pastSeparators_lineBreak {tokens : List Token} (here : At (.lineBreak :: tokens) c) :
    c.pastSeparators = c.advance.pastSeparators :=
  Cursor.skipWhile_of_skipped (by rw [here.kind]; exact nofun) (by rw [here.kind]; rfl)

structure Lined (goal : Goal) (opens : Kind → Bool) (n : Node) : Prop where
  present : n.isAbsent = false
  begins : opens (headKind n.tokens) = true
  reads : ∀ {rest : List Token} {c : Cursor}, At (n.tokens ++ rest) c → Breaks rest →
    ∃ c', At rest c' ∧ Reads (.goal goal) c (.node n.erase) c'

abbrev Stated (n : Node) : Prop := Lined .statement opensStatement n

abbrev Membered (n : Node) : Prop := Lined .member beginsMember n

section Lines

variable {goal : Goal} {opens : Kind → Bool} {phrase : Phrase}
  (leads : ∀ kind, opens kind = true → opensStatement kind = true)

include leads

theorem opens_append {tokens : List Token} (begins : opens (headKind tokens) = true)
    (rest : List Token) : opens (headKind (tokens ++ rest)) = true := by
  cases tokens with
  | nil => exact nomatch leads _ begins
  | cons t tokens => exact begins

/-- Where the next line begins, the line before it ends. -/
theorem breaks_lines {ns : List Node} (lined : ∀ n ∈ ns, Lined goal opens n) (breaks : Breaks rest) :
    Breaks ((ns.map Node.tokens).flatMap (.lineBreak :: ·) ++ rest) := by
  cases ns with
  | nil => exact breaks
  | cons n ns =>
    have begins := of_opensStatement (leads _ (opens_append leads (lined n List.mem_cons_self).begins
      ((ns.map Node.tokens).flatMap (.lineBreak :: ·) ++ rest)))
    refine ⟨⟨rfl, rfl⟩, ?_⟩
    simp only [List.map_cons, List.flatMap_cons, List.cons_append, List.append_assoc]
    rw [List.dropWhile_cons_of_pos (by rfl), dropWhile_newline begins.1]
    exact begins.2.2

/-- Lines are read back from the first one on. -/
theorem lines_read {ns : List Node} (lined : ∀ n ∈ ns, Lined goal opens n)
    (done : ∀ {c : Cursor}, At rest c → Reads phrase c (.nodes []) c)
    (next : ∀ {c c₁ c' : Cursor} {n : Node} {ns : List Node}, opens c.kind = true →
      Reads (.goal goal) c (.node n) c₁ → n.isAbsent = false →
      Reads phrase c₁.pastSeparators (.nodes ns) c' → Reads phrase c (.nodes (n :: ns)) c')
    (breaks : Breaks rest) (ahead : isSeparator (headKind rest) = false)
    (here : At (separatedBy .lineBreak (ns.map Node.tokens) ++ rest) c) :
    ∃ c', At rest c' ∧ Reads phrase c.pastSeparators (.nodes (ns.map Node.erase)) c' := by
  -- On the lines; each but the first one has a line break in front of it, which separates it from the last.
  induction ns generalizing c with
  | nil =>
    have here : At rest c := here
    rw [here.pastSeparators_eq ahead]
    exact ⟨c, here, done here⟩
  | cons n ns ih =>
    obtain ⟨head, more⟩ := List.forall_mem_cons.1 lined
    rw [List.map_cons, separatedBy_cons, List.append_assoc] at here
    have begins := opens_append leads head.begins
      ((ns.map Node.tokens).flatMap (.lineBreak :: ·) ++ rest)
    obtain ⟨c₁, behind, read⟩ := head.reads here (breaks_lines leads more breaks)
    have others : ∃ c', At rest c' ∧ Reads phrase c₁.pastSeparators (.nodes (ns.map Node.erase)) c' := by
      cases ns with
      | nil => exact ih more behind
      | cons m ns =>
        rw [List.map_cons, List.flatMap_cons, List.cons_append, ← separatedBy_cons, List.cons_append] at behind
        rw [pastSeparators_lineBreak behind]
        exact ih more behind.advance
    obtain ⟨c', atEnd, readMore⟩ := others
    rw [here.pastSeparators_eq (of_opensStatement (leads _ begins)).1]
    refine ⟨c', atEnd, next ?_ read ?_ readMore⟩
    · rw [here.kind]
      exact begins
    · rw [Node.isAbsent_erase]
      exact head.present

end Lines

/-- Statements are read back up to a token that no statement begins at. -/
theorem statements_read {ns : List Node} {more : Kind → Bool} (stated : ∀ n ∈ ns, Stated n)
    (goesOn : ∀ kind, opensStatement kind = true → more kind = true)
    (stops : more (headKind rest) = false) (breaks : Breaks rest)
    (ahead : isSeparator (headKind rest) = false)
    (here : At (separatedBy .lineBreak (ns.map Node.tokens) ++ rest) c) :
    ∃ c', At rest c' ∧ Reads (.statements more) c.pastSeparators (.nodes (ns.map Node.erase)) c' := by
  refine lines_read (fun _ opens => opens) stated (fun here => .statementsDone ?_)
    (fun opens read present more => .statementsNext (goesOn _ opens) read present more) breaks ahead here
  rw [here.kind]
  exact stops

theorem breaks_rightBrace : Breaks (.mark .rightBrace :: rest) := ⟨⟨rfl, rfl⟩, nofun⟩

/-! ## Bodies and conditions -/

structure Bodied (n : Node) : Prop where
  reads : ∀ {rest : List Token} {c : Cursor}, At (n.tokens ++ rest) c →
    c.kind = .leftBrace ∧ ∃ c', At rest c' ∧ Reads .block c (.node n.erase) c'

theorem bodied_tree {children : List Node} (stated : ∀ n ∈ children, Stated n) :
    Bodied (.tree span children) := by
  refine ⟨fun {rest c} here => ?_⟩
  rw [Node.tokens, Node.allTokens_eq_map, inBraces_append] at here
  obtain ⟨c₁, closed, read⟩ := statements_read stated (fun _ opens => (of_opensStatement opens).2.1)
    rfl breaks_rightBrace rfl here.advance
  have opened : c.kind = .leftBrace := by
    rw [here.kind]
    rfl
  have block := Reads.block opened read (by rw [closed.kind]; rfl)
  rw [here.next_eq, closed.advance.lastEnd_eq] at block
  rw [Node.erase_tree]
  exact ⟨opened, c₁.advance, closed.advance, block⟩

theorem Bodied.body (bodied : Bodied n) (here : At (n.tokens ++ rest) c) :
    ∃ c', At rest c' ∧ Reads .body c (.node n.erase) c' := by
  obtain ⟨opened, c', behind, read⟩ := bodied.reads here
  have same : c.pastNewlines = c := Cursor.pastNewlines_eq_self (by rw [opened]; exact nofun)
  exact ⟨c', behind, .bodyBlock (by rwa [same]) (by rwa [same])⟩

theorem Expressed.condition (expressed : Expressed n) (here : At (inParens n.tokens ++ rest) c) :
    ∃ c', At rest c' ∧ Reads .condition c (.node n.erase) c' := by
  rw [inParens_append] at here
  have inside := here.advance
  obtain ⟨c₁, closed, read⟩ := expressed.reads inside (closes_mark rfl rfl)
  have same : c₁.pastNewlines = c₁ := closed.pastNewlines_eq nofun
  have condition := Reads.condition (c := c) (by rw [here.kind]; rfl)
    (by rw [expressed.pastNewlines_eq inside]; exact read)
    (by rw [Node.isAbsent_erase]; exact expressed.present) (by rw [same, closed.kind]; rfl)
  rw [same] at condition
  exact ⟨c₁.advance, closed.advance, condition⟩

/-! ## Branches and loops -/

variable {test yes no inner : Node}

theorem Expressed.stated (expressed : Expressed n) : Stated n := by
  refine ⟨expressed.present, by simp [opensStatement, expressed.begins], fun {rest c} here breaks => ?_⟩
  obtain ⟨c', behind, read⟩ := expressed.reads here breaks.1
  have plain : leadsStatement c.kind = false := by
    have begins := begins_append expressed.begins rest
    rw [← here.kind] at begins
    revert begins
    cases c.kind with
    | other code => exact nofun
    | _ => decide
  exact ⟨c', behind, .statementExpression plain read (by rw [Node.isAbsent_erase]; exact expressed.present)⟩

theorem stated_branch (expressed : Expressed test) (bodied : Bodied yes) :
    Stated (.branch span test yes .absent) := by
  refine ⟨rfl, rfl, fun {rest c} here breaks => ?_⟩
  have here : At (.mark .ifWord :: (inParens test.tokens ++ (yes.tokens ++ [])) ++ rest) c := here
  rw [List.append_nil, List.cons_append, List.append_assoc] at here
  obtain ⟨c₁, behindTest, readTest⟩ := expressed.condition here.advance
  obtain ⟨c', behind, readYes⟩ := bodied.body behindTest
  have read := Reads.branchPlain (by rw [here.kind]; rfl) readTest readYes
    (by rw [kind_pastNewlines behind]; exact breaks.2)
  rw [here.next_eq, behind.lastEnd_eq] at read
  exact ⟨c', behind, read⟩

theorem stated_branchElse (expressed : Expressed test) (bodiedYes : Bodied yes) (bodiedNo : Bodied no)
    (present : no.isAbsent = false) : Stated (.branch span test yes no) := by
  refine ⟨rfl, rfl, fun {rest c} here breaks => ?_⟩
  simp only [Node.tokens, present, if_neg Bool.false_ne_true, List.cons_append, List.append_assoc] at here
  obtain ⟨c₁, behindTest, readTest⟩ := expressed.condition here.advance
  obtain ⟨c₂, atElse, readYes⟩ := bodiedYes.body behindTest
  have sameElse : c₂.pastNewlines = c₂ := atElse.pastNewlines_eq (by rintro ⟨⟩)
  have behindElse := atElse.advance
  obtain ⟨opened, -⟩ := bodiedNo.reads behindElse
  have sameNo : c₂.advance.pastNewlines = c₂.advance :=
    Cursor.pastNewlines_eq_self (by rw [opened]; simp)
  obtain ⟨c', behind, readNo⟩ := bodiedNo.body behindElse
  have read := Reads.branchElse (by rw [here.kind]; rfl) readTest readYes
    (by rw [sameElse, atElse.kind]; rfl) (by rw [sameElse, sameNo, opened]; simp)
    (by rwa [sameElse, sameNo])
  rw [here.next_eq, behind.lastEnd_eq] at read
  exact ⟨c', behind, read⟩

theorem stated_whileLoop (expressed : Expressed test) (bodied : Bodied inner) :
    Stated (.whileLoop span test inner) := by
  refine ⟨rfl, rfl, fun {rest c} here _ => ?_⟩
  rw [Node.tokens, List.cons_append, List.append_assoc] at here
  obtain ⟨c₁, behindTest, readTest⟩ := expressed.condition here.advance
  obtain ⟨c', behind, readInner⟩ := bodied.body behindTest
  have read := Reads.whileLoop (by rw [here.kind]; rfl) readTest readInner
  rw [here.next_eq, behind.lastEnd_eq] at read
  exact ⟨c', behind, read⟩

theorem stated_doWhileLoop (expressed : Expressed test) (bodied : Bodied inner) :
    Stated (.doWhileLoop span test inner) := by
  refine ⟨rfl, rfl, fun {rest c} here _ => ?_⟩
  rw [Node.tokens, List.cons_append, List.append_assoc, List.cons_append] at here
  obtain ⟨c₁, atWhile, readInner⟩ := bodied.body here.advance
  have same : c₁.pastNewlines = c₁ := atWhile.pastNewlines_eq (by rintro ⟨⟩)
  obtain ⟨c', behind, readTest⟩ := expressed.condition atWhile.advance
  have read := Reads.doWhileLoop (by rw [here.kind]; rfl) readInner (by rw [same, atWhile.kind]; rfl)
    (by rwa [same])
  rw [here.next_eq, behind.lastEnd_eq] at read
  exact ⟨c', behind, read⟩

/-! ## Loop headers -/

/-- A part of a loop header is empty or its tokens are read back as an expression. -/
def Slotted (n : Node) : Prop := n = .absent ∨ Expressed n

/-- The tokens of the first part of a loop header are read back as that part. -/
def Started (n : Node) : Prop :=
  ∀ {rest : List Token} {c : Cursor}, At (n.tokens ++ .mark .semicolon :: rest) c →
    c.pastNewlines = c ∧
      ∃ c', At (.mark .semicolon :: rest) c' ∧ Reads .forStart c (.node n.erase) c'

theorem Slotted.forPart (slotted : Slotted n) {closing : Kind}
    (here : At (n.tokens ++ .mark closing :: rest) c)
    (closes : closing.power = 0 ∧ assignsValue closing = false)
    (ends : beginsOperand closing = false) (inLine : closing ≠ .newline) :
    c.pastNewlines = c ∧
      ∃ c', At (.mark closing :: rest) c' ∧ Reads (.forPart closing) c (.node n.erase) c' := by
  rcases slotted with rfl | expressed
  · have here : At (.mark closing :: rest) c := here
    exact ⟨here.pastNewlines_eq inLine, c, here, .forPartNone here.kind⟩
  · obtain ⟨c', behind, read⟩ := expressed.reads here closes
    refine ⟨expressed.pastNewlines_eq here, c', behind, .forPartSome (fun closed => ?_) read⟩
    have begins := begins_append expressed.begins (.mark closing :: rest)
    rw [← here.kind, closed, ends] at begins
    cases begins

theorem Slotted.started (slotted : Slotted n) : Started n := by
  intro rest c here
  rcases slotted with rfl | expressed
  · have here : At (.mark .semicolon :: rest) c := here
    exact ⟨here.pastNewlines_eq nofun, c, here, .forStartNone here.kind⟩
  · obtain ⟨c', behind, read⟩ := expressed.reads here (closes_mark rfl rfl)
    have begins := begins_append expressed.begins (.mark .semicolon :: rest)
    rw [← here.kind] at begins
    have ahead : c.kind ≠ .semicolon ∧ c.kind.isTypeWord = false := by
      revert begins
      cases c.kind with
      | other code => exact nofun
      | _ => decide
    exact ⟨expressed.pastNewlines_eq here, c', behind, .forStartExpression ahead.1 ahead.2 read⟩

theorem stated_forLoop {first round : Node} (started : Started first) (slottedTest : Slotted test)
    (slottedRound : Slotted round) (bodied : Bodied inner) :
    Stated (.forLoop span first test round inner) := by
  refine ⟨rfl, rfl, fun {rest c} here _ => ?_⟩
  simp only [Node.tokens, List.cons_append, List.append_assoc, inParens_append] at here
  have opened := here.advance
  obtain ⟨sameFirst, c₁, atTest, readFirst⟩ := started opened.advance
  obtain ⟨sameTest, c₂, atRound, readTest⟩ := slottedTest.forPart atTest.advance ⟨rfl, rfl⟩ rfl (by simp)
  obtain ⟨sameRound, c₃, closed, readRound⟩ := slottedRound.forPart atRound.advance ⟨rfl, rfl⟩ rfl (by simp)
  have sameEnd : c₃.pastNewlines = c₃ := closed.pastNewlines_eq (by rintro ⟨⟩)
  obtain ⟨c', behind, readInner⟩ := bodied.body closed.advance
  have read := Reads.forLoop (by rw [here.kind]; rfl) (by rw [opened.kind]; rfl)
    (by rwa [sameFirst]) (by rw [atTest.kind]; rfl) (by rwa [sameTest]) (by rw [atRound.kind]; rfl)
    (by rwa [sameRound]) (by rw [sameEnd, closed.kind]; rfl) (by rwa [sameEnd])
  rw [here.next_eq, behind.lastEnd_eq] at read
  exact ⟨c', behind, read⟩

end Parser

end ClassScript
