import ClassScript.Proofs.Token.Respacing

/-! # What is wrong with a source

A lexer complains about illegal bytes, about exponents without digits, and about a block comment that is not closed.
The first two can be told from the tokens alone (`Token.report?`).  A comment leaves no token, so for the third one
has to say where the source opens a comment: behind blanks and closed comments that follow a token or begin the
source (`Opens`).  The diagnostics of every source are exactly these (`tokenize_reports`).
-/

namespace ClassScript

open Position (behind advance_behind)

def Diagnostic.report (d : Diagnostic) : String × Span := (d.code, d.span)

/-- What is to be reported about a token: that it is illegal, or a double that ends in the sign of its exponent. -/
def Token.report? (t : Token) : Option (String × Span) :=
  if t.kind = .illegal then some ("E1001", t.span)
  else if t.kind = .double ∧ (t.lexeme.toList.getLast? = some '+' ∨ t.lexeme.toList.getLast? = some '-') then
    some ("E1002", t.span)
  else none

namespace Piece

variable {b : UInt8} {before rest after item gap text bytes : List UInt8} {form : Form} {more : Nat}

/-! ## Reports about pieces -/

theorem decode_of_ascii (ascii : ∀ b ∈ bytes, b < 0x80) :
    Text.Utf8.decode bytes = bytes.map fun b => Char.ofNat b.toNat := by
  induction bytes with
  | nil => rw [List.map_nil, Text.Utf8.decode]
  | cons b bytes ih =>
    obtain ⟨first, others⟩ := List.forall_mem_cons.1 ascii
    rw [decode_ascii first, ih others, List.map_cons]

/-- The signs of exponents, as bytes and as characters. -/
theorem isSign_iff (ascii : b < 0x80) :
    isSign b = true ↔ Char.ofNat b.toNat = '+' ∨ Char.ofNat b.toNat = '-' := by
  have all : ∀ n < 128, isSign (UInt8.ofNat n) = true ↔ Char.ofNat n = '+' ∨ Char.ofNat n = '-' := by decide
  have small : b.toNat < 128 := UInt8.lt_iff_toNat_lt.1 ascii
  have found := all b.toNat small
  rwa [UInt8.ofNat_toNat] at found

/-- A double ends in a sign exactly if its lexeme does. -/
theorem getLast?_lexeme (ascii : ∀ b ∈ bytes, b < 0x80) :
    (bytes.getLast?.map isSign).getD false = true ↔
      (lexeme .double bytes).toList.getLast? = some '+' ∨ (lexeme .double bytes).toList.getLast? = some '-' := by
  have chars : (lexeme .double bytes).toList = bytes.map fun b => Char.ofNat b.toNat := by
    rw [← decode_of_ascii ascii]
    exact String.toList_ofList
  rw [chars, List.getLast?_map]
  cases last : bytes.getLast? with
  | none => simp
  | some b => simpa using isSign_iff (ascii b (List.mem_of_getLast? last))

/-- The bytes of a double are ASCII. -/
theorem ascii_of_double (ahead : Ahead b rest (.token .double) more) : ∀ x ∈ b :: rest.take more, x < 0x80 := by
  generalize is : Form.token .double = form at ahead
  cases ahead with
  | blank | lineComment | blockComment => cases is
  | number ahead => exact ascii_number ahead
  | word spelling =>
    have plain := Kind.ofWord_mem spelling
    rw [← Form.token.inj is] at plain
    exact absurd plain (by decide)
  | mark =>
    have plain := mark_mem b rest
    rw [← Form.token.inj is] at plain
    exact absurd plain (by decide)

/-- A piece that is a token is reported as the token is, and of the others only an open comment is reported. -/
theorem report_of_ahead (ahead : Ahead b rest form more) (closed : form ≠ .blockComment false) (span : Span) :
    let p : PlacedPiece := ⟨⟨form, b :: rest.take more⟩, span⟩
    p.diagnostic?.map Diagnostic.report = p.token?.bind Token.report? := by
  intro p
  cases form with
  | blank | lineComment => rfl
  | blockComment isClosed =>
    cases isClosed with
    | true => rfl
    | false => exact absurd rfl closed
  | token kind =>
    -- Illegal tokens and doubles can be complained about, and no other kinds.
    by_cases isIllegal : kind = .illegal
    · subst isIllegal
      simp only [p, PlacedPiece.diagnostic?, PlacedPiece.complaint?, PlacedPiece.token?]
      split
      · rfl
      · split <;> rfl
    · by_cases isDouble : kind = .double
      · subst isDouble
        have ends := getLast?_lexeme (ascii_of_double ahead)
        simp only [p, PlacedPiece.diagnostic?, PlacedPiece.complaint?, PlacedPiece.token?, Token.report?,
          Option.bind_some, ends, true_and]
        split <;> rfl
      · have plain : p.complaint? = none := by
          cases kind <;> first | rfl | contradiction
        simp [PlacedPiece.diagnostic?, plain, p, PlacedPiece.token?, Token.report?, isIllegal, isDouble]

/-! ## Reports about what follows -/

/-- The tokens of `rest`, where `before` stands in front of it, and the reports about it. -/
def found (before rest : List UInt8) : List Token × List (String × Span) :=
  let placed := place (behind before) (cut rest)
  (placed.filterMap PlacedPiece.token?, placed.filterMap fun p => p.diagnostic?.map Diagnostic.report)

theorem found_source (source : List UInt8) :
    found [] source = (ownTokens source, (tokenize source).2.map Diagnostic.report) := by
  have start : behind [] = .start := rfl
  rw [found, start, tokenize_eq, List.map_filterMap]
  rfl

theorem found_nil (before : List UInt8) : found before [] = ([], []) := by
  rw [found, cut]
  rfl

/-- The first piece of what follows, and what is behind it. -/
theorem found_front (ahead : front b (bytes ++ after) = (form, bytes.length)) :
    let p : PlacedPiece := ⟨⟨form, b :: bytes⟩, ⟨behind before, behind (before ++ b :: bytes)⟩⟩
    let later := found (before ++ b :: bytes) after
    found before (b :: (bytes ++ after)) =
      (p.token?.toList ++ later.1, (p.diagnostic?.map Diagnostic.report).toList ++ later.2) := by
  intro p later
  have pieces : cut (b :: (bytes ++ after)) = p.piece :: cut after := by
    rw [cut, ahead]
    simp only [List.take_left, List.drop_left, p]
  have placed : place (behind before) (cut (b :: (bytes ++ after)))
      = p :: place (behind (before ++ b :: bytes)) (cut after) := by
    rw [pieces, place, advance_behind]
  simp only [found, placed, List.filterMap_cons, later]
  cases p.token? <;> cases p.diagnostic? <;> rfl

/-! ### Gaps -/

theorem found_blank (blank : isBlank b) (before after : List UInt8) :
    found before (b :: after) = found (before ++ [b]) after := by
  have ahead (b : UInt8) (blank : isBlank b) (before after : List UInt8) :
      found before (b :: after) = found (before ++ b :: after.takeWhile isBlank) (after.dropWhile isBlank) := by
    have parts := @List.takeWhile_append_dropWhile _ isBlank after
    have run : front b (after.takeWhile isBlank ++ after.dropWhile isBlank)
        = (.blank, (after.takeWhile isBlank).length) := by rw [parts, front, if_pos blank]
    have passed := @found_front b before _ _ _ run
    rw [parts] at passed
    exact passed
  rw [ahead b blank]
  cases after with
  | nil => rfl
  | cons next after =>
    by_cases more : isBlank next
    · rw [List.dropWhile_cons_of_pos more, List.takeWhile_cons_of_pos more, ahead next more, List.append_assoc,
        List.singleton_append]
    · rw [List.dropWhile_cons_of_neg more, List.takeWhile_cons_of_neg more]

theorem found_skipped (skipped : Skipped after item) (before : List UInt8) :
    found before (item ++ after) = found (before ++ item) after := by
  cases skipped with
  | blank blank =>
    apply found_blank
    simpa [isBlank, or_assoc] using blank
  | lineComment inLine ends => exact found_front (front_lineComment inLine ends)
  | blockComment within => exact found_front (front_blockComment within after)

theorem found_gap (skipped : Gap after gap) (before : List UInt8) :
    found before (gap ++ after) = found (before ++ gap) after := by
  induction skipped generalizing before with
  | nil => rw [List.nil_append, List.append_nil]
  | cons item _ ih =>
    rw [List.append_assoc, found_skipped item, ih, List.append_assoc]

/-- A comment that is not closed is reported from its opening to the end. -/
theorem found_opened (within : ¬ commentEnd <:+: text) (before : List UInt8) :
    let opened := byte '/' :: byte '*' :: text
    found before opened = ([], [("E1001", ⟨behind before, behind (before ++ opened)⟩)]) := by
  intro opened
  have size : comment text = (false, text.length) := by
    obtain ⟨inside, -, ⟨-, taken⟩ | ⟨is, same⟩⟩ := comment_spec text
    · refine absurd ⟨inside, text.drop (inside.length + 2), ?_⟩ within
      rw [← taken, List.take_append_drop]
    · rw [is, same]
  have run : front (byte '/') (byte '*' :: text ++ []) = (.blockComment false, (byte '*' :: text).length) := by
    rw [List.append_nil, front, if_neg (by decide), if_neg (by simp [byte]), if_pos (by simp), List.drop_one,
      List.tail_cons, size]
    simp [Nat.add_comm 1]
  have passed := @found_front _ before _ _ _ run
  rw [List.append_nil, found_nil] at passed
  exact passed

/-! ### Tokens -/

def firstPiece (before : List UInt8) (b : UInt8) (rest : List UInt8) : PlacedPiece :=
  let bytes := b :: rest.take (front b rest).2
  ⟨⟨(front b rest).1, bytes⟩, ⟨behind before, behind (before ++ bytes)⟩⟩

theorem last_of_mem_firstPiece {t : Token} (member : t ∈ (firstPiece before b rest).token?) :
    t.span.last = behind (before ++ b :: rest.take (front b rest).2) := by
  simp only [PlacedPiece.token?] at member
  split at member
  · cases member
    rfl
  · cases member

theorem found_cons (before : List UInt8) (b : UInt8) (rest : List UInt8) :
    let p := firstPiece before b rest
    let later := found (before ++ b :: rest.take (front b rest).2) (rest.drop (front b rest).2)
    found before (b :: rest) =
      (p.token?.toList ++ later.1, (p.diagnostic?.map Diagnostic.report).toList ++ later.2) := by
  have parts := List.take_append_drop (front b rest).2 rest
  have run : front b (rest.take (front b rest).2 ++ rest.drop (front b rest).2)
      = ((front b rest).1, (rest.take (front b rest).2).length) := by
    rw [parts, List.length_take_of_le front_le]
  have first := @found_front b before _ _ _ run
  rwa [parts] at first

/-- Up to the end of a token there are only reports about tokens. -/
theorem found_split {t : Token} (member : t ∈ (found before rest).1) :
    ∃ bytes after tokens, rest = bytes ++ after ∧ t.span.last = behind (before ++ bytes) ∧
      found before rest = (tokens ++ (found (before ++ bytes) after).1,
        tokens.filterMap Token.report? ++ (found (before ++ bytes) after).2) := by
  induction rest using cut.induct generalizing before with
  | case1 => simp [found_nil] at member
  | case2 b rest form more ahead ih =>
    have isForm : (front b rest).1 = form := congrArg Prod.fst ahead
    have isMore : (front b rest).2 = more := congrArg Prod.snd ahead
    have first := found_cons before b rest
    have token := @last_of_mem_firstPiece b before rest t
    have shown := ahead_front b rest
    rw [isMore] at first token
    rw [isForm, isMore] at shown
    have parts : b :: rest = b :: rest.take more ++ rest.drop more := by simp
    rw [first] at member
    by_cases opened : form = .blockComment false
    · -- Nothing follows a comment that is not closed.
      subst opened
      rw [(Tiled.lastGap_of_opened shown).1, found_nil] at member
      simp [firstPiece, isForm, PlacedPiece.token?] at member
    have reported : (firstPiece before b rest).diagnostic?.map Diagnostic.report
        = (firstPiece before b rest).token?.bind Token.report? := by
      rw [firstPiece, isForm, isMore]
      exact report_of_ahead shown opened _
    have list : ((firstPiece before b rest).token?.bind Token.report?).toList
        = (firstPiece before b rest).token?.toList.filterMap Token.report? := by
      cases (firstPiece before b rest).token? with
      | none => rfl
      | some t => cases is : t.report? <;> simp [is]
    simp only [reported, list] at first
    rcases List.mem_append.1 member with own | later
    · exact ⟨b :: rest.take more, rest.drop more, _, parts, token (Option.mem_toList.1 own), first⟩
    · obtain ⟨bytes, after, tokens, split, last, both⟩ := ih later
      refine ⟨b :: rest.take more ++ bytes, after, (firstPiece before b rest).token?.toList ++ tokens, ?_, ?_, ?_⟩
      · rw [parts, split, List.append_assoc]
      · rw [last, List.append_assoc]
      · rw [first, both, List.filterMap_append, ← List.append_assoc before]
        simp only [List.append_assoc]

end Piece

/-! ## Reports about sources -/

open Piece

/-- The first bytes of a source end where a token of it ends, or there are none. -/
def EndsToken (source before : List UInt8) : Prop :=
  before = [] ∨ ∃ t ∈ (tokenize source).1, t.kind ≠ .endOfFile ∧ t.span.last = behind before

/-- A comment opens behind `front`, outside all tokens and comments, and it is not closed: only blanks and closed
    comments are between it and the token before it, and no comment end is in the text behind its opening. -/
def Opens (source front : List UInt8) : Prop :=
  ∃ before gap text, front = before ++ gap ∧ source = front ++ byte '/' :: byte '*' :: text ∧
    EndsToken source before ∧ Gap (byte '/' :: byte '*' :: text) gap ∧ ¬ commentEnd <:+: text

/-- Behind the last token of a source is its last gap. -/
theorem exists_lastGap (source : List UInt8) :
    ∃ before gap, source = before ++ gap ∧ LastGap gap ∧ EndsToken source before := by
  have go {before rest : List UInt8} {tokens : List Token} (tiled : Tiled before rest tokens) :
      ∃ own gap, rest = own ++ gap ∧ LastGap gap ∧
        (own = [] ∨ ∃ t ∈ tokens, t.kind ≠ .endOfFile ∧ t.span.last = behind (before ++ own)) := by
    induction tiled with
    | @last before gap ends => exact ⟨[], gap, rfl, ends, .inl rfl⟩
    | @next before gap bytes rest kind lexeme tokens skipped filled other spelt tiled ih =>
      obtain ⟨own, final, rfl, ends, place⟩ := ih
      refine ⟨gap ++ (bytes ++ own), final, by simp only [List.append_assoc], ends, .inr ?_⟩
      rcases place with rfl | ⟨t, member, notEnd, last⟩
      · exact ⟨_, List.mem_cons_self, other, by simp only [List.append_nil, List.append_assoc]⟩
      · exact ⟨t, List.mem_cons_of_mem _ member, notEnd, by simpa only [List.append_assoc] using last⟩
  exact go (tiled_tokenize source)

/-- In front of the end of a token there are only reports about tokens. -/
theorem reports_append {source before rest : List UInt8} (parts : source = before ++ rest)
    (place : EndsToken source before) :
    ∃ tokens, ownTokens source = tokens ++ (found before rest).1 ∧
      (tokenize source).2.map Diagnostic.report = tokens.filterMap Token.report? ++ (found before rest).2 := by
  have whole := found_source source
  rcases place with rfl | ⟨t, member, notEnd, last⟩
  · subst parts
    rw [whole]
    exact ⟨[], rfl, rfl⟩
  · have inside : t ∈ (found [] source).1 := by
      rw [whole]
      rw [tokenize_eq] at member
      rcases List.mem_append.1 member with own | isEnd
      · exact own
      · rw [List.mem_singleton.1 isEnd] at notEnd
        exact absurd rfl notEnd
    obtain ⟨bytes, after, tokens, split, ends, both⟩ := found_split inside
    rw [List.nil_append] at ends both
    -- Places at the same offset have the same bytes in front of them.
    have sizes : bytes.length = before.length := Int.ofNat.inj (congrArg Position.offset (ends.symm.trans last))
    obtain ⟨rfl, rfl⟩ := List.append_inj (split.symm.trans parts) sizes
    rw [whole] at both
    exact ⟨tokens, congrArg Prod.fst both, congrArg Prod.snd both⟩

/-- Behind the end of a token, where no token follows, is the last report or none. -/
theorem reports_eq {source before rest : List UInt8} {last : List (String × Span)} (parts : source = before ++ rest)
    (place : EndsToken source before) (is : found before rest = ([], last)) :
    (tokenize source).2.map Diagnostic.report = (tokenize source).1.filterMap Token.report? ++ last := by
  obtain ⟨tokens, isTokens, isReports⟩ := reports_append parts place
  rw [is, List.append_nil] at isTokens
  rw [is] at isReports
  -- The end token is not reported.
  have own : (tokenize source).1.filterMap Token.report? = (ownTokens source).filterMap Token.report? := by
    rw [tokenize_eq, List.filterMap_append]
    exact List.append_nil _
  rw [isReports, own, isTokens]

/-- The diagnostics of a source are, in their order, those about its illegal tokens and its doubles without the
    digits of their exponents, each at its token, and then one about the comment that is not closed, from its
    opening to the end of the source, if there is such a comment. -/
theorem tokenize_reports (source : List UInt8) :
    (∀ front, Opens source front → (tokenize source).2.map Diagnostic.report =
        (tokenize source).1.filterMap Token.report? ++ [("E1001", ⟨behind front, behind source⟩)]) ∧
      ((¬ ∃ front, Opens source front) →
        (tokenize source).2.map Diagnostic.report = (tokenize source).1.filterMap Token.report?) := by
  constructor
  · intro front opens
    obtain ⟨before, gap, text, rfl, parts, place, skipped, within⟩ := opens
    have split : source = before ++ (gap ++ byte '/' :: byte '*' :: text) := by rw [parts, List.append_assoc]
    refine reports_eq split place ?_
    rw [found_gap skipped, found_opened within, ← parts]
  · intro closed
    obtain ⟨before, gap, split, lastGap, place⟩ := exists_lastGap source
    cases lastGap with
    | closed skipped =>
      have nothing : found before gap = ([], []) := by
        have passed := found_gap skipped before
        rwa [List.append_nil, found_nil] at passed
      exact (reports_eq split place nothing).trans (List.append_nil _)
    | @opened gap text skipped within =>
      refine absurd ⟨before ++ gap, before, gap, text, rfl, ?_, place, skipped, within⟩ closed
      rw [split, List.append_assoc]

def faultyText : List UInt8 := "&1e+ /**//*/".toUTF8.data.toList

theorem tokenize_reports_faultyText :
    let place (first last : Int) : Span := ⟨⟨first, 1, first + 1⟩, ⟨last, 1, last + 1⟩⟩
    Opens faultyText "&1e+ /**/".toUTF8.data.toList ∧
      (tokenize faultyText).2.map Diagnostic.report
        = [("E1001", place 0 1), ("E1002", place 1 4), ("E1001", place 9 12)] ∧
      (¬ ∃ front, Opens [] front) ∧ (tokenize []).2.map Diagnostic.report = [] := by
  intro place
  have opens : Opens faultyText "&1e+ /**/".toUTF8.data.toList := by
    let comment := byte '/' :: byte '*' :: ([] ++ commentEnd)
    refine ⟨"&1e+".toUTF8.data.toList, [byte ' '] ++ (comment ++ []), [byte '/'], by decide +kernel,
      by decide +kernel, .inr ?_, ?_, by decide⟩
    · exact ⟨⟨.double, "1e+", place 1 4⟩, by decide +kernel, by decide, by decide +kernel⟩
    · exact .cons (.blank (.inl rfl)) (.cons (.blockComment (by decide)) .nil)
  have closed : ¬ ∃ front, Opens [] front := by
    rintro ⟨front, before, gap, text, -, parts, -⟩
    simp at parts
  have reports := (tokenize_reports faultyText).1 _ opens
  have tokens : (tokenize faultyText).1.filterMap Token.report?
      = [("E1001", place 0 1), ("E1002", place 1 4)] := by decide +kernel
  have span : (⟨behind "&1e+ /**/".toUTF8.data.toList, behind faultyText⟩ : Span) = place 9 12 := by
    decide +kernel
  rw [tokens, span] at reports
  exact ⟨opens, reports, closed, ((tokenize_reports []).2 closed).trans (by decide +kernel)⟩

end ClassScript
