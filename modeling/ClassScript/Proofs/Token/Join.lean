import ClassScript.Proofs.Syntax.Spans
import ClassScript.Proofs.Token.Kinds

/-! # Sources joined by a line end

A line end closes every piece of a source but an open comment: whatever the bytes ahead are, they are the
same when a line end and any further bytes follow the source.  So two sources with a line end between them
are cut into the pieces of the first one, the line end, and the pieces of the second one (`cut_join`),
and the tokens of the second one are where they were, moved by the length and the lines of the first.
-/

namespace ClassScript

namespace Piece

abbrev lineEnd : UInt8 := 10

variable {b : UInt8} {rest more : List UInt8}

theorem takeWhile_lineEnd {p : UInt8 → Bool} (stops : p lineEnd = false) :
    (rest ++ lineEnd :: more).takeWhile p = rest.takeWhile p := by
  induction rest with
  | nil => simp [stops]
  | cons b rest ih => simp only [List.cons_append, List.takeWhile_cons, ih]

theorem head?_lineEnd {x : UInt8} (other : x ≠ lineEnd) :
    (rest ++ lineEnd :: more).head? = some x ↔ rest.head? = some x := by
  cases rest with
  | nil => simp [other.symm]
  | cons b rest => simp

/-! ## Numbers -/

theorem digits_lineEnd : digits (rest ++ lineEnd :: more) = digits rest := by
  rw [digits, takeWhile_lineEnd (by decide), digits]

theorem fraction_lineEnd : fraction (rest ++ lineEnd :: more) = fraction rest := by
  match rest with
  | [] => cases more <;> simp [fraction, lineEnd, byte]
  | [_] => simp [fraction, isDigit, byte, lineEnd]
  | point :: d :: rest => 
    have same := @digits_lineEnd (d :: rest) more
    simp only [List.cons_append, fraction] at same ⊢
    rw [same]

theorem exponent_lineEnd : exponent (rest ++ lineEnd :: more) = exponent rest := by
  match rest with
  | [] => cases more <;> simp [exponent, isExponentMark, byte, lineEnd]
  | [_] => simp [exponent, isDigit, isSign, byte, lineEnd]
  | mark :: next :: rest =>
    have same := @digits_lineEnd (next :: rest) more
    simp only [List.cons_append, exponent] at same ⊢
    rw [same, digits_lineEnd]

theorem digits_le (bytes : List UInt8) : digits bytes ≤ bytes.length :=
  (List.takeWhile_prefix _).length_le

theorem fraction_le (bytes : List UInt8) : fraction bytes ≤ bytes.length := by
  unfold fraction
  split
  next point d rest =>
    have bound := digits_le (d :: rest)
    simp only [List.length_cons] at bound ⊢
    split <;> omega
  next => exact Nat.zero_le _

theorem exponent_le (bytes : List UInt8) : exponent bytes ≤ bytes.length := by
  unfold exponent
  split
  next mark next rest =>
    have bound := digits_le (next :: rest)
    have bound' := digits_le rest
    simp only [List.length_cons] at bound ⊢
    split
    · split
      · omega
      · split <;> omega
    · omega
  next => exact Nat.zero_le _

theorem number_le (bytes : List UInt8) : (number bytes).2 ≤ bytes.length := by
  have whole := digits_le bytes
  have part := fraction_le (bytes.drop (digits bytes))
  have power := exponent_le (bytes.drop (digits bytes + fraction (bytes.drop (digits bytes))))
  simp only [List.length_drop] at part power
  simp only [number]
  omega

theorem number_lineEnd : number (rest ++ lineEnd :: more) = number rest := by
  have whole := digits_le rest
  have part := fraction_le (rest.drop (digits rest))
  rw [List.length_drop] at part
  simp only [number, digits_lineEnd, List.drop_append_of_le_length whole, fraction_lineEnd]
  rw [List.drop_append_of_le_length (by omega), exponent_lineEnd]

/-! ## Words -/

theorem tails_lineEnd (taken owed : Nat) {low : UInt8} (above : lineEnd < low) (high : UInt8)
    (bits : Nat) :
    Text.Utf8.tails taken owed low high bits (rest ++ lineEnd :: more) =
      Text.Utf8.tails taken owed low high bits rest := by
  induction owed generalizing taken low high bits rest with
  | zero => simp [Text.Utf8.tails]
  | succ owed ih =>
    cases rest with
    | nil =>
      have below : ¬ low ≤ lineEnd := UInt8.not_le.2 above
      simp [Text.Utf8.tails, below]
    | cons b rest =>
      simp only [List.cons_append, Text.Utf8.tails]
      rw [@ih rest _ 0x80 (by decide)]

theorem low_of_lead? {lead : Text.Utf8.Lead} (found : Text.Utf8.lead? b = some lead) :
    lineEnd < lead.low := by
  unfold Text.Utf8.lead? at found
  grind

theorem utf8_front_lineEnd : Text.Utf8.front b (rest ++ lineEnd :: more) = Text.Utf8.front b rest := by
  simp only [Text.Utf8.front]
  split
  · rfl
  · split
    next lead found => exact tails_lineEnd _ _ (low_of_lead? found) _ _
    next => rfl

theorem tails_more {taken owed : Nat} {low high : UInt8} {bits k : Nat} {c : Char}
    (found : Text.Utf8.tails taken owed low high bits rest = .character c k) :
    k ≤ taken + rest.length := by
  induction owed generalizing taken low high bits rest with
  | zero =>
    simp only [Text.Utf8.tails, Text.Utf8.Front.character.injEq] at found
    omega
  | succ owed ih =>
    cases rest with
    | nil => simp [Text.Utf8.tails] at found
    | cons b rest =>
      simp only [Text.Utf8.tails] at found
      split at found
      · have bound := ih found
        simp only [List.length_cons]
        omega
      · cases found

theorem utf8_front_more {k : Nat} {c : Char} (found : Text.Utf8.front b rest = .character c k) :
    k ≤ rest.length := by
  simp only [Text.Utf8.front] at found
  split at found
  · simp only [Text.Utf8.Front.character.injEq] at found
    omega
  · split at found
    · simpa using tails_more found
    · cases found

theorem word_le (bytes : List UInt8) : word bytes ≤ bytes.length := by
  fun_induction word bytes with
  | case1 => exact Nat.le_refl _
  | case2 b rest c more found goesOn ih =>
    have bound := utf8_front_more found
    simp only [List.length_cons, List.length_drop] at ih ⊢
    omega
  | case3 | case4 => exact Nat.zero_le _

theorem word_lineEnd : word (rest ++ lineEnd :: more) = word rest := by
  fun_induction word rest with
  | case1 =>
    rw [List.nil_append, word, show Text.Utf8.front lineEnd more = .character '\n' 0 from rfl]
    rfl
  | case2 b rest c k found goesOn ih =>
    have bound := utf8_front_more found
    rw [List.cons_append, word, utf8_front_lineEnd, found]
    simp only [goesOn, ↓reduceIte]
    rw [List.drop_append_of_le_length bound, ih]
  | case3 b rest c k found stops =>
    rw [List.cons_append, word, utf8_front_lineEnd, found]
    simp [stops]
  | case4 b rest k found =>
    rw [List.cons_append, word, utf8_front_lineEnd, found]

theorem wordAhead_lineEnd : wordAhead b (rest ++ lineEnd :: more) = wordAhead b rest := by
  rw [wordAhead, utf8_front_lineEnd, wordAhead]

/-! ## Comments and marks -/

theorem comment_le (bytes : List UInt8) : (comment bytes).2 ≤ bytes.length := by
  fun_induction comment bytes with
  | case1 => exact Nat.le_refl _
  | case2 b rest closes =>
    cases rest with
    | nil => simp at closes
    | cons => simp
  | case3 b rest _ closed n same ih =>
    rw [same] at ih
    simpa using ih

/-- A comment that is closed takes no notice of what follows. -/
theorem comment_append (closed : (comment rest).1 = true) : comment (rest ++ more) = comment rest := by
  induction rest with
  | nil => cases closed
  | cons b rest ih =>
    have sameHead (notEmpty : rest ≠ []) : (rest ++ more).head? = rest.head? := by
      cases rest with
      | nil => exact absurd rfl notEmpty
      | cons => rfl
    by_cases closes : (b = byte '*' && rest.head? = some (byte '/')) = true
    · have notEmpty : rest ≠ [] := by
        rintro rfl
        simp at closes
      simp only [List.cons_append, comment, sameHead notEmpty, closes, ↓reduceIte]
    · simp only [comment, closes, Bool.false_eq_true, ↓reduceIte] at closed
      have notEmpty : rest ≠ [] := by
        rintro rfl
        cases closed
      simp only [List.cons_append, comment, sameHead notEmpty, closes, Bool.false_eq_true, ↓reduceIte,
        ih closed]

theorem pair?_lineEnd : pair? b lineEnd = none := by
  simp [pair?, pairs, byte, lineEnd]

theorem mark_lineEnd : mark b (rest ++ lineEnd :: more) = mark b rest := by
  cases rest with
  | nil => simp [mark, pair?_lineEnd]
  | cons => rfl

theorem mark_le : (mark b rest).2 ≤ rest.length := by
  cases rest with
  | nil => simp [mark]
  | cons =>
    unfold mark
    split <;> simp

theorem numberAhead_lineEnd : numberAhead b (rest ++ lineEnd :: more) = numberAhead b rest := by
  cases rest with
  | nil =>
    have notDigit : isDigit lineEnd = false := by decide
    simp [numberAhead, notDigit]
  | cons => rfl

/-! ## The cut -/

theorem front_le : (front b rest).2 ≤ rest.length := by
  have number := number_le (b :: rest)
  have word := word_le (b :: rest)
  have comment := comment_le (rest.drop 1)
  have mark := @mark_le b rest
  simp only [List.length_cons, List.length_drop] at number word comment
  simp only [front]
  split
  · exact (List.takeWhile_prefix _).length_le
  split
  · exact (List.takeWhile_prefix _).length_le
  split
  next opens =>
    have notEmpty : rest ≠ [] := by
      rintro rfl
      simp at opens
    have positive := List.length_pos_iff.2 notEmpty
    omega
  split
  · omega
  split
  · omega
  · exact mark

/-- A line end closes what is ahead, unless that is an open comment. -/
theorem front_lineEnd (closed : (front b rest).1 ≠ .blockComment false) :
    front b (rest ++ lineEnd :: more) = front b rest := by
  have slash : (rest ++ lineEnd :: more).head? = some (byte '/') ↔ rest.head? = some (byte '/') :=
    head?_lineEnd (by decide)
  have star : (rest ++ lineEnd :: more).head? = some (byte '*') ↔ rest.head? = some (byte '*') :=
    head?_lineEnd (by decide)
  have blanks : (rest ++ lineEnd :: more).takeWhile isBlank = rest.takeWhile isBlank :=
    takeWhile_lineEnd (by decide)
  have line : (rest ++ lineEnd :: more).takeWhile (· ≠ byte '\n') = rest.takeWhile (· ≠ byte '\n') :=
    takeWhile_lineEnd (by decide)
  have sameNumber : number (b :: (rest ++ lineEnd :: more)) = number (b :: rest) :=
    @number_lineEnd (b :: rest) more
  have sameWord : word (b :: (rest ++ lineEnd :: more)) = word (b :: rest) :=
    @word_lineEnd (b :: rest) more
  have sameText : (b :: (rest ++ lineEnd :: more)).take (word (b :: rest)) =
      (b :: rest).take (word (b :: rest)) := List.take_append_of_le_length (word_le (b :: rest))
  have sameComment (opens : (b = byte '/' && rest.head? = some (byte '*')) = true)
      (isClosed : (comment (rest.drop 1)).1 = true) :
      comment ((rest ++ lineEnd :: more).drop 1) = comment (rest.drop 1) := by
    have notEmpty : 1 ≤ rest.length := by
      cases rest with
      | nil => simp at opens
      | cons => simp
    rw [List.drop_append_of_le_length notEmpty, comment_append isClosed]
  simp only [front, slash, star, blanks, line, numberAhead_lineEnd, sameNumber, wordAhead_lineEnd,
    sameWord, sameText, mark_lineEnd] at closed ⊢
  -- All that looks ahead stops at the line end by itself, but for a block comment.
  by_cases opens : (b = byte '/' && rest.head? = some (byte '*')) = true
  · simp only [Bool.and_eq_true, decide_eq_true_eq] at opens
    have notBlank : isBlank (byte '/') = false := by decide
    have notLine : ¬ some (byte '*') = some (byte '/') := by decide
    have isClosed : (comment (rest.drop 1)).1 = true := by
      simpa [notBlank, opens, notLine] using closed
    rw [sameComment (by simpa using opens) isClosed]
  · simp only [opens, Bool.false_eq_true, ↓reduceIte]

theorem front_of_lineEnd : front lineEnd rest = (.token .newline, 0) := by
  have noPair (next : UInt8) : pair? lineEnd next = none := by simp [pair?, pairs, byte, lineEnd]
  have noMark : mark lineEnd rest = (.newline, 0) := by
    cases rest with
    | nil => rfl
    | cons next rest => simp [mark, noPair, single, singles, byte, lineEnd]
  have noWord : wordAhead lineEnd rest = false := by
    rw [wordAhead, show Text.Utf8.front lineEnd rest = .character '\n' 0 from rfl]
    rfl
  have noNumber : numberAhead lineEnd rest = false := by
    have notDigit : isDigit lineEnd = false := by decide
    have notPoint : lineEnd ≠ byte '.' := by decide
    simp [numberAhead, notDigit, notPoint]
  have notBlank : isBlank lineEnd = false := by decide
  have notSlash : lineEnd ≠ byte '/' := by decide
  simp [front, notBlank, notSlash, noNumber, noWord, noMark]

/-- Two sources with a line end between them are cut apart at it. -/
theorem cut_join {source : List UInt8} (closed : ∀ p ∈ cut source, p.form ≠ .blockComment false) :
    cut (source ++ lineEnd :: more) = cut source ++ ⟨.token .newline, [lineEnd]⟩ :: cut more := by
  fun_induction cut source with
  | case1 => simp [cut, front_of_lineEnd]
  | case2 b rest form k ahead ih =>
    have bound := @front_le b rest
    rw [ahead] at bound
    have isClosed : (front b rest).1 ≠ .blockComment false := by
      rw [ahead]
      exact closed _ List.mem_cons_self
    rw [List.cons_append, cut, front_lineEnd isClosed, ahead]
    simp only [List.take_append_of_le_length bound, List.drop_append_of_le_length bound,
      List.cons_append]
    rw [ih fun p member => closed p (by simp [member])]

/-! ## Places -/

theorem place_append (here : Position) (pieces others : List Piece) :
    place here (pieces ++ others) =
      place here pieces ++ place (here.advance (pieces.flatMap bytes)) others := by
  induction pieces generalizing here with
  | nil => rfl
  | cons p pieces ih =>
    simp [place, ih, Position.advance_append]

end Piece

namespace Position

theorem advance_shift (offset lines : Int) (p : Position) (bytes : List UInt8) :
    (p.shift offset lines).advance bytes = (p.advance bytes).shift offset lines := by
  induction bytes generalizing p with
  | nil => rfl
  | cons b bytes ih =>
    have stepped : (p.shift offset lines).step b = (p.step b).shift offset lines := by
      simp only [step, shift]
      split <;> simp only [mk.injEq, and_true] <;> omega
    exact (congrArg (·.advance bytes) stepped).trans (ih (p.step b))

/-- The place behind some bytes and a line end: the first column of a later line. -/
theorem advance_lineEnd (p : Position) (bytes : List UInt8) :
    p.advance (bytes ++ [Piece.lineEnd]) =
      ⟨p.offset + (bytes.length + 1), p.line + (1 + bytes.count Piece.lineEnd), 1⟩ := by
  induction bytes generalizing p with
  | nil => simp [advance, step, Piece.lineEnd]
  | cons b bytes ih =>
    rw [List.cons_append, ← List.singleton_append, advance_append, ih]
    simp only [advance, List.foldl_cons, List.foldl_nil, step, List.length_cons, List.count_cons]
    split <;> simp_all <;> omega

end Position

namespace PlacedPiece

def shift (offset lines : Int) (p : PlacedPiece) : PlacedPiece := ⟨p.piece, p.span.shift offset lines⟩

variable (offset lines : Int)

theorem place_shift (here : Position) (pieces : List Piece) :
    Piece.place (here.shift offset lines) pieces = (Piece.place here pieces).map (shift offset lines) := by
  induction pieces generalizing here with
  | nil => rfl
  | cons p pieces ih =>
    simp [Piece.place, Position.advance_shift, ih, shift, Span.shift]

theorem token?_shift (p : PlacedPiece) :
    (p.shift offset lines).token? = p.token?.map (·.shift offset lines) := by
  simp only [token?, shift]
  split <;> rfl

theorem filterMap_token?_shift (pieces : List PlacedPiece) :
    (pieces.map (·.shift offset lines)).filterMap token? = (pieces.filterMap token?).map (·.shift offset lines) := by
  rw [List.filterMap_map, List.map_filterMap]
  exact congrArg (pieces.filterMap ·) (funext (token?_shift offset lines))

/-- A complaint is about a piece, wherever it stands. -/
theorem diagnostic?_eq_none_iff (p : PlacedPiece) : p.diagnostic? = none ↔ p.complaint? = none := by
  simp [diagnostic?]

end PlacedPiece

section Join

variable {s₁ s₂ : List UInt8}

/-- Behind the first source and the line end. -/
theorem advance_join : Position.start.advance (s₁ ++ [Piece.lineEnd]) =
    Position.start.shift (s₁.length + 1) (1 + s₁.count Piece.lineEnd) :=
  Position.advance_lineEnd .start s₁

/-- The pieces of two joined sources, each at its place. -/
theorem placedPieces_join (closed : ∀ p ∈ Piece.cut s₁, p.form ≠ .blockComment false)
    (s₂ : List UInt8) :
    ∃ line : PlacedPiece, line.piece = ⟨.token .newline, [Piece.lineEnd]⟩ ∧
      placedPieces (s₁ ++ Piece.lineEnd :: s₂) = placedPieces s₁ ++ line ::
        (placedPieces s₂).map (·.shift (s₁.length + 1) (1 + s₁.count Piece.lineEnd)) := by
  let end₁ := Position.start.advance s₁
  refine ⟨⟨⟨.token .newline, [Piece.lineEnd]⟩, ⟨end₁, end₁.advance [Piece.lineEnd]⟩⟩, rfl, ?_⟩
  rw [placedPieces, Piece.cut_join closed, Piece.place_append, Piece.bytes_cut]
  simp only [Piece.place]
  rw [← Position.advance_append, advance_join, PlacedPiece.place_shift]
  rfl

theorem endToken_join : endToken (s₁ ++ Piece.lineEnd :: s₂) =
    (endToken s₂).shift (s₁.length + 1) (1 + s₁.count Piece.lineEnd) := by
  have behind : Position.start.advance (s₁ ++ Piece.lineEnd :: s₂) =
      (Position.start.advance s₂).shift (s₁.length + 1) (1 + s₁.count Piece.lineEnd) := by
    rw [List.append_cons, Position.advance_append, advance_join, Position.advance_shift]
  simp only [endToken, behind, Token.shift, Span.shift]

/-- The tokens of two joined sources without complaints: those of the first one, the line end, and
    those of the second one some bytes and lines further on. -/
theorem tokenize_join (clean₁ : (tokenize s₁).2 = []) (clean₂ : (tokenize s₂).2 = []) :
    ∃ line : Token, line.kind = .newline ∧
      tokenize (s₁ ++ Piece.lineEnd :: s₂) = (ownTokens s₁ ++ line :: (tokenize s₂).1.map
        (·.shift (s₁.length + 1) (1 + s₁.count Piece.lineEnd)), []) := by
  -- A comment that is still open would have been complained about.
  have closed : ∀ p ∈ Piece.cut s₁, p.form ≠ .blockComment false := by
    intro p member isOpen
    rw [← Piece.map_piece_place .start (Piece.cut s₁)] at member
    obtain ⟨placed, isPlaced, rfl⟩ := List.mem_map.1 member
    have fine := List.filterMap_eq_nil_iff.1 clean₁ placed isPlaced
    rw [PlacedPiece.diagnostic?_eq_none_iff] at fine
    simp [PlacedPiece.complaint?, isOpen] at fine
  obtain ⟨line, isLine, pieces⟩ := placedPieces_join closed s₂
  have lineToken : line.token? = some ⟨.newline, "\\n", line.span⟩ := by
    simp [PlacedPiece.token?, isLine, Piece.lexeme]
  have lineFine : line.diagnostic? = none := by
    simp [PlacedPiece.diagnostic?, PlacedPiece.complaint?, isLine]
  refine ⟨⟨.newline, "\\n", line.span⟩, rfl, ?_⟩
  rw [tokenize_eq, ownTokens, pieces, endToken_join]
  refine Prod.ext ?_ ?_
  · rw [List.filterMap_append, List.filterMap_cons_some lineToken, PlacedPiece.filterMap_token?_shift,
      tokenize_eq s₂, List.map_append, List.append_assoc]
    rfl
  · simp only [tokenize_eq, List.filterMap_eq_nil_iff] at clean₁ clean₂
    simp only [List.filterMap_eq_nil_iff, List.mem_append, List.mem_cons, List.mem_map]
    rintro p (member | rfl | ⟨q, member, rfl⟩)
    · exact clean₁ p member
    · exact lineFine
    · have fine := clean₂ q member
      rwa [PlacedPiece.diagnostic?_eq_none_iff] at fine ⊢

end Join

end ClassScript
