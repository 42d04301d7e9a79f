import ClassScript.Token.Lexer

/-! # The kinds of tokens of a source

A token of a source is a number, a word or a mark, and its kind tells which: the kinds of words and of marks are
those of two lists, and number kinds and the end of a source are not among them.
-/

namespace ClassScript

/-- A word is a keyword or a name. -/
theorem Kind.ofWord_mem (word : String) : Kind.ofWord word ∈ Kind.identifier :: Kind.keywords := by
  rw [Kind.ofWord]
  cases found : Kind.keywords.find? (·.name = word) with
  | none => exact List.mem_cons_self
  | some kind => exact List.mem_cons_of_mem _ (List.mem_of_find?_eq_some found)

namespace Piece

def markKinds : List Kind := .illegal :: (pairs.map (·.2.2) ++ singles.map (·.2))

theorem mark_mem (b : UInt8) (rest : List UInt8) : (mark b rest).1 ∈ markKinds := by
  rw [mark]
  split
  next kind found =>
    obtain ⟨next, _, isPair⟩ := Option.bind_eq_some_iff.1 found
    obtain ⟨entry, isEntry, rfl⟩ := Option.map_eq_some_iff.1 isPair
    have member := List.mem_map_of_mem (f := (·.2.2)) (List.mem_of_find?_eq_some isEntry)
    exact List.mem_cons_of_mem _ (List.mem_append_left _ member)
  next =>
    simp only [single]
    cases found : singles.find? fun s => byte s.1 = b with
    | none => exact List.mem_cons_self
    | some entry =>
      have member := List.mem_map_of_mem (f := (·.2)) (List.mem_of_find?_eq_some found)
      exact List.mem_cons_of_mem _ (List.mem_append_right _ member)

/-- What the kind of a token says about its first byte. -/
theorem front_token {b : UInt8} {rest : List UInt8} {kind : Kind}
    (ahead : (front b rest).1 = .token kind) :
    (numberAhead b rest = true ∧ (kind = .integer ∨ kind = .double)) ∨
      kind ∈ Kind.identifier :: Kind.keywords ∨ kind ∈ markKinds := by
  simp only [front] at ahead
  split at ahead
  · cases ahead
  split at ahead
  · cases ahead
  split at ahead
  · cases ahead
  split at ahead
  case isTrue isNumber =>
    obtain rfl := Form.token.inj ahead
    refine .inl ⟨isNumber, ?_⟩
    simp only [number]
    split
    · exact .inl rfl
    · exact .inr rfl
  split at ahead
  · obtain rfl := Form.token.inj ahead
    exact .inr (.inl (Kind.ofWord_mem _))
  · obtain rfl := Form.token.inj ahead
    exact .inr (.inr (mark_mem b rest))

/-- A piece of a source is what lies ahead of its first byte. -/
theorem exists_front_of_mem_cut {source : List UInt8} {p : Piece} (member : p ∈ cut source) :
    ∃ b rest, p.form = (front b rest).1 ∧ p.bytes = b :: rest.take (front b rest).2 := by
  fun_induction cut source with
  | case1 => cases member
  | case2 b rest form more ahead ih =>
    rcases List.mem_cons.1 member with rfl | member
    · exact ⟨b, rest, by rw [ahead], by rw [ahead]⟩
    · exact ih member

theorem map_piece_place (here : Position) (pieces : List Piece) :
    (place here pieces).map (·.piece) = pieces := by
  induction pieces generalizing here with
  | nil => rfl
  | cons p pieces ih => simp [place, ih]

end Piece

def ownTokens (source : List UInt8) : List Token :=
  (placedPieces source).filterMap PlacedPiece.token?

theorem tokenize_eq (source : List UInt8) :
    tokenize source = (ownTokens source ++ [endToken source],
      (placedPieces source).filterMap PlacedPiece.diagnostic?) := rfl

/-- A token of a source is a piece of it. -/
theorem exists_front_of_mem_ownTokens {source : List UInt8} {t : Token} (member : t ∈ ownTokens source) :
    ∃ b rest, (Piece.front b rest).1 = .token t.kind ∧
      t.lexeme = Piece.lexeme t.kind (b :: rest.take (Piece.front b rest).2) := by
  obtain ⟨p, placed, isToken⟩ := List.mem_filterMap.1 member
  have piece : p.piece ∈ Piece.cut source := by
    rw [← Piece.map_piece_place .start (Piece.cut source)]
    exact List.mem_map_of_mem placed
  obtain ⟨b, rest, form, bytes⟩ := Piece.exists_front_of_mem_cut piece
  rw [PlacedPiece.token?] at isToken
  split at isToken
  next kind isForm =>
    cases isToken
    exact ⟨b, rest, by rw [← form, isForm], by rw [bytes]⟩
  next => cases isToken

theorem Piece.front_ne_endOfFile {b : UInt8} {rest : List UInt8} {kind : Kind}
    (ahead : (front b rest).1 = .token kind) : kind ≠ .endOfFile := by
  rintro rfl
  rcases front_token ahead with ⟨-, isNumber⟩ | word | mark
  · rcases isNumber with is | is <;> cases is
  · exact absurd word (by decide)
  · exact absurd mark (by decide)

theorem ownTokens_ne_endOfFile {source : List UInt8} {t : Token} (member : t ∈ ownTokens source) :
    t.kind ≠ .endOfFile := by
  obtain ⟨b, rest, ahead, -⟩ := exists_front_of_mem_ownTokens member
  exact Piece.front_ne_endOfFile ahead

/-! ## Numbers -/

theorem decode_ascii {b : UInt8} (ascii : b < 0x80) (rest : List UInt8) :
    Text.Utf8.decode (b :: rest) = Char.ofNat b.toNat :: Text.Utf8.decode rest := by
  rw [Text.Utf8.decode, Text.Utf8.front, if_pos ascii]
  rfl

theorem isDigit_ofNat : ∀ n < 58, 48 ≤ n → (Char.ofNat n).isDigit = true := by decide

/-- The first byte of a number is a digit or a point, as a character too. -/
theorem Piece.ascii_of_numberAhead {b : UInt8} {rest : List UInt8} (ahead : numberAhead b rest = true) :
    b < 0x80 ∧ ((Char.ofNat b.toNat).isDigit = true ∨ Char.ofNat b.toNat = '.') := by
  simp only [numberAhead, isDigit, Bool.or_eq_true, Bool.and_eq_true, decide_eq_true_eq] at ahead
  rcases ahead with ⟨atLeast, atMost⟩ | ⟨rfl, -⟩
  · have low : 48 ≤ b.toNat := UInt8.le_iff_toNat_le.1 atLeast
    have high : b.toNat ≤ 57 := UInt8.le_iff_toNat_le.1 atMost
    exact ⟨UInt8.lt_iff_toNat_lt.2 (show b.toNat < 128 by omega),
      .inl (isDigit_ofNat b.toNat (by omega) low)⟩
  · exact ⟨by decide, .inr (by decide)⟩

/-- A number of a source begins with a digit or a point. -/
theorem number_lexeme {source : List UInt8} {t : Token} (member : t ∈ (tokenize source).1)
    (isNumber : t.kind = .integer ∨ t.kind = .double) :
    ∃ c rest, t.lexeme.toList = c :: rest ∧ (c.isDigit = true ∨ c = '.') := by
  rw [tokenize_eq] at member
  rcases List.mem_append.1 member with own | isEnd
  · obtain ⟨b, rest, ahead, lexeme⟩ := exists_front_of_mem_ownTokens own
    rcases Piece.front_token ahead with ⟨numberAhead, -⟩ | word | mark
    · obtain ⟨ascii, first⟩ := Piece.ascii_of_numberAhead numberAhead
      have plain (bytes : List UInt8) :
          Piece.lexeme t.kind bytes = String.ofList (Text.Utf8.decode bytes) := by
        rcases isNumber with is | is <;> rw [is] <;> rfl
      exact ⟨_, _, by rw [lexeme, plain, String.toList_ofList, decode_ascii ascii], first⟩
    · rcases isNumber with is | is <;> rw [is] at word <;> exact absurd word (by decide)
    · rcases isNumber with is | is <;> rw [is] at mark <;> exact absurd mark (by decide)
  · rw [List.mem_singleton.1 isEnd] at isNumber
    rcases isNumber with is | is <;> cases is

end ClassScript
