import ClassScript.Proofs.Token.Tiling

/-! # Braces of a source

Every brace of a source is a token of its own or stands in a comment.  So a source has as many braces of a kind
as it has tokens of that kind and braces in its comments together (`count_brace`).
-/

namespace ClassScript

inductive Brace
  | left
  | right

namespace Brace

def char : Brace → Char
  | left => '\x7b'
  | right => '\x7d'

def kind : Brace → Kind
  | left => .leftBrace
  | right => .rightBrace

def byte (brace : Brace) : UInt8 := ClassScript.byte brace.char

end Brace

namespace Piece

variable {b : UInt8} {rest : List UInt8}

def isComment (p : Piece) : Bool :=
  match p.form with
  | .lineComment | .blockComment _ => true
  | .blank | .token _ => false

/-! ## Braces in tokens -/

theorem not_isNumeric_brace (brace : Brace) : isNumeric brace.byte = false := by
  cases brace <;> decide

theorem not_continuesWord_brace (brace : Brace) : continuesWord brace.char = false := by
  cases brace <;> decide +kernel

theorem ascii_brace (brace : Brace) : brace.char.val.toNat ≤ 0x7F := by
  cases brace <;> decide

theorem brace_not_mem_number (brace : Brace) (ahead : numberAhead b rest) :
    brace.byte ∉ b :: rest.take ((number (b :: rest)).2 - 1) := by
  intro member
  have numeric : isNumeric brace.byte = true := by
    cases size : (number (b :: rest)).2 with
    | zero =>
      rw [size] at member
      obtain rfl := List.mem_singleton.1 member
      simp only [numberAhead, Bool.or_eq_true, Bool.and_eq_true] at ahead
      rcases ahead with digit | point
      · simp [isNumeric, digit]
      · simp [isNumeric, point.1]
    | succ more =>
      have all := take_number (b :: rest)
      rw [size, List.take_succ_cons, List.all_eq_true] at all
      rw [size] at member
      exact all _ member
  rw [not_isNumeric_brace] at numeric
  cases numeric

theorem brace_not_mem_take_word (brace : Brace) (bytes : List UInt8) :
    brace.byte ∉ bytes.take (word bytes) := by
  fun_induction word bytes with
  | case1 => simp
  | case2 b rest c more found goesOn ih =>
    have parts : (b :: rest).take (1 + more + word (rest.drop more))
        = String.utf8EncodeChar c ++ (rest.drop more).take (word (rest.drop more)) := by
      rw [Text.Utf8.utf8EncodeChar_of_front found, Nat.add_assoc, Nat.add_comm 1, List.take_succ_cons,
        List.take_add, List.cons_append]
    rw [parts, List.mem_append, not_or]
    constructor
    · -- The brace would be the whole character, and a brace does not go on with a word.
      have other : c ≠ brace.char := by
        intro is
        rw [is, not_continuesWord_brace] at goesOn
        cases goesOn
      have none := Text.Utf8.count_utf8EncodeChar (ascii_brace brace) c
      rw [if_neg other] at none
      exact List.count_eq_zero.1 none
    · exact ih
  | case3 | case4 => simp

theorem brace_not_mem_word (brace : Brace) (ahead : wordAhead b rest) :
    brace.byte ∉ b :: rest.take (word (b :: rest) - 1) := by
  have absent := brace_not_mem_take_word brace (b :: rest)
  obtain ⟨more, size⟩ := exists_word_succ ahead
  rw [size, List.take_succ_cons] at absent
  rwa [size]

theorem mark_brace (brace : Brace) (rest : List UInt8) : mark brace.byte rest = (brace.kind, 0) := by
  have alone (next : UInt8) : pair? brace.byte next = none := by
    cases brace <;> simp [pair?, pairs, Brace.byte, Brace.char, ClassScript.byte]
  have single : single brace.byte = brace.kind := by cases brace <;> decide
  cases rest with
  | nil => simp [mark, single]
  | cons next rest => simp [mark, alone, single]

/-- A token is a brace or has none in it. -/
theorem count_brace_of_ahead (brace : Brace) {kind : Kind} {more : Nat}
    (ahead : Ahead b rest (.token kind) more) :
    (b :: rest.take more).count brace.byte = if kind = brace.kind then 1 else 0 := by
  have without {bytes : List UInt8} {kind : Kind} (absent : brace.byte ∉ bytes) (other : kind ≠ brace.kind) :
      bytes.count brace.byte = if kind = brace.kind then 1 else 0 := by
    rw [List.count_eq_zero.2 absent, if_neg other]
  cases ahead with
  | number ahead =>
    apply without (brace_not_mem_number brace ahead)
    simp only [number]
    split <;> cases brace <;> decide
  | word spelling ahead =>
    apply without (brace_not_mem_word brace ahead)
    intro is
    have plain := Kind.ofWord_mem spelling
    rw [is] at plain
    cases brace <;> exact absurd plain (by decide)
  | mark =>
    by_cases isBrace : b = brace.byte
    · subst isBrace
      simp [mark_brace]
    · -- No other sign has a brace in it, also not as its second byte.
      rcases mark_cases b rest with ⟨p, listed, rfl, second, is⟩ | ⟨s, listed, rfl, is⟩ | is
      · have all : ∀ p ∈ pairs, byte p.2.1 ≠ brace.byte ∧ p.2.2 ≠ brace.kind := by
          cases brace <;> decide
        rw [is, List.take_one, second]
        apply without _ (all p listed).2
        simp [Ne.symm isBrace, Ne.symm (all p listed).1]
      · have all : ∀ s ∈ singles, s.2 = brace.kind → byte s.1 = brace.byte := by
          cases brace <;> decide
        rw [is]
        apply without _ (mt (all s listed) isBrace)
        simp [Ne.symm isBrace]
      · rw [is]
        apply without
        · simp [Ne.symm isBrace]
        · cases brace <;> decide

theorem count_brace_of_mem_cut (brace : Brace) {source : List UInt8} {p : Piece} (member : p ∈ cut source) :
    p.bytes.count brace.byte
      = (if p.form = .token brace.kind then 1 else 0) + if p.isComment then p.bytes.count brace.byte else 0 := by
  obtain ⟨b, rest, form, bytes⟩ := exists_front_of_mem_cut member
  have ahead := ahead_front b rest
  rw [← form] at ahead
  cases is : p.form with
  | blank =>
    rw [is] at ahead
    generalize (front b rest).2 = more at ahead bytes
    cases ahead with
    | blank blank =>
      have absent : brace.byte ∉ p.bytes := by
        rw [bytes, take_length_takeWhile]
        intro inside
        have isBlank : isBlank brace.byte = true := by
          rcases List.mem_cons.1 inside with rfl | inside
          · exact blank
          · exact List.mem_takeWhile_imp inside
        cases brace <;> exact absurd isBlank (by decide)
      rw [List.count_eq_zero.2 absent]
      simp [isComment, is]
  | lineComment | blockComment => simp [isComment, is]
  | token kind =>
    rw [is] at ahead
    rw [bytes, count_brace_of_ahead brace ahead]
    simp [isComment, is]

end Piece

/-! ## Braces in sources -/

def commentBytes (source : List UInt8) : List UInt8 :=
  ((Piece.cut source).filter Piece.isComment).flatMap Piece.bytes

theorem countP_place (kind : Kind) (here : Position) (pieces : List Piece) :
    ((Piece.place here pieces).filterMap PlacedPiece.token?).countP (·.kind = kind)
      = pieces.countP (·.form = .token kind) := by
  induction pieces generalizing here with
  | nil => rfl
  | cons p pieces ih =>
    rw [Piece.place, List.filterMap_cons, List.countP_cons, ← ih (here.advance p.bytes)]
    cases is : p.form with
    | token own => simp [PlacedPiece.token?, is, List.countP_cons]
    | blank | lineComment | blockComment => simp [PlacedPiece.token?, is]

theorem count_brace_flatMap (brace : Brace) {source : List UInt8} {pieces : List Piece}
    (inside : ∀ p ∈ pieces, p ∈ Piece.cut source) :
    (pieces.flatMap Piece.bytes).count brace.byte = pieces.countP (·.form = .token brace.kind)
      + ((pieces.filter Piece.isComment).flatMap Piece.bytes).count brace.byte := by
  induction pieces with
  | nil => rfl
  | cons p pieces ih =>
    obtain ⟨first, others⟩ := List.forall_mem_cons.1 inside
    rw [List.flatMap_cons, List.count_append, Piece.count_brace_of_mem_cut brace first,
      ih others, List.countP_cons, List.filter_cons]
    simp only [decide_eq_true_eq]
    by_cases isComment : p.isComment
    · rw [if_pos isComment, if_pos isComment, List.flatMap_cons, List.count_append]
      omega
    · rw [if_neg isComment, if_neg isComment]
      omega

/-- The braces of a source are tokens, or they stand in comments. -/
theorem count_brace (brace : Brace) (source : List UInt8) :
    source.count brace.byte
      = (tokenize source).1.countP (·.kind = brace.kind) + (commentBytes source).count brace.byte := by
  have notEnd : (endToken source).kind ≠ brace.kind := by
    cases brace <;> simp [endToken, Brace.kind]
  have whole := count_brace_flatMap brace fun p (member : p ∈ Piece.cut source) => member
  rw [Piece.bytes_cut] at whole
  rw [tokenize_eq, List.countP_append, ownTokens, placedPieces, countP_place, List.countP_singleton,
    if_neg (by simpa using notEnd), whole, commentBytes, Nat.add_zero]

end ClassScript
