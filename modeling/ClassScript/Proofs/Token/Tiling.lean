import ClassScript.Proofs.Text.Utf8
import ClassScript.Proofs.Token.Join
import Mathlib.Data.List.TakeWhile

/-! # Tokens tile their source

`Tiled before rest tokens` says that the tokens are what `rest` is made of, where `before` comes in front of it
in a source: each token stands behind a gap, which is made of blanks and comments, and is spelt as its bytes
are, and the last one marks the end.  Lines and columns are counted from the bytes in front of a place
(`Position.behind`).  The tokens of every source tile it (`tokenize_tiles`).
-/

namespace ClassScript

/-! ## Places -/

def Position.behind (before : List UInt8) : Position where
  offset := before.length
  line := 1 + before.count Piece.lineEnd
  column := 1 + (before.reverse.takeWhile (· ≠ Piece.lineEnd)).length

@[simp]
theorem Position.offset_behind (before : List UInt8) : (behind before).offset = before.length := rfl

theorem Position.step_behind (before : List UInt8) (b : UInt8) :
    (behind before).step b = behind (before ++ [b]) := by
  by_cases newline : b = Piece.lineEnd
  · subst newline
    simp [step, behind, Int.add_assoc]
  · have other : b ≠ 10 := newline
    simp [step, behind, other, Int.add_comm]

theorem Position.advance_behind (before bytes : List UInt8) :
    (behind before).advance bytes = behind (before ++ bytes) := by
  induction bytes generalizing before with
  | nil => simp
  | cons b bytes ih =>
    rw [advance, List.foldl_cons, step_behind, ← advance, ih, List.append_assoc]
    rfl

/-! ## Gaps -/

namespace Piece

def commentEnd : List UInt8 := [byte '*', byte '/']

inductive Skipped (after : List UInt8) : List UInt8 → Prop
  | blank {b : UInt8} : b = byte ' ' ∨ b = byte '\t' ∨ b = byte '\x0d' → Skipped after [b]
  | lineComment {text : List UInt8} : lineEnd ∉ text → (∀ b ∈ after.head?, b = lineEnd) →
      Skipped after (byte '/' :: byte '/' :: text)
  | blockComment {text : List UInt8} : ¬ commentEnd <:+: text →
      Skipped after (byte '/' :: byte '*' :: (text ++ commentEnd))

inductive Gap (after : List UInt8) : List UInt8 → Prop
  | nil : Gap after []
  | cons {item gap : List UInt8} : Skipped (gap ++ after) item → Gap after gap → Gap after (item ++ gap)

/-- What may stand in front of the end of a source: a gap, and a comment that is not closed. -/
inductive LastGap : List UInt8 → Prop
  | closed {gap : List UInt8} : Gap [] gap → LastGap gap
  | opened {gap text : List UInt8} : Gap (byte '/' :: byte '*' :: text) gap → ¬ commentEnd <:+: text →
      LastGap (gap ++ byte '/' :: byte '*' :: text)

/-! ## What lies ahead -/

variable {b : UInt8} {rest : List UInt8}

/-- What the bytes ahead are, and how many belong to it beyond the first one. -/
inductive Ahead (b : UInt8) (rest : List UInt8) : Form → Nat → Prop
  | blank : isBlank b → Ahead b rest .blank (rest.takeWhile isBlank).length
  | lineComment : b = byte '/' → rest.head? = some (byte '/') →
      Ahead b rest .lineComment (rest.takeWhile (· ≠ byte '\n')).length
  | blockComment : b = byte '/' → rest.head? = some (byte '*') →
      Ahead b rest (.blockComment (comment (rest.drop 1)).1) (1 + (comment (rest.drop 1)).2)
  | number : numberAhead b rest →
      Ahead b rest (.token (number (b :: rest)).1) ((number (b :: rest)).2 - 1)
  | word (spelling : String) : wordAhead b rest →
      Ahead b rest (.token (Kind.ofWord spelling)) (word (b :: rest) - 1)
  | mark : Ahead b rest (.token (mark b rest).1) (mark b rest).2

theorem ahead_front (b : UInt8) (rest : List UInt8) : Ahead b rest (front b rest).1 (front b rest).2 := by
  simp only [front]
  split
  case isTrue isBlank => exact .blank isBlank
  split
  case isTrue opens =>
    simp only [Bool.and_eq_true, decide_eq_true_eq] at opens
    exact .lineComment opens.1 opens.2
  split
  case isTrue opens =>
    simp only [Bool.and_eq_true, decide_eq_true_eq] at opens
    exact .blockComment opens.1 opens.2
  split
  case isTrue ahead => exact .number ahead
  split
  case isTrue ahead => exact .word _ ahead
  case isFalse => exact .mark

theorem take_length_takeWhile (p : UInt8 → Bool) (bytes : List UInt8) :
    bytes.take (bytes.takeWhile p).length = bytes.takeWhile p :=
  (List.prefix_iff_eq_take.1 (List.takeWhile_prefix p)).symm

theorem drop_length_takeWhile (p : UInt8 → Bool) (bytes : List UInt8) :
    bytes.drop (bytes.takeWhile p).length = bytes.dropWhile p := by
  induction bytes with
  | nil => rfl
  | cons b bytes ih =>
    cases holds : p b with
    | true => simpa [holds] using ih
    | false => simp [holds]

/-! ### Comments -/

theorem skipped_lineComment (second : rest.head? = some (byte '/')) :
    let more := (rest.takeWhile (· ≠ byte '\n')).length
    Skipped (rest.drop more) (byte '/' :: rest.take more) := by
  intro more
  simp only [more, take_length_takeWhile, drop_length_takeWhile]
  cases rest with
  | nil => cases second
  | cons b rest =>
    obtain rfl : b = byte '/' := Option.some.inj second
    have going : decide (byte '/' ≠ byte '\n') = true := by decide
    rw [List.takeWhile_cons, List.dropWhile_cons, if_pos going, if_pos going]
    refine .lineComment (fun inside => ?_) fun b first => ?_
    · exact absurd (List.mem_takeWhile_imp inside) (by decide)
    · have stops := List.head?_dropWhile_not (fun x => decide (x ≠ byte '\n')) rest
      rw [first] at stops
      exact of_decide_eq_false (p := b ≠ byte '\n') stops |> Decidable.not_not.1

/-- A block comment goes up to the first end, or else to the end of the source. -/
theorem comment_spec (bytes : List UInt8) : ∃ text, ¬ commentEnd <:+: text ∧
    (comment bytes = (true, text.length + 2) ∧ bytes.take (text.length + 2) = text ++ commentEnd ∨
      comment bytes = (false, text.length) ∧ bytes = text) := by
  have empty : ¬ commentEnd <:+: [] := by simp [commentEnd]
  fun_induction comment bytes with
  | case1 => exact ⟨[], empty, .inr ⟨rfl, rfl⟩⟩
  | case2 b rest closes =>
    refine ⟨[], empty, .inl ⟨rfl, ?_⟩⟩
    cases rest with
    | nil => simp at closes
    | cons next rest =>
      simp only [Bool.and_eq_true, decide_eq_true_eq, List.head?_cons, Option.some.injEq] at closes
      simp [closes, commentEnd]
  | case3 b rest goesOn closed n same ih =>
    obtain ⟨text, within, ends⟩ := ih
    -- The end cannot begin with this byte, since the next byte would have to be a slash.
    have headed : text.head? = some (byte '/') → rest.head? = some (byte '/') := by
      intro slash
      cases text with
      | nil => cases slash
      | cons x text =>
        rcases ends with ⟨-, taken⟩ | ⟨-, rfl⟩
        · cases rest with
          | nil => cases taken
          | cons y rest =>
            simp only [List.length_cons, List.take_succ_cons, List.cons_append, List.cons.injEq] at taken
            rw [List.head?_cons, taken.1]
            exact slash
        · exact slash
    refine ⟨b :: text, fun inside => ?_, ?_⟩
    · rcases List.infix_cons_iff.1 inside with first | later
      · obtain ⟨more, is⟩ := first
        simp only [commentEnd, List.cons_append, List.nil_append, List.cons.injEq] at is
        obtain ⟨rfl, rfl⟩ := is
        exact goesOn (by simp [headed rfl])
      · exact within later
    · rcases ends with ⟨is, taken⟩ | ⟨is, rfl⟩
      · cases same.symm.trans is
        exact .inl ⟨rfl, by simp [taken]⟩
      · cases same.symm.trans is
        exact .inr ⟨rfl, rfl⟩

/-! ### Numbers -/

def isNumeric (b : UInt8) : Bool := isDigit b || b = byte '.' || isExponentMark b || isSign b

theorem ascii_of_isNumeric (numeric : isNumeric b) : b < 0x80 := by
  simp only [isNumeric, isDigit, isExponentMark, isSign, Bool.or_eq_true, Bool.and_eq_true,
    decide_eq_true_eq] at numeric
  rcases numeric with ((⟨-, atMost⟩ | rfl) | rfl | rfl) | rfl | rfl
  · exact UInt8.lt_of_le_of_lt atMost (by decide)
  all_goals decide

theorem take_digits (bytes : List UInt8) : (bytes.take (digits bytes)).all isNumeric = true := by
  rw [digits, take_length_takeWhile, List.all_eq_true]
  intro b inside
  simp [isNumeric, List.mem_takeWhile_imp inside]

theorem take_fraction (bytes : List UInt8) : (bytes.take (fraction bytes)).all isNumeric = true := by
  fun_cases fraction bytes with
  | case1 point d rest begins =>
    have := take_digits (d :: rest)
    simp_all [Nat.add_comm 1, isNumeric]
  | case2 | case3 => rfl

theorem take_exponent (bytes : List UInt8) : (bytes.take (exponent bytes)).all isNumeric = true := by
  fun_cases exponent bytes with
  | case1 mark next rest begins digit =>
    have := take_digits (next :: rest)
    simp_all [Nat.add_comm 1, isNumeric]
  | case2 mark next rest begins digit sign =>
    have := take_digits rest
    simp_all [Nat.add_comm 2, isNumeric]
  | case3 | case4 | case5 => rfl

theorem take_number (bytes : List UInt8) : (bytes.take (number bytes).2).all isNumeric = true := by
  simp only [number, List.take_add, List.all_append, take_digits, Bool.true_and, take_fraction, take_exponent]

/-- The bytes of a number are ASCII. -/
theorem ascii_number (ahead : numberAhead b rest) :
    ∀ x ∈ b :: rest.take ((number (b :: rest)).2 - 1), x < 0x80 := by
  have numeric := take_number (b :: rest)
  cases size : (number (b :: rest)).2 with
  | zero => simpa using (ascii_of_numberAhead ahead).1
  | succ more =>
    rw [size, List.take_succ_cons, List.all_eq_true] at numeric
    exact fun x inside => ascii_of_isNumeric (numeric x inside)

theorem wellFormed_number (ahead : numberAhead b rest) :
    Text.Utf8.WellFormed (b :: rest.take ((number (b :: rest)).2 - 1)) :=
  Text.Utf8.wellFormed_of_ascii (ascii_number ahead)

/-! ### Words -/

theorem wellFormed_take_word (bytes : List UInt8) : Text.Utf8.WellFormed (bytes.take (word bytes)) := by
  fun_induction word bytes with
  | case1 => exact .nil
  | case2 b rest c more found _ ih =>
    rw [Nat.add_assoc, Nat.add_comm 1, List.take_succ_cons]
    refine .cons (Text.Utf8.front_take found (Nat.le_add_right _ _)) ?_
    rwa [List.drop_take, Nat.add_sub_cancel_left]
  | case3 | case4 => exact .nil

theorem exists_word_succ (ahead : wordAhead b rest) : ∃ more, word (b :: rest) = more + 1 := by
  cases found : Text.Utf8.front b rest with
  | illFormed more => simp [wordAhead, found] at ahead
  | character c more =>
    simp only [wordAhead, found] at ahead
    have goesOn : continuesWord c = true := by
      rw [continuesWord, ← beginsWord, ahead, Bool.true_or]
    refine ⟨more + word (rest.drop more), ?_⟩
    rw [word]
    simp only [found, goesOn, ↓reduceIte]
    omega

theorem wellFormed_word (ahead : wordAhead b rest) :
    Text.Utf8.WellFormed (b :: rest.take (word (b :: rest) - 1)) := by
  have formed := wellFormed_take_word (b :: rest)
  obtain ⟨more, size⟩ := exists_word_succ ahead
  rw [size, List.take_succ_cons] at formed
  rwa [size]

/-! ### Operators and marks -/

theorem mark_cases (b : UInt8) (rest : List UInt8) :
    (∃ p ∈ pairs, b = byte p.1 ∧ rest.head? = some (byte p.2.1) ∧ mark b rest = (p.2.2, 1)) ∨
    (∃ s ∈ singles, b = byte s.1 ∧ mark b rest = (s.2, 0)) ∨ mark b rest = (.illegal, 0) := by
  rw [mark]
  split
  next kind both =>
    obtain ⟨next, second, isPair⟩ := Option.bind_eq_some_iff.1 both
    obtain ⟨p, found, rfl⟩ := Option.map_eq_some_iff.1 isPair
    have spells := List.find?_some found
    simp only [Bool.and_eq_true, decide_eq_true_eq] at spells
    exact .inl ⟨p, List.mem_of_find?_eq_some found, spells.1.symm, spells.2 ▸ second, rfl⟩
  next =>
    rw [single]
    cases found : singles.find? fun s => byte s.1 = b with
    | none => exact .inr (.inr rfl)
    | some s =>
      have spells := List.find?_some found
      simp only [decide_eq_true_eq] at spells
      exact .inr (.inl ⟨s, List.mem_of_find?_eq_some found, spells.symm, rfl⟩)

/-! ## Spellings -/

/-- What a token shows for its bytes: a line end by an escape, an illegal byte by the character of its number,
    and all others by themselves. -/
def Spelt (kind : Kind) (lexeme : String) (bytes : List UInt8) : Prop :=
  if kind = .newline then bytes = [lineEnd] ∧ lexeme = "\\n"
  else if kind = .illegal then ∃ b, bytes = [b] ∧ lexeme = String.ofList [Char.ofNat b.toNat]
  else lexeme.toUTF8.data.toList = bytes

theorem spelt_of_wellFormed {kind : Kind} {bytes : List UInt8} (notNewline : kind ≠ .newline)
    (legal : kind ≠ .illegal) (formed : Text.Utf8.WellFormed bytes) :
    Spelt kind (lexeme kind bytes) bytes := by
  have plain : lexeme kind bytes = String.ofList (Text.Utf8.decode bytes) := by
    cases kind
    case newline => exact absurd rfl notNewline
    case illegal => exact absurd rfl legal
    all_goals rfl
  rw [Spelt, if_neg notNewline, if_neg legal, plain]
  conv => rhs; rw [← Text.Utf8.encode_decode formed]
  simp [Text.Utf8.encode, String.toUTF8, String.toByteArray_ofList, List.utf8Encode]

/-- A token ahead is spelt as its bytes are. -/
theorem spelt_of_ahead {kind : Kind} {more : Nat} (ahead : Ahead b rest (.token kind) more) :
    Spelt kind (lexeme kind (b :: rest.take more)) (b :: rest.take more) := by
  cases ahead with
  | number ahead =>
    have plain : (number (b :: rest)).1 = .integer ∨ (number (b :: rest)).1 = .double := by
      simp only [number]
      split
      · exact .inl rfl
      · exact .inr rfl
    refine spelt_of_wellFormed ?_ ?_ (wellFormed_number ahead)
    all_goals rcases plain with is | is <;> simp [is]
  | word spelling ahead =>
    have plain := Kind.ofWord_mem spelling
    refine spelt_of_wellFormed ?_ ?_ (wellFormed_word ahead)
    all_goals
      intro is
      rw [is] at plain
      exact absurd plain (by decide)
  | mark =>
    -- Of all signs only one is a line end, and only what is in no table is illegal.
    rcases mark_cases b rest with ⟨p, listed, rfl, second, is⟩ | ⟨s, listed, rfl, is⟩ | is
    · have all : ∀ p ∈ pairs, byte p.1 < 0x80 ∧ byte p.2.1 < 0x80 ∧ p.2.2 ≠ .newline ∧ p.2.2 ≠ .illegal := by
        decide
      obtain ⟨ascii₁, ascii₂, notNewline, legal⟩ := all p listed
      rw [is, List.take_one, second]
      exact spelt_of_wellFormed notNewline legal (Text.Utf8.wellFormed_of_ascii (by simp [ascii₁, ascii₂]))
    · have all : ∀ s ∈ singles, byte s.1 < 0x80 ∧ (s.2 = .newline → byte s.1 = lineEnd) ∧ s.2 ≠ .illegal := by
        decide
      obtain ⟨ascii, newline, legal⟩ := all s listed
      rw [is]
      by_cases isNewline : s.2 = .newline
      · simp [Spelt, isNewline, newline isNewline, lexeme]
      · exact spelt_of_wellFormed isNewline legal (Text.Utf8.wellFormed_of_ascii (by simp [ascii]))
    · simp [Spelt, is, lexeme]

end Piece

/-! ## Tilings -/

open Piece Position

/-- Tokens that `rest` is made of, where `before` stands in front of it in a source. -/
inductive Tiled : (before rest : List UInt8) → List Token → Prop
  | last {before gap : List UInt8} : LastGap gap →
      Tiled before gap [⟨.endOfFile, "", ⟨behind (before ++ gap), behind (before ++ gap)⟩⟩]
  | next {before gap bytes rest : List UInt8} {kind : Kind} {lexeme : String} {tokens : List Token} :
      Gap (bytes ++ rest) gap → bytes ≠ [] → kind ≠ .endOfFile → Spelt kind lexeme bytes →
      Tiled (before ++ gap ++ bytes) rest tokens →
      Tiled before (gap ++ (bytes ++ rest))
        (⟨kind, lexeme, ⟨behind (before ++ gap), behind (before ++ gap ++ bytes)⟩⟩ :: tokens)

namespace Tiled

variable {before rest item : List UInt8} {tokens : List Token}

/-- A blank or a comment in front belongs to the first gap. -/
theorem skip (skipped : Skipped rest item) (tiled : Tiled (before ++ item) rest tokens) :
    Tiled before (item ++ rest) tokens := by
  cases tiled with
  | last gap =>
    rw [List.append_assoc]
    cases gap with
    | closed gap => exact .last (.closed (.cons (by simpa using skipped) gap))
    | opened gap text =>
      refine .last ?_
      rw [← List.append_assoc]
      exact .opened (.cons skipped gap) text
  | next gap filled kind spelt tiled =>
    rw [← List.append_assoc, List.append_assoc before]
    refine .next (.cons skipped gap) filled kind spelt ?_
    rwa [← List.append_assoc before]

theorem skipBlanks (blank : ∀ b ∈ item, isBlank b) (tiled : Tiled (before ++ item) rest tokens) :
    Tiled before (item ++ rest) tokens := by
  induction item generalizing before with
  | nil => simpa using tiled
  | cons b item ih =>
    obtain ⟨first, others⟩ := List.forall_mem_cons.1 blank
    rw [← List.singleton_append, List.append_assoc]
    refine skip (.blank (by simpa [isBlank, or_assoc] using first)) (ih others ?_)
    simpa using tiled

variable {b : UInt8} {form : Form} {kind : Kind} {more : Nat}

theorem of_skipped (ahead : Ahead b rest form more) (noToken : ∀ kind, form ≠ .token kind)
    (closed : form ≠ .blockComment false)
    (tiled : Tiled (before ++ b :: rest.take more) (rest.drop more) tokens) : Tiled before (b :: rest) tokens := by
  have parts : b :: rest = (b :: rest.take more) ++ rest.drop more := by simp
  rw [parts]
  cases ahead with
  | blank isBlank =>
    -- A piece is a whole run of blanks, and each of them is an item of the gap.
    refine skipBlanks (List.forall_mem_cons.2 ⟨isBlank, fun x inside => ?_⟩) tiled
    rw [take_length_takeWhile] at inside
    exact List.mem_takeWhile_imp inside
  | lineComment first second =>
    subst first
    exact skip (skipped_lineComment second) tiled
  | blockComment first second =>
    subst first
    refine skip ?_ tiled
    cases rest with
    | nil => cases second
    | cons next rest =>
      obtain rfl : next = byte '*' := Option.some.inj second
      obtain ⟨text, within, ⟨is, taken⟩ | ⟨is, -⟩⟩ := comment_spec rest
      · simp only [List.drop_one, List.tail_cons, is, Nat.add_comm 1, List.take_succ_cons, taken]
        exact .blockComment within
      · simp [is] at closed
  | number | word | mark => exact absurd rfl (noToken _)

theorem of_token (ahead : Ahead b rest (.token kind) more) (notEnd : kind ≠ .endOfFile)
    (tiled : Tiled (before ++ b :: rest.take more) (rest.drop more) tokens) :
    let bytes := b :: rest.take more
    Tiled before (b :: rest)
      (⟨kind, lexeme kind bytes, ⟨behind before, behind (before ++ bytes)⟩⟩ :: tokens) := by
  intro bytes
  have next : Tiled before ([] ++ (bytes ++ rest.drop more)) _ :=
    .next .nil (List.cons_ne_nil _ _) notEnd (spelt_of_ahead ahead) (by simpa using tiled)
  simpa [bytes] using next

/-- A comment that is not closed goes up to the end. -/
theorem lastGap_of_opened (ahead : Ahead b rest (.blockComment false) more) :
    rest.drop more = [] ∧ LastGap (b :: rest) := by
  generalize is : Form.blockComment false = form at ahead
  cases ahead with
  | blockComment first second =>
    subst first
    cases rest with
    | nil => cases second
    | cons next rest =>
      obtain rfl : next = byte '*' := Option.some.inj second
      obtain ⟨text, within, ⟨ends, -⟩ | ⟨ends, rfl⟩⟩ := comment_spec rest
      · simp [ends] at is
      · exact ⟨by simp [ends, Nat.add_comm 1], .opened .nil within⟩
  | _ => cases is

/-- The pieces of `rest`, placed behind `before`, are tokens that tile it. -/
theorem of_cut (before rest : List UInt8) :
    let final := behind (before ++ rest)
    Tiled before rest ((place (behind before) (cut rest)).filterMap PlacedPiece.token? ++
      [⟨.endOfFile, "", ⟨final, final⟩⟩]) := by
  fun_induction cut rest generalizing before with
  | case1 => exact .last (.closed .nil)
  | case2 b rest form more found ih =>
    have ahead : Ahead b rest form more := by
      have := ahead_front b rest
      rwa [found] at this
    have tiled := ih (before ++ b :: rest.take more)
    simp only [List.append_assoc, List.cons_append, List.take_append_drop] at tiled
    simp only [place, advance_behind]
    cases form with
    | blank => exact of_skipped ahead (by simp) (by simp) tiled
    | lineComment => exact of_skipped ahead (by simp) (by simp) tiled
    | blockComment closed =>
      cases closed with
      | true => exact of_skipped ahead (by simp) (by simp) tiled
      | false =>
        -- Nothing is left behind the comment, so the tokens end here.
        obtain ⟨nothing, gap⟩ := lastGap_of_opened ahead
        simp only [nothing, cut, place]
        exact .last gap
    | token kind =>
      exact of_token ahead (front_ne_endOfFile (by rw [found])) tiled

/-- The last token, and no other, is the end of the source. -/
theorem ends (tiled : Tiled before rest tokens) :
    let final := behind (before ++ rest)
    ∃ own, tokens = own ++ [⟨.endOfFile, "", ⟨final, final⟩⟩] ∧ ∀ t ∈ own, t.kind ≠ .endOfFile := by
  induction tiled with
  | last gap => exact ⟨[], rfl, by simp⟩
  | @next before gap bytes rest kind lexeme _ _ _ notEnd _ _ ih =>
    obtain ⟨own, rfl, others⟩ := ih
    let t : Token := ⟨kind, lexeme, behind (before ++ gap), behind (before ++ gap ++ bytes)⟩
    refine ⟨t :: own, ?_, List.forall_mem_cons.2 ⟨notEnd, others⟩⟩
    simp only [List.append_assoc, List.cons_append, t]

/-- Tokens begin behind what stands in front of them. -/
theorem begins (tiled : Tiled before rest tokens) : ∀ t ∈ tokens, before.length ≤ t.span.first.offset := by
  induction tiled with
  | last gap =>
    simp only [List.mem_singleton, forall_eq, offset_behind, List.length_append]
    omega
  | next gap filled notEnd spelt tiled ih =>
    simp only [List.forall_mem_cons, offset_behind, List.length_append] at ih ⊢
    refine ⟨by omega, fun t later => ?_⟩
    have behindToken := ih t later
    omega

/-- A token ends before the next one begins. -/
theorem ordered (tiled : Tiled before rest tokens) :
    tokens.Pairwise fun t u => t.span.last.offset ≤ u.span.first.offset := by
  induction tiled with
  | last gap => simp
  | next gap filled notEnd spelt tiled ih =>
    exact List.pairwise_cons.2 ⟨fun u later => tiled.begins u later, ih⟩

/-- Every token stands somewhere in the source, between its two places, and is spelt as the bytes there. -/
theorem placed (tiled : Tiled before rest tokens) {t : Token} (member : t ∈ tokens) :
    ∃ front bytes after, before ++ rest = front ++ bytes ++ after ∧
      t.span = ⟨behind front, behind (front ++ bytes)⟩ ∧
      (t.kind ≠ .endOfFile → bytes ≠ [] ∧ Spelt t.kind t.lexeme bytes) := by
  induction tiled with
  | @last before gap =>
    rw [List.mem_singleton.1 member]
    exact ⟨before ++ gap, [], [], by simp, by simp, fun other => absurd rfl other⟩
  | @next before gap bytes rest _ _ _ _ filled _ spelt _ ih =>
    rcases List.mem_cons.1 member with rfl | later
    · exact ⟨before ++ gap, bytes, rest, by simp, rfl, fun _ => ⟨filled, spelt⟩⟩
    · obtain ⟨front, bytes', after, is, place, own⟩ := ih later
      exact ⟨front, bytes', after, by simpa using is, place, own⟩

end Tiled

theorem tiled_tokenize (source : List UInt8) : Tiled [] source (tokenize source).1 := by
  have final : behind source = Position.start.advance source := (advance_behind [] source).symm
  have tiled := Tiled.of_cut [] source
  rw [List.nil_append, final] at tiled
  exact tiled

/-- The tokens of a source tile it: each one stands behind blanks and comments, at the lines and columns that
    its place in the source has, and is spelt as the bytes there; only the last one, behind all bytes, is
    the end. -/
theorem tokenize_tiles (source : List UInt8) :
    let tokens := (tokenize source).1
    Tiled [] source tokens ∧
      (∃ own, tokens = own ++ [⟨.endOfFile, "", ⟨behind source, behind source⟩⟩] ∧
        ∀ t ∈ own, t.kind ≠ .endOfFile) ∧
      (tokens.Pairwise fun t u => t.span.last.offset ≤ u.span.first.offset) ∧
      ∀ t ∈ tokens, ∃ front bytes after, source = front ++ bytes ++ after ∧
        t.span = ⟨behind front, behind (front ++ bytes)⟩ ∧
        (t.kind ≠ .endOfFile → bytes ≠ [] ∧ Spelt t.kind t.lexeme bytes) := by
  intro tokens
  have tiled : Tiled [] source tokens := tiled_tokenize source
  exact ⟨tiled, tiled.ends, tiled.ordered, fun t member => tiled.placed member⟩

end ClassScript
