import ClassScript.Proofs.Token.Tiling

/-! # Tokens written apart

A token is recognised by its own bytes alone: whatever stood behind it in its source, it is the same token in front
of a blank, a line end or nothing at all (`front_apart`).  So the tokens of a source without complaints can be
written down again with other blanks and comments between them, and are cut out of the new text as they were cut
out of the old one (`tokenize_respaced`).
-/

namespace ClassScript

namespace Piece

variable {b : UInt8} {bytes rest after : List UInt8}

/-! ## What ends a token -/

def isBreak (b : UInt8) : Bool := isBlank b || b = lineEnd

def Breaks (after : List UInt8) : Prop := ∀ b ∈ after.head?, isBreak b

theorem isBreak_cases (breaks : isBreak b) : b = 32 ∨ b = 9 ∨ b = 13 ∨ b = 10 := by
  simp only [isBreak, isBlank, Bool.or_eq_true, decide_eq_true_eq] at breaks
  rcases breaks with ((rfl | rfl) | rfl) | rfl
  · exact .inl rfl
  · exact .inr (.inl rfl)
  · exact .inr (.inr (.inl rfl))
  · exact .inr (.inr (.inr rfl))

theorem breaks_cons (breaks : isBreak b) (rest : List UInt8) : Breaks (b :: rest) := by
  intro first is
  cases is
  exact breaks

theorem head?_of_breaks (breaks : Breaks after) {x : UInt8} (other : isBreak x = false) :
    after.head? ≠ some x := by
  intro first
  have := breaks x first
  rw [other] at this
  cases this

/-! ## Numbers -/

theorem digits_cons_of_not_isDigit (other : isDigit b = false) : digits (b :: rest) = 0 := by
  simp [digits, other]

theorem digits_of_breaks (breaks : Breaks after) : digits after = 0 := by
  cases after with
  | nil => rfl
  | cons b after =>
    apply digits_cons_of_not_isDigit
    rcases isBreak_cases (breaks b rfl) with rfl | rfl | rfl | rfl <;> rfl

theorem fraction_of_breaks (breaks : Breaks after) : fraction after = 0 := by
  fun_cases fraction after with
  | case1 point d rest begins =>
    simp only [Bool.and_eq_true, decide_eq_true_eq] at begins
    obtain ⟨rfl, _⟩ := begins
    cases breaks _ rfl
  | case2 | case3 => rfl

theorem exponent_of_breaks (breaks : Breaks after) : exponent after = 0 := by
  have unmarked {mark : UInt8} {rest : List UInt8} (is : after = mark :: rest) :
      isExponentMark mark = false := by
    subst is
    rcases isBreak_cases (breaks mark rfl) with rfl | rfl | rfl | rfl <;> rfl
  fun_cases exponent after with
  | case1 mark next rest marked | case2 mark next rest marked =>
    rw [unmarked rfl] at marked
    cases marked
  | case3 | case4 | case5 => rfl

/-- Digits are counted up to the first other byte. -/
theorem digits_take (bytes : List UInt8) (stops : digits after = 0) :
    digits (bytes.take (digits bytes) ++ after) = digits bytes := by
  have all : ∀ x ∈ bytes.takeWhile isDigit, isDigit x = true := fun x inside => List.mem_takeWhile_imp inside
  have none : after.takeWhile isDigit = [] := List.length_eq_zero_iff.1 stops
  rw [digits, digits, take_length_takeWhile, List.takeWhile_append_of_pos all, none, List.append_nil]

theorem fraction_take (stops : digits after = 0) (noPoint : fraction after = 0) :
    fraction (bytes.take (fraction bytes) ++ after) = fraction bytes := by
  fun_cases fraction bytes with
  | case1 point d rest begins =>
    have same := digits_take (d :: rest) stops
    have one : digits (d :: rest) = digits rest + 1 := by
      simp only [Bool.and_eq_true] at begins
      simp [digits, begins.2]
    rw [one, List.take_succ_cons] at same
    rw [one, Nat.add_comm 1, List.take_succ_cons, List.take_succ_cons, List.cons_append, List.cons_append,
      fraction, if_pos begins]
    rw [List.cons_append] at same
    rw [same, Nat.add_comm 1]
  | case2 | case3 => exact noPoint

theorem exponent_take (stops : digits after = 0) (noMark : exponent after = 0) :
    exponent (bytes.take (exponent bytes) ++ after) = exponent bytes := by
  fun_cases exponent bytes with
  | case1 mark next rest marked digit =>
    have same := digits_take (next :: rest) stops
    have one : digits (next :: rest) = digits rest + 1 := by simp [digits, digit]
    rw [one, List.take_succ_cons, List.cons_append] at same
    rw [one, Nat.add_comm 1, List.take_succ_cons, List.take_succ_cons, List.cons_append, List.cons_append,
      exponent, if_pos marked, if_pos digit, same, Nat.add_comm 1]
  | case2 mark next rest marked digit sign =>
    have same := digits_take rest stops
    rw [Nat.add_comm 2, List.take_succ_cons, List.take_succ_cons, List.cons_append, List.cons_append,
      exponent, if_pos marked, if_neg digit, if_pos sign, same, Nat.add_comm 2]
  | case3 | case4 | case5 => exact noMark

/-- A fraction begins with a point, so that the digits in front of it end there. -/
theorem digits_take_fraction (stops : digits after = 0) : digits (bytes.take (fraction bytes) ++ after) = 0 := by
  fun_cases fraction bytes with
  | case1 point d rest begins =>
    simp only [Bool.and_eq_true, decide_eq_true_eq] at begins
    obtain ⟨rfl, _⟩ := begins
    rw [Nat.add_comm 1, List.take_succ_cons, List.cons_append]
    exact digits_cons_of_not_isDigit rfl
  | case2 | case3 => exact stops

/-- An exponent begins with its letter, which is neither a digit nor a point. -/
theorem digits_take_exponent (bytes : List UInt8) (stops : digits after = 0) (noPoint : fraction after = 0) :
    digits (bytes.take (exponent bytes) ++ after) = 0 ∧ fraction (bytes.take (exponent bytes) ++ after) = 0 := by
  have marked {mark : UInt8} {rest : List UInt8} (is : isExponentMark mark) :
      digits (mark :: rest) = 0 ∧ fraction (mark :: rest) = 0 := by
    simp only [isExponentMark, Bool.or_eq_true, decide_eq_true_eq] at is
    rcases is with rfl | rfl
    · exact ⟨digits_cons_of_not_isDigit rfl, by cases rest <;> rfl⟩
    · exact ⟨digits_cons_of_not_isDigit rfl, by cases rest <;> rfl⟩
  fun_cases exponent bytes with
  | case1 mark next rest is =>
    rw [Nat.add_comm 1, List.take_succ_cons, List.cons_append]
    exact marked is
  | case2 mark next rest is =>
    rw [Nat.add_comm 2, List.take_succ_cons, List.cons_append]
    exact marked is
  | case3 | case4 | case5 => exact ⟨stops, noPoint⟩

/-- A number is read up to its end, whatever ends it. -/
theorem number_take (breaks : Breaks after) : number (bytes.take (number bytes).2 ++ after) = number bytes := by
  -- From the back: the exponent ends at the break, the fraction at the exponent and the digits at the fraction.
  have stops := digits_of_breaks breaks
  have noPoint := fraction_of_breaks breaks
  let whole := digits bytes
  let part := fraction (bytes.drop whole)
  let power := exponent (bytes.drop (whole + part))
  let tail := (bytes.drop (whole + part)).take power ++ after
  obtain ⟨stops', noPoint'⟩ := digits_take_exponent (bytes.drop (whole + part)) stops noPoint
  have parts : bytes.take (whole + part + power) ++ after
      = bytes.take whole ++ ((bytes.drop whole).take part ++ tail) := by
    simp only [tail, List.take_add, List.append_assoc]
  have isWhole : digits (bytes.take whole ++ ((bytes.drop whole).take part ++ tail)) = whole :=
    digits_take bytes (digits_take_fraction stops')
  have isPart : fraction ((bytes.drop whole).take part ++ tail) = part := fraction_take stops' noPoint'
  have isPower : exponent tail = power := exponent_take stops (exponent_of_breaks breaks)
  have size₁ : (bytes.take whole).length = whole := List.length_take_of_le (digits_le bytes)
  have size₂ : ((bytes.drop whole).take part).length = part := List.length_take_of_le (fraction_le _)
  change number (bytes.take (whole + part + power) ++ after) = _
  rw [parts, number, isWhole]
  have behindWhole : (bytes.take whole ++ ((bytes.drop whole).take part ++ tail)).drop whole
      = (bytes.drop whole).take part ++ tail := List.drop_left' size₁
  have behindPart : (bytes.take whole ++ ((bytes.drop whole).take part ++ tail)).drop (whole + part) = tail := by
    rw [← List.append_assoc]
    exact List.drop_left' (by rw [List.length_append, size₁, size₂])
  simp only [behindWhole, isPart, behindPart, isPower]
  rfl

/-! ## Words and marks -/

theorem word_of_breaks (breaks : Breaks after) : word after = 0 := by
  cases after with
  | nil => rw [word]
  | cons b after =>
    rw [word]
    rcases isBreak_cases (breaks b rfl) with rfl | rfl | rfl | rfl <;>
      simp only [show Text.Utf8.front 32 after = .character ' ' 0 from rfl,
        show Text.Utf8.front 9 after = .character '\t' 0 from rfl,
        show Text.Utf8.front 13 after = .character '\x0d' 0 from rfl,
        show Text.Utf8.front 10 after = .character '\n' 0 from rfl] <;>
      rfl

theorem word_take (breaks : Breaks after) : word (bytes.take (word bytes) ++ after) = word bytes := by
  fun_induction word bytes with
  | case1 => exact word_of_breaks breaks
  | case2 b rest c more found goesOn ih =>
    have own := Text.Utf8.front_take found (Nat.le_add_right more (word (rest.drop more)))
    have bound := utf8_front_more own
    rw [Nat.add_assoc, Nat.add_comm 1, List.take_succ_cons, List.cons_append, word,
      Text.Utf8.front_append own after]
    simp only [goesOn, ↓reduceIte]
    rw [List.drop_append_of_le_length bound, List.drop_take, Nat.add_sub_cancel_left, ih]
    omega
  | case3 | case4 => exact word_of_breaks breaks

theorem pair?_of_isBreak {next : UInt8} (breaks : isBreak next) : pair? b next = none := by
  rcases isBreak_cases breaks with rfl | rfl | rfl | rfl <;> simp [pair?, pairs, byte]

theorem mark_take (breaks : Breaks after) : mark b (rest.take (mark b rest).2 ++ after) = mark b rest := by
  have alone : after.head?.bind (pair? b) = none := by
    cases after with
    | nil => rfl
    | cons next after => exact pair?_of_isBreak (breaks next rfl)
  cases rest with
  | nil =>
    rw [List.take_nil, List.nil_append, mark, alone, mark]
    rfl
  | cons next rest =>
    cases both : pair? b next with
    | none =>
      have single : mark b (next :: rest) = (single b, 0) := by simp [mark, both]
      rw [single, List.take_zero, List.nil_append, mark, alone]
    | some kind =>
      have pair : mark b (next :: rest) = (kind, 1) := by simp [mark, both]
      rw [pair, List.take_succ_cons, List.take_zero, List.cons_append, mark]
      simp [both]

/-! ## Tokens -/

theorem number_pos (ahead : numberAhead b rest) : 0 < (number (b :: rest)).2 := by
  simp only [numberAhead, Bool.or_eq_true, Bool.and_eq_true, decide_eq_true_eq] at ahead
  rcases ahead with digit | ⟨rfl, second⟩
  · have one : 0 < digits (b :: rest) := by simp [digits, digit]
    simp only [number]
    omega
  · cases rest with
    | nil => cases second
    | cons d rest =>
      have none : digits (byte '.' :: d :: rest) = 0 := digits_cons_of_not_isDigit rfl
      have digit : isDigit d = true := second
      have one : fraction (byte '.' :: d :: rest) = 1 + digits (d :: rest) := by simp [fraction, digit]
      simp only [number, none, List.drop_zero, one]
      omega

/-- The bytes of a number begin a number again. -/
theorem numberAhead_take (ahead : numberAhead b rest) (after : List UInt8) :
    numberAhead b (rest.take ((number (b :: rest)).2 - 1) ++ after) := by
  simp only [numberAhead, Bool.or_eq_true, Bool.and_eq_true, decide_eq_true_eq] at ahead ⊢
  rcases ahead with digit | ⟨rfl, second⟩
  · exact .inl digit
  · refine .inr ⟨rfl, ?_⟩
    cases rest with
    | nil => cases second
    | cons d rest =>
      have none : digits (byte '.' :: d :: rest) = 0 := digits_cons_of_not_isDigit rfl
      have digit : isDigit d = true := second
      have two : 2 ≤ fraction (byte '.' :: d :: rest) := by simp [fraction, digit, digits, ← Nat.add_assoc]
      have long : ∃ more, (number (byte '.' :: d :: rest)).2 - 1 = more + 1 := by
        refine ⟨(number (byte '.' :: d :: rest)).2 - 2, ?_⟩
        simp only [number, none, List.drop_zero]
        omega
      obtain ⟨more, size⟩ := long
      rw [size, List.take_succ_cons]
      exact second

theorem front_number (ahead : numberAhead b rest) :
    front b rest = (.token (number (b :: rest)).1, (number (b :: rest)).2 - 1) := by
  have first : isBlank b = false ∧ b ≠ byte '/' := by
    simp only [numberAhead, Bool.or_eq_true, Bool.and_eq_true, decide_eq_true_eq] at ahead
    rcases ahead with digit | ⟨rfl, _⟩
    · constructor
      · by_contra blank
        simp only [isBlank, Bool.not_eq_false, Bool.or_eq_true, decide_eq_true_eq] at blank
        rcases blank with (rfl | rfl) | rfl <;> cases digit
      · rintro rfl
        cases digit
    · exact ⟨rfl, by decide⟩
  simp [front, first, ahead]

/-- The bytes of a word begin a word again. -/
theorem wordAhead_take (ahead : wordAhead b rest) (after : List UInt8) :
    wordAhead b (rest.take (word (b :: rest) - 1) ++ after) := by
  cases found : Text.Utf8.front b rest with
  | illFormed more =>
    rw [wordAhead, found] at ahead
    cases ahead
  | character c more =>
    simp only [wordAhead, found] at ahead
    have goesOn : continuesWord c = true := by
      rw [continuesWord, ← beginsWord, ahead, Bool.true_or]
    have enough : more ≤ word (b :: rest) - 1 := by
      rw [word]
      simp only [found, goesOn, ↓reduceIte]
      omega
    rw [wordAhead, Text.Utf8.front_append (Text.Utf8.front_take found enough)]
    exact ahead

theorem front_word (ahead : wordAhead b rest) (notDigit : isDigit b = false) :
    front b rest = (.token (Kind.ofWord (String.ofList (Text.Utf8.decode
      ((b :: rest).take (word (b :: rest)))))), word (b :: rest) - 1) := by
  -- None of the bytes that begin something else is a letter.
  have notBlank : isBlank b = false := by
    by_contra blank
    simp only [isBlank, Bool.not_eq_false, Bool.or_eq_true, decide_eq_true_eq] at blank
    rcases blank with (rfl | rfl) | rfl <;> cases ahead
  have notSlash : b ≠ byte '/' := by
    rintro rfl
    cases ahead
  have notNumber : numberAhead b rest = false := by
    have notPoint : b ≠ byte '.' := by
      rintro rfl
      cases ahead
    simp [numberAhead, notDigit, notPoint]
  simp [front, notBlank, notSlash, notNumber, ahead]

theorem front_mark (notBlank : isBlank b = false)
    (noComment : b = byte '/' → rest.head? ≠ some (byte '/') ∧ rest.head? ≠ some (byte '*'))
    (notNumber : numberAhead b rest = false) (notWord : wordAhead b rest = false) :
    front b rest = (.token (mark b rest).1, (mark b rest).2) := by
  by_cases slash : b = byte '/'
  · simp [front, notBlank, noComment slash, notNumber, notWord]
  · simp [front, notBlank, slash, notNumber, notWord]

theorem number_apart (ahead : numberAhead b rest) (breaks : Breaks after) :
    front b (rest.take (front b rest).2 ++ after) = front b rest := by
  obtain ⟨more, size⟩ := Nat.exists_eq_add_one_of_ne_zero (Nat.pos_iff_ne_zero.1 (number_pos ahead))
  have again := numberAhead_take ahead after
  have same : number ((b :: rest).take (number (b :: rest)).2 ++ after) = number (b :: rest) :=
    number_take breaks
  rw [size, List.take_succ_cons, List.cons_append] at same
  rw [front_number ahead]
  rw [size, Nat.add_sub_cancel] at again ⊢
  rw [front_number again, same, size, Nat.add_sub_cancel]

theorem word_apart (ahead : wordAhead b rest) (notDigit : isDigit b = false) (breaks : Breaks after) :
    front b (rest.take (front b rest).2 ++ after) = front b rest := by
  obtain ⟨more, size⟩ := exists_word_succ ahead
  have again := wordAhead_take ahead after
  have same : word ((b :: rest).take (word (b :: rest)) ++ after) = word (b :: rest) := word_take breaks
  have long : more ≤ rest.length := by
    have bound := word_le (b :: rest)
    rw [List.length_cons] at bound
    omega
  rw [size, List.take_succ_cons, List.cons_append] at same
  rw [front_word ahead notDigit]
  rw [size, Nat.add_sub_cancel] at again ⊢
  -- The spelling is taken from the bytes of the word alone, so the keywords are the same too.
  rw [front_word again notDigit, same, List.take_succ_cons, List.take_succ_cons,
    List.take_left' (List.length_take_of_le long), Nat.add_sub_cancel]

theorem wordAhead_of_ascii (ascii : b < 0x80) (rest after : List UInt8) : wordAhead b rest = wordAhead b after := by
  simp [wordAhead, Text.Utf8.front, ascii]

/-- A sign is read from one byte or two, and the byte behind these does not go on with it. -/
theorem mark_apart (notBlank : isBlank b = false)
    (noComment : b = byte '/' → rest.head? ≠ some (byte '/') ∧ rest.head? ≠ some (byte '*'))
    (notNumber : numberAhead b rest = false) (notWord : wordAhead b rest = false)
    (legal : (mark b rest).1 ≠ .illegal) (breaks : Breaks after) :
    front b (rest.take (front b rest).2 ++ after) = front b rest := by
  have same : mark b (rest.take (mark b rest).2 ++ after) = mark b rest := mark_take breaks
  rw [front_mark notBlank noComment notNumber notWord]
  rcases mark_cases b rest with ⟨p, listed, rfl, second, pair⟩ | ⟨s, listed, rfl, single⟩ | illegal
  · -- Two bytes: the second one is still there, and nothing looks further.
    have ascii : ∀ p ∈ pairs, byte p.1 < 0x80 := by decide
    have head : (rest.take (mark (byte p.1) rest).2 ++ after).head? = rest.head? := by
      rw [pair, List.take_one, second]
      rfl
    rw [wordAhead_of_ascii (ascii p listed) rest (rest.take (mark (byte p.1) rest).2 ++ after)] at notWord
    rw [← head] at noComment
    rw [numberAhead, ← head, ← numberAhead] at notNumber
    rw [front_mark notBlank noComment notNumber notWord, same]
  · -- One byte: a break stands behind it now, and makes no pair, comment or number with it.
    have ascii : ∀ s ∈ singles, byte s.1 < 0x80 := by decide
    have none : rest.take (mark (byte s.1) rest).2 ++ after = after := by
      rw [single, List.take_zero, List.nil_append]
    have notDigit : (after.head?.map isDigit).getD false = false := by
      cases after with
      | nil => rfl
      | cons next after =>
        rcases isBreak_cases (breaks next rfl) with rfl | rfl | rfl | rfl <;> rfl
    rw [wordAhead_of_ascii (ascii s listed) rest after] at notWord
    simp only [numberAhead, Bool.or_eq_false_iff] at notNumber
    rw [none] at same ⊢
    rw [front_mark notBlank (fun _ => ⟨head?_of_breaks breaks rfl, head?_of_breaks breaks rfl⟩)
      (by simp [numberAhead, notNumber.1, notDigit]) notWord, same]
  · exact absurd (by rw [illegal]) legal

/-- A token is the same in front of a blank or a line end, whatever stood behind it. -/
theorem front_apart {kind : Kind} (isToken : (front b rest).1 = .token kind) (legal : kind ≠ .illegal)
    (breaks : Breaks after) : front b (rest.take (front b rest).2 ++ after) = front b rest := by
  by_cases isNumber : numberAhead b rest
  · exact number_apart isNumber breaks
  rw [Bool.not_eq_true] at isNumber
  by_cases isWord : wordAhead b rest
  · simp only [numberAhead, Bool.or_eq_false_iff] at isNumber
    exact word_apart isWord isNumber.1 breaks
  rw [Bool.not_eq_true] at isWord
  by_cases blank : isBlank b
  · rw [front, if_pos blank] at isToken
    cases isToken
  rw [Bool.not_eq_true] at blank
  -- With one of these behind it a slash would begin a comment, which is no token.
  have noComment : b = byte '/' → rest.head? ≠ some (byte '/') ∧ rest.head? ≠ some (byte '*') := by
    rintro rfl
    constructor
    · intro line
      simp [front, blank, line] at isToken
    · intro block
      have other : byte '*' ≠ byte '/' := by decide
      simp [front, blank, block, other] at isToken
  refine mark_apart blank noComment isNumber isWord ?_ breaks
  rw [front_mark blank noComment isNumber isWord] at isToken
  rwa [Form.token.inj isToken]

/-! ## Scans -/

def plain? (p : Piece) : Option (Kind × String) :=
  match p.form with
  | .token kind => some (kind, lexeme kind p.bytes)
  | _ => none

def complaint? (p : Piece) : Option Complaint := (PlacedPiece.mk p .none).complaint?

/-- An illegal byte is complained about. -/
theorem ne_illegal_of_fine {p : Piece} {source : List UInt8} {kind : Kind} (member : p ∈ cut source)
    (isToken : p.form = .token kind) (fine : p.complaint? = none) : kind ≠ .illegal := by
  rintro rfl
  obtain ⟨b, rest, -, spelling⟩ := exists_front_of_mem_cut member
  simp only [complaint?, PlacedPiece.complaint?, isToken, spelling] at fine
  split at fine
  · cases fine
  · split at fine <;> cases fine

def scan (source : List UInt8) : List (Kind × String) × List Complaint :=
  ((cut source).filterMap plain?, (cut source).filterMap complaint?)

/-- The first piece of a source, and what is behind it. -/
theorem scan_front {form : Form} (ahead : front b (bytes ++ after) = (form, bytes.length)) :
    let p : Piece := ⟨form, b :: bytes⟩
    scan (b :: (bytes ++ after)) = (p.plain?.toList ++ (scan after).1, p.complaint?.toList ++ (scan after).2) := by
  intro p
  have pieces : cut (b :: (bytes ++ after)) = p :: cut after := by
    rw [cut, ahead]
    simp only [List.take_left, List.drop_left, p]
  rw [scan, pieces, List.filterMap_cons, List.filterMap_cons]
  cases p.plain? <;> cases p.complaint? <;> rfl

/-- A blank is passed over, with the blanks behind it or without them. -/
theorem scan_blank (blank : isBlank b) (after : List UInt8) : scan (b :: after) = scan after := by
  have ahead (b : UInt8) (blank : isBlank b) (after : List UInt8) :
      scan (b :: after) = scan (after.dropWhile isBlank) := by
    have parts := List.takeWhile_append_dropWhile (p := isBlank) (l := after)
    have run : front b (after.takeWhile isBlank ++ after.dropWhile isBlank)
        = (.blank, (after.takeWhile isBlank).length) := by rw [parts, front, if_pos blank]
    have passed := scan_front run
    rw [parts] at passed
    exact passed
  rw [ahead b blank]
  cases after with
  | nil => rfl
  | cons next after =>
    by_cases more : isBlank next
    · rw [List.dropWhile_cons_of_pos more, ahead next more]
    · rw [List.dropWhile_cons_of_neg more]

/-- A comment of one line goes up to the line end. -/
theorem front_lineComment {text : List UInt8} (inLine : lineEnd ∉ text) (ends : ∀ b ∈ after.head?, b = lineEnd) :
    front (byte '/') (byte '/' :: text ++ after) = (.lineComment, (byte '/' :: text).length) := by
  have going : ∀ x ∈ byte '/' :: text, (decide (x ≠ byte '\n')) = true := by
    intro x inside
    rcases List.mem_cons.1 inside with rfl | inside
    · decide
    · apply decide_eq_true
      rintro rfl
      exact inLine inside
  have stops : after.takeWhile (fun x => decide (x ≠ byte '\n')) = [] := by
    cases after with
    | nil => rfl
    | cons b after =>
      obtain rfl := ends b rfl
      rfl
  have size : ((byte '/' :: (text ++ after)).takeWhile fun x => decide (x ≠ byte '\n')) = byte '/' :: text := by
    rw [← List.cons_append, List.takeWhile_append_of_pos going, stops, List.append_nil]
  rw [List.cons_append, front, if_neg (by decide), if_pos (by simp), size]

theorem scan_lineComment {text : List UInt8} (inLine : lineEnd ∉ text) (ends : ∀ b ∈ after.head?, b = lineEnd) :
    scan (byte '/' :: byte '/' :: (text ++ after)) = scan after :=
  scan_front (front_lineComment inLine ends)

/-- A comment goes up to its first end. -/
theorem comment_of_text {text : List UInt8} (within : ¬ commentEnd <:+: text) (after : List UInt8) :
    comment (text ++ (commentEnd ++ after)) = (true, text.length + 2) := by
  induction text with
  | nil => rfl
  | cons b text ih =>
    have later : ¬ commentEnd <:+: text := fun inside => within (inside.trans (List.suffix_cons b text).isInfix)
    have goesOn : ¬ (b = byte '*' && (text ++ (commentEnd ++ after)).head? = some (byte '/')) = true := by
      simp only [Bool.and_eq_true, decide_eq_true_eq]
      rintro ⟨rfl, slash⟩
      cases text with
      | nil => exact absurd slash (by simp [commentEnd, byte])
      | cons next text =>
        obtain rfl : next = byte '/' := Option.some.inj slash
        exact within ⟨[], text, rfl⟩
    rw [List.cons_append, comment, if_neg goesOn, ih later]
    rfl

theorem front_blockComment {text : List UInt8} (within : ¬ commentEnd <:+: text) (after : List UInt8) :
    front (byte '/') (byte '*' :: (text ++ commentEnd) ++ after) =
      (.blockComment true, (byte '*' :: (text ++ commentEnd)).length) := by
  rw [List.cons_append, front, if_neg (by decide), if_neg (by simp [byte]), if_pos (by simp), List.drop_one,
    List.tail_cons, List.append_assoc, comment_of_text within after]
  simp [commentEnd, Nat.add_comm 1]

theorem scan_blockComment {text : List UInt8} (within : ¬ commentEnd <:+: text) (after : List UInt8) :
    scan (byte '/' :: byte '*' :: (text ++ commentEnd ++ after)) = scan after :=
  scan_front (front_blockComment within after)

theorem scan_skipped {item : List UInt8} (skipped : Skipped after item) : scan (item ++ after) = scan after := by
  cases skipped with
  | blank blank =>
    apply scan_blank
    simpa [isBlank, or_assoc] using blank
  | lineComment inLine ends => exact scan_lineComment inLine ends
  | blockComment within => exact scan_blockComment within after

theorem scan_gap {gap : List UInt8} (skipped : Gap after gap) : scan (gap ++ after) = scan after := by
  induction skipped with
  | nil => rfl
  | cons item _ ih => rw [List.append_assoc, scan_skipped item, ih]

/-- A line end is a token of its own, whatever follows it. -/
theorem front_newline (isToken : (front b rest).1 = .token .newline) (after : List UInt8) :
    front b (rest.take (front b rest).2 ++ after) = front b rest := by
  have ahead := ahead_front b rest
  rw [isToken] at ahead
  have spelt := spelt_of_ahead ahead
  rw [Spelt, if_pos rfl] at spelt
  obtain ⟨rfl, nothing⟩ := List.cons.inj spelt.1
  rw [nothing, front_of_lineEnd, front_of_lineEnd]

/-- A token without a complaint is scanned as it was, in front of what ends it. -/
theorem scan_token {p : Piece} {source : List UInt8} {kind : Kind} (member : p ∈ cut source)
    (isToken : p.form = .token kind) (fine : p.complaint? = none) (ends : kind ≠ .newline → Breaks after) :
    scan (p.bytes ++ after) = ((kind, lexeme kind p.bytes) :: (scan after).1, (scan after).2) := by
  have legal := ne_illegal_of_fine member isToken fine
  obtain ⟨b, rest, form, spelt⟩ := exists_front_of_mem_cut member
  obtain ⟨_, bytes⟩ := p
  subst isToken spelt
  -- A line end is a token by itself, whatever follows.
  have same : front b (rest.take (front b rest).2 ++ after) = front b rest := by
    by_cases newline : kind = .newline
    · subst newline
      exact front_newline form.symm after
    · exact front_apart form.symm legal (ends newline)
  have long : (rest.take (front b rest).2).length = (front b rest).2 := List.length_take_of_le front_le
  have ahead : front b (rest.take (front b rest).2 ++ after)
      = (.token kind, (rest.take (front b rest).2).length) := by
    rw [same, long]
    exact Prod.ext form.symm rfl
  rw [List.cons_append, scan_front ahead, fine]
  rfl

end Piece

/-! ## Sources written anew -/

namespace Token

def plain (t : Token) : Kind × String := (t.kind, t.lexeme)

def written (t : Token) : List UInt8 :=
  if t.kind = .newline then [Piece.lineEnd] else t.lexeme.toUTF8.data.toList

end Token

open Piece

def spaced (tokens : List Token) : List UInt8 := [byte ' '].intercalate (tokens.map Token.written)

/-- Tokens one after another with blanks and comments in between.  A blank or a line end stands right behind each
    token, unless that is a line end itself. -/
inductive Spaced : List Token → List UInt8 → Prop
  | nil {gap : List UInt8} : Gap [] gap → Spaced [] gap
  | cons {t : Token} {tokens : List Token} {gap text : List UInt8} : Gap (t.written ++ text) gap →
      (t.kind ≠ .newline → Breaks text) → Spaced tokens text → Spaced (t :: tokens) (gap ++ (t.written ++ text))

theorem plain_tokenize (source : List UInt8) :
    (tokenize source).1.map Token.plain = (scan source).1 ++ [(.endOfFile, "")] := by
  have own (p : PlacedPiece) : p.token?.map Token.plain = p.piece.plain? := by
    rw [PlacedPiece.token?, plain?]
    cases p.piece.form <;> rfl
  have pieces := map_piece_place .start (cut source)
  rw [tokenize_eq, List.map_append, ownTokens, List.map_filterMap, scan, ← pieces, List.filterMap_map]
  simp only [own]
  rfl

theorem clean_iff_scan (source : List UInt8) : (tokenize source).2 = [] ↔ (scan source).2 = [] := by
  have pieces := map_piece_place .start (cut source)
  rw [tokenize_eq, scan, ← pieces, List.filterMap_eq_nil_iff, List.filterMap_eq_nil_iff, List.forall_mem_map]
  simp only [PlacedPiece.diagnostic?_eq_none_iff]
  rfl

/-- A token of a source without complaints is a piece of it, which is written as the token is. -/
theorem exists_piece {source : List UInt8} (clean : (tokenize source).2 = []) {t : Token}
    (member : t ∈ ownTokens source) :
    ∃ p ∈ cut source, p.form = .token t.kind ∧ p.complaint? = none ∧ p.bytes = t.written ∧
      t.lexeme = lexeme t.kind p.bytes := by
  obtain ⟨placed, isPlaced, isToken⟩ := List.mem_filterMap.1 member
  have inCut : placed.piece ∈ cut source := by
    rw [← map_piece_place .start (cut source)]
    exact List.mem_map_of_mem isPlaced
  have fine : placed.piece.complaint? = none := by
    rw [clean_iff_scan] at clean
    exact List.filterMap_eq_nil_iff.1 clean placed.piece inCut
  rw [PlacedPiece.token?] at isToken
  split at isToken
  case h_2 => cases isToken
  case h_1 kind form =>
    cases isToken
    refine ⟨placed.piece, inCut, form, fine, ?_, rfl⟩
    obtain ⟨b, rest, is, spelling⟩ := exists_front_of_mem_cut inCut
    have ahead := ahead_front b rest
    rw [← is, form] at ahead
    have spelt := spelt_of_ahead ahead
    rw [← spelling, Spelt] at spelt
    rw [Token.written]
    by_cases newline : kind = .newline
    · rw [if_pos newline] at spelt ⊢
      exact spelt.1
    · rw [if_neg newline, if_neg (ne_illegal_of_fine inCut form fine)] at spelt
      rw [if_neg newline]
      exact spelt.symm

/-- Tokens of a source without complaints are scanned from every text that they are written in. -/
theorem scan_spaced {source : List UInt8} (clean : (tokenize source).2 = []) {tokens : List Token}
    {text : List UInt8} (writes : Spaced tokens text) (own : ∀ t ∈ tokens, t ∈ ownTokens source) :
    scan text = (tokens.map Token.plain, []) := by
  induction writes with
  | nil gap =>
    have passed := scan_gap gap
    rw [List.append_nil] at passed
    rw [passed, scan, cut]
    rfl
  | @cons t tokens gap text skipped ends _ ih =>
    obtain ⟨first, others⟩ := List.forall_mem_cons.1 own
    obtain ⟨p, inCut, form, fine, writes, spells⟩ := exists_piece clean first
    have token := scan_token inCut form fine ends
    rw [scan_gap skipped, ← writes, token, ih others, ← spells]
    rfl

/-- One blank between any two tokens is a way to write them. -/
theorem spaced_single (tokens : List Token) (last : Token) (empty : last.written = []) {gap : List UInt8}
    (blank : gap = [] ∨ gap = [byte ' ']) : Spaced tokens (gap ++ spaced (tokens ++ [last])) := by
  have skipped {gap : List UInt8} (blank : gap = [] ∨ gap = [byte ' ']) (after : List UInt8) : Gap after gap := by
    rcases blank with rfl | rfl
    · exact .nil
    · exact .cons (.blank (.inl rfl)) .nil
  induction tokens generalizing gap with
  | nil =>
    have nothing : spaced ([] ++ [last]) = [] := by simp [spaced, empty]
    rw [nothing, List.append_nil]
    exact .nil (skipped blank [])
  | cons t tokens ih =>
    have parts : spaced (t :: tokens ++ [last]) = t.written ++ ([byte ' '] ++ spaced (tokens ++ [last])) := by
      cases tokens <;> simp [spaced, List.intercalate]
    rw [parts]
    exact .cons (skipped blank _) (fun _ => breaks_cons rfl _) (ih (.inr rfl))

/-- The tokens of a source without complaints, written down with single blanks between them or in any other way
    with blanks and comments in between, are the tokens of the new text, about which there is no complaint
    either. -/
theorem tokenize_respaced {source : List UInt8} (clean : (tokenize source).2 = []) :
    ((tokenize (spaced (tokenize source).1)).2 = [] ∧
      (tokenize (spaced (tokenize source).1)).1.map Token.plain = (tokenize source).1.map Token.plain) ∧
    ∀ text, Spaced (ownTokens source) text →
      (tokenize text).2 = [] ∧ (tokenize text).1.map Token.plain = (tokenize source).1.map Token.plain := by
  have anyhow (text : List UInt8) (writes : Spaced (ownTokens source) text) :
      (tokenize text).2 = [] ∧ (tokenize text).1.map Token.plain = (tokenize source).1.map Token.plain := by
    have scanned := scan_spaced clean writes fun _ member => member
    constructor
    · rw [clean_iff_scan, scanned]
    · rw [plain_tokenize, scanned, tokenize_eq, List.map_append]
      rfl
  refine ⟨anyhow _ ?_, anyhow⟩
  have single := spaced_single (ownTokens source) (endToken source) rfl (.inl rfl)
  rwa [List.nil_append] at single

def crowdedText : List UInt8 := "a/**/.5".toUTF8.data.toList

def roomyText : List UInt8 := "a\t/*b*/.5 //".toUTF8.data.toList

theorem tokenize_respaced_roomyText :
    (tokenize crowdedText).2 = [] ∧ spaced (tokenize crowdedText).1 = "a .5 ".toUTF8.data.toList ∧
      (tokenize (spaced (tokenize crowdedText).1)).1.map Token.plain
        = [(.identifier, "a"), (.double, ".5"), (.endOfFile, "")] ∧
      (tokenize roomyText).2 = [] ∧
      (tokenize roomyText).1.map Token.plain = (tokenize crowdedText).1.map Token.plain := by
  have clean : (tokenize crowdedText).2 = [] := by decide +kernel
  have plain : (tokenize crowdedText).1.map Token.plain
      = [(.identifier, "a"), (.double, ".5"), (.endOfFile, "")] := by decide +kernel
  let name : Token := ⟨.identifier, "a", ⟨⟨0, 1, 1⟩, ⟨1, 1, 2⟩⟩⟩
  let number : Token := ⟨.double, ".5", ⟨⟨5, 1, 6⟩, ⟨7, 1, 8⟩⟩⟩
  have own : ownTokens crowdedText = [name, number] := by decide +kernel
  let comment := byte '/' :: byte '*' :: ([byte 'b'] ++ commentEnd)
  let line := byte '/' :: byte '/' :: []
  have text : roomyText = [] ++ (name.written ++ (([byte '\t'] ++ (comment ++ [])) ++ (number.written ++
      ([byte ' '] ++ (line ++ []))))) := by decide +kernel
  have last : Gap [] ([byte ' '] ++ (line ++ [])) :=
    .cons (.blank (.inl rfl)) (.cons (.lineComment (by decide) (by simp)) .nil)
  have middle (after : List UInt8) : Gap after ([byte '\t'] ++ (comment ++ [])) :=
    .cons (.blank (.inr (.inl rfl))) (.cons (.blockComment (by decide)) .nil)
  have writes : Spaced (ownTokens crowdedText) roomyText := by
    rw [own, text]
    exact .cons .nil (fun _ => breaks_cons rfl _) (.cons (middle _) (fun _ => breaks_cons rfl _) (.nil last))
  obtain ⟨single, anyhow⟩ := tokenize_respaced clean
  exact ⟨clean, by decide +kernel, single.2.trans plain, anyhow roomyText writes⟩

end ClassScript
