import ClassScript.Proofs.Interpreter.Assignment
import ClassScript.Proofs.Interpreter.Batch
import ClassScript.Proofs.Number.Literal
import ClassScript.Proofs.Syntax.Unparse
import ClassScript.Proofs.Token.Reports

/-! # Numbers with a sign

A minus sign in front of a number literal belongs to the literal, and in front of a variable it subtracts from
zero.  The two agree on all integers and on all doubles but one: zero minus zero has no sign, and the literal
has one (`negation_agrees`).

An integer that is printed is such a literal, so running the printed text yields the integer again
(`evaluate_printed`).  The least integer is the exception: the literal is read before its sign, and its size is
out of range.
-/

namespace ClassScript

open Number (AllDigits)

/-! ## Doubles -/

namespace Number

open Float.Model (Format UnpackedFloat)

/-- Zero is the only double that is taken apart to zero without a sign. -/
theorem unpack_eq_zero_iff {x : Float} : x.toModel.unpack = .zero .positive ↔ x = 0 := by
  constructor
  · intro apart
    have apart : UnpackedFloat.unpack Format.binary64 x.toBits.toBitVec = .zero .positive := apart
    have number : ¬ @UnpackedFloat.isNaNBits Format.binary64 x.toBits.toBitVec = true := by
      intro isNaN
      rw [UnpackedFloat.isNaNBits, decide_eq_true_eq] at isNaN
      rw [UnpackedFloat.unpack, if_pos isNaN.1, if_neg isNaN.2] at apart
      cases apart
    have together := @UnpackedFloat.pack_unpack Format.binary64 x.toBits.toBitVec (by decide)
    rw [apart, if_neg number] at together
    exact Float.toBits_inj.1 (UInt64.toBitVec_inj.1 together.symm)
  · rintro rfl
    rfl

/-- Subtracting from zero changes the sign of every double but zero. -/
theorem zero_sub_eq_neg_iff (x : Float) : 0 - x = -x ↔ x ≠ 0 := by
  have difference : 0 - x =
      ⟨.pack (UnpackedFloat.sub Format.binary64 (.zero .positive) x.toModel.unpack)⟩ := rfl
  have opposite : -x = ⟨.pack x.toModel.unpack.neg⟩ := rfl
  rw [difference, opposite, ne_eq, ← unpack_eq_zero_iff]
  cases x.toModel.unpack with
  | zero sign =>
    cases sign with
    | positive =>
      -- The difference of two zeros without a sign has none either.
      refine iff_of_false (fun same => ?_) (fun other => other rfl)
      exact absurd (congrArg Float.toBits same) (by decide)
    | negative => exact iff_of_true rfl (by simp)
  | infinity | notANumber | finite => exact iff_of_true rfl (by simp)

end Number

/-! ## The tokens of a printed integer -/

namespace Piece

variable {c : Char} {cs : List Char}

/-- An ASCII character is encoded as its byte, and decoded from it. -/
theorem byte_of_ascii (ascii : c.toNat < 128) :
    byte c < 0x80 ∧ Char.ofNat (byte c).toNat = c ∧ String.utf8EncodeChar c = [byte c] := by
  have size : (byte c).toNat = c.toNat := by
    rw [byte, UInt8.toNat_ofNat']
    omega
  refine ⟨?_, by rw [size, Char.ofNat_toNat], ?_⟩
  · rw [UInt8.lt_iff_toNat_lt, size]
    exact ascii
  · rw [← Char.ofNat_toNat c]
    exact Text.Utf8.encode_one (by omega) (by rw [Char.ofNat_toNat, size])

theorem ascii_of_isDigit (digit : c.isDigit = true) : c.toNat < 128 :=
  Nat.lt_of_le_of_lt (Number.toNat_of_isDigit digit).2 (by decide)

theorem isDigit_byte (digit : c.isDigit = true) : isDigit (byte c) = true := by
  have bounds := Number.toNat_of_isDigit digit
  have size : (byte c).toNat = c.toNat := by
    rw [byte, UInt8.toNat_ofNat']
    omega
  simp only [isDigit, Bool.and_eq_true, decide_eq_true_eq, UInt8.le_iff_toNat_le, size]
  exact bounds

theorem toUTF8_ofList (cs : List Char) :
    (String.ofList cs).toUTF8.data.toList = cs.flatMap String.utf8EncodeChar := by
  simp [String.toUTF8, String.toByteArray_ofList, List.utf8Encode]

theorem encode_ascii (ascii : ∀ c ∈ cs, c.toNat < 128) : cs.flatMap String.utf8EncodeChar = cs.map byte := by
  induction cs with
  | nil => rfl
  | cons c cs ih =>
    obtain ⟨head, more⟩ := List.forall_mem_cons.1 ascii
    rw [List.flatMap_cons, (byte_of_ascii head).2.2, ih more]
    rfl

theorem decode_bytes (ascii : ∀ c ∈ cs, c.toNat < 128) : Text.Utf8.decode (cs.map byte) = cs := by
  have small : ∀ b ∈ cs.map byte, b < 0x80 := by
    intro b member
    obtain ⟨c, there, rfl⟩ := List.mem_map.1 member
    exact (byte_of_ascii (ascii c there)).1
  rw [decode_of_ascii small, List.map_map]
  exact (List.map_congr_left fun c member => (byte_of_ascii (ascii c member)).2.1).trans (List.map_id cs)

/-- A number that goes up to the end of a source is its only token. -/
theorem scan_number {kind : Kind} (begins : c.isDigit = true) (ascii : ∀ d ∈ c :: cs, d.toNat < 128)
    (isNumber : kind = .integer ∨ kind = .double) (whole : number ((c :: cs).map byte) = (kind, cs.length + 1))
    (fine : complaint? ⟨.token kind, (c :: cs).map byte⟩ = none) :
    scan ((c :: cs).map byte) = ([(kind, String.ofList (c :: cs))], []) := by
  have ahead : numberAhead (byte c) (cs.map byte) = true := by
    rw [numberAhead, isDigit_byte begins, Bool.true_or]
  have one : front (byte c) (cs.map byte ++ []) = (.token kind, (cs.map byte).length) := by
    rw [List.append_nil, front_number ahead, ← List.map_cons, whole, List.length_map]
    rfl
  have lexeme : lexeme kind ((c :: cs).map byte) = String.ofList (c :: cs) := by
    rcases isNumber with rfl | rfl <;> exact congrArg String.ofList (decode_bytes ascii)
  have nothing : scan [] = ([], []) := by simp [scan, cut]
  have scanned := scan_front one
  rw [List.append_nil, ← List.map_cons, nothing] at scanned
  rw [scanned, fine, ← lexeme]
  rfl

/-- Digits are one token. -/
theorem scan_digits (digits : AllDigits cs) (nonempty : cs ≠ []) :
    scan (cs.map byte) = ([(.integer, String.ofList cs)], []) := by
  obtain ⟨c, rest, rfl⟩ := List.exists_cons_of_ne_nil nonempty
  have all : ∀ b ∈ (c :: rest).map byte, isDigit b = true := by
    intro b member
    obtain ⟨d, there, rfl⟩ := List.mem_map.1 member
    exact isDigit_byte (digits d there)
  have whole : number ((c :: rest).map byte) = (.integer, rest.length + 1) := by
    have size : Piece.digits ((c :: rest).map byte) = rest.length + 1 := by
      rw [Piece.digits, List.takeWhile_eq_self_iff.2 all, List.length_map, List.length_cons]
    have none : ((c :: rest).map byte).drop (rest.length + 1) = [] := by
      rw [List.drop_eq_nil_iff]
      simp
    simp only [number, size, none, fraction, exponent, Nat.add_zero, if_true]
  exact scan_number (digits c List.mem_cons_self) (fun d there => ascii_of_isDigit (digits d there)) (.inl rfl) whole rfl

/-- A minus sign in front of a digit is a token of its own. -/
theorem scan_minus {b : UInt8} {rest : List UInt8} (digit : isDigit b = true) :
    scan (byte '-' :: b :: rest) = ((.minus, "-") :: (scan (b :: rest)).1, (scan (b :: rest)).2) := by
  have alone : pair? (byte '-') b = none := by
    have small : ∀ n < 58, 48 ≤ n → pair? (byte '-') (UInt8.ofNat n) = none := by decide
    simp only [isDigit, Bool.and_eq_true, decide_eq_true_eq, UInt8.le_iff_toNat_le] at digit
    have high : b.toNat ≤ 57 := digit.2
    have found := small b.toNat (by omega) digit.1
    rwa [UInt8.ofNat_toNat] at found
  have sign : mark (byte '-') (b :: rest) = (.minus, 0) := by
    rw [mark, List.head?_cons, Option.bind_some, alone]
    rfl
  have ahead : front (byte '-') ([] ++ b :: rest) = (.token .minus, 0) := by
    rw [List.nil_append, front_mark rfl (fun slash => absurd slash (by decide)) rfl rfl, sign]
  have lexeme : lexeme .minus [byte '-'] = "-" := by
    change String.ofList (Text.Utf8.decode [byte '-']) = "-"
    rw [decode_ascii (by decide), Text.Utf8.decode]
    rfl
  have scanned := scan_front ahead
  rw [List.nil_append] at scanned
  rw [scanned, ← lexeme]
  rfl

end Piece

/-! ## Trees of signed numbers -/

namespace Parser

variable {tokens : List Token} {c c' : Cursor} {n : Node}

/-- One statement and the end of the tokens are a program. -/
theorem parseTokens_statement (read : Reads (.goal .statement) ⟨tokens, none, []⟩ (.node n) c')
    (present : n.isAbsent = false) (ends : c'.kind = .endOfFile) :
    ∃ span, parseTokens tokens = (.tree span [n], []) := by
  have begins := read.statement_begins
  have inFront : (Cursor.mk tokens none []).pastSeparators = ⟨tokens, none, []⟩ := by
    refine Cursor.skipWhile_eq_self (Bool.eq_false_iff.2 fun separates => ?_)
    rw [isSeparator, Bool.or_eq_true, decide_eq_true_eq, decide_eq_true_eq] at separates
    rcases separates with is | is <;>
      · rw [is] at begins
        exact absurd begins (by decide)
  have behind : c'.pastSeparators = c' := Cursor.skipWhile_eq_self (by rw [ends]; rfl)
  refine ⟨_, parseTokens_eq_iff.2 ⟨c', [n], ?_, rfl⟩⟩
  rw [inFront]
  refine .statementsNext (by simpa using read.statement_ahead) read present ?_
  rw [behind]
  exact .statementsDone (by simp [ends])

/-- A literal up to the end of the tokens is an operand. -/
theorem reads_operand {power : Nat} (found : literal? c.next = some n) (present : n.isAbsent = false)
    (ends : c.advance.kind = .endOfFile) : Reads (.goal (.operand power)) c (.node n) c.advance := by
  refine .operand (.literal found) present (.tailDone ?_)
  simp [ends, Kind.power]

theorem reads_expression (read : Reads (.goal (.operand 0)) c (.node n) c') (present : n.isAbsent = false)
    (ends : c'.kind = .endOfFile) : Reads (.goal .expression) c (.node n) c' :=
  .expressionPlain read present (by rw [ends]; rfl)

/-- A variable with an initial value is a statement. -/
theorem reads_initialized (isWord : c.kind.isTypeWord = true) (isName : c.advance.kind = .identifier)
    (isAssign : c.advance.advance.kind = .assign)
    (value : Reads (.goal .expression) c.advance.advance.advance.pastNewlines (.node n) c')
    (present : n.isAbsent = false) :
    ∃ span type whole place, Reads (.goal .statement) c
      (.node (.variableDeclaration span {} c.advance.next.lexeme type
        (.assignment whole .assign (.identifier place .absent c.advance.next.lexeme) n))) c' := by
  have begins : beginsMember c.kind = true := by simp [beginsMember, isWord]
  have plain : c.kind.isModifier = false := by
    revert isWord
    cases c.kind <;> simp [Kind.isTypeWord, Kind.declaredType?, Kind.isModifier]
  have noModifiers : modifiersAhead c false = {} := by
    rw [modifiersAhead, Cursor.takeWhile_of_stopped plain]
    rfl
  have declaration := @Reads.variableInitial c c' c.next.span.first (modifiersAhead c false) n isWord isName
    isAssign value present
  have statement := @Reads.statementDeclaration c c' _ begins
    (by rw [Cursor.pastModifiers_eq_self plain]; exact declaration)
  rw [noModifiers] at statement
  exact ⟨_, _, _, _, statement⟩

section Programs

variable {t close : Token} (found : literal? t = some n) (ends : close.kind = .endOfFile)

include found

theorem literal_kind : leadsStatement t.kind = false ∧ t.kind ≠ .newline := by
  cases isLiteral_of_literal? found with
  | integer kind | double kind | yes kind | no kind | null kind | name kind =>
    rw [kind]
    exact ⟨rfl, by decide⟩

include ends

/-- A literal is a program. -/
theorem parseTokens_literal : ∃ span, parseTokens [t, close] = (.tree span [n], []) := by
  have present := present_of_literal? found
  exact @parseTokens_statement [t, close] _ n (.statementExpression (literal_kind found).1
    (reads_expression (reads_operand found present ends) present ends) present) present ends

/-- A literal behind a minus sign is a program. -/
theorem parseTokens_negated {minus : Token} (isMinus : minus.kind = .minus) :
    ∃ span place, parseTokens [minus, t, close] = (.tree span [negate place n], []) := by
  have present := present_of_literal? found
  have negated : signed minus n = negate (minus.span.cover n.span) n := by
    rw [signed, present, isMinus]
    rfl
  have presentNegated : (negate (minus.span.cover n.span) n).isAbsent = false := by
    cases n <;> rfl
  have inLine : (Cursor.mk [t, close] (some minus) []).pastNewlines = ⟨[t, close], some minus, []⟩ :=
    Cursor.pastNewlines_eq_self (literal_kind found).2
  -- The readings from the inside out: the literal, the sign in front of it, the operand of the statement.
  have operand : Reads (.goal (.operand signPower)) (Cursor.mk [t, close] (some minus) []) (.node n)
      ⟨[close], some t, []⟩ := reads_operand found present ends
  have atom : Reads .atom ⟨[minus, t, close], none, []⟩ (.node (signed minus n)) ⟨[close], some t, []⟩ :=
    .sign (by rw [Cursor.kind_of_rest_cons rfl, isMinus]; rfl) (by
      change Reads _ (Cursor.mk [t, close] (some minus) []).pastNewlines _ _
      rwa [inLine])
  rw [negated] at atom
  have whole : Reads (.goal (.operand 0)) ⟨[minus, t, close], none, []⟩
      (.node (negate (minus.span.cover n.span) n)) ⟨[close], some t, []⟩ :=
    .operand atom presentNegated (.tailDone (by rw [Cursor.kind_of_rest_cons rfl, ends]; decide))
  obtain ⟨span, parsed⟩ := parseTokens_statement (.statementExpression
    (by rw [Cursor.kind_of_rest_cons rfl, isMinus]; rfl) (reads_expression whole presentNegated ends)
    presentNegated) presentNegated ends
  exact ⟨span, _, parsed⟩

/-- A variable with a literal as its initial value is a program. -/
theorem parseTokens_initialized {word name assign : Token} (isWord : word.kind.isTypeWord = true)
    (isName : name.kind = .identifier) (isAssign : assign.kind = .assign) :
    ∃ span place type whole target, parseTokens [word, name, assign, t, close] =
      (.tree span [.variableDeclaration place {} name.lexeme type
        (.assignment whole .assign (.identifier target .absent name.lexeme) n)], []) := by
  have present := present_of_literal? found
  have inLine : (Cursor.mk [t, close] (some assign) []).pastNewlines = ⟨[t, close], some assign, []⟩ :=
    Cursor.pastNewlines_eq_self (literal_kind found).2
  have value : Reads (.goal .expression) (Cursor.mk [t, close] (some assign) []).pastNewlines (.node n)
      ⟨[close], some t, []⟩ := by
    rw [inLine]
    exact reads_expression (reads_operand found present ends) present ends
  obtain ⟨place, type, whole, target, read⟩ :=
    @reads_initialized ⟨[word, name, assign, t, close], none, []⟩ _ n isWord isName isAssign value present
  obtain ⟨span, parsed⟩ := parseTokens_statement read rfl ends
  exact ⟨span, place, type, whole, target, parsed⟩

end Programs

/-- A statement that begins with a number begins with a literal. -/
theorem Reads.statement_number (read : Reads (.goal .statement) c (.node n) c')
    (number : c.kind = .integer ∨ c.kind = .double) : ∃ n, literal? c.next = some n := by
  have ofAtom {y : Yield} {c' : Cursor} (read : Reads .atom c y c') : ∃ n, literal? c.next = some n := by
    cases read with
    | literal found => exact ⟨_, found⟩
    -- All other atoms have a first token of their own.
    | group ahead | sign ahead | stepNothing ahead | step ahead | instantiation ahead | nothing ahead =>
      rcases number with is | is <;>
        · rw [is] at ahead
          cases ahead
  have ofOperand {power : Nat} {n : Node} {c' : Cursor} (read : Reads (.goal (.operand power)) c (.node n) c') :
      ∃ n, literal? c.next = some n := by
    cases read with
    | operandNothing atom | operand atom _ _ => exact ofAtom atom
  cases read with
  | statementExpression _ expression _ =>
    cases expression with
    | expressionNothing operand | expressionPlain operand _ _ | expressionAssign operand _ _ _ =>
      exact ofOperand operand
  | statementDeclaration ahead | branchPlain ahead | branchElse ahead | branchElseIf ahead | whileLoop ahead
    | doWhileLoop ahead | forLoop ahead =>
    rcases number with is | is <;>
      · rw [is] at ahead
        cases ahead

end Parser

/-! ## Evaluating signed numbers -/

def Node.number? : Node → Option Value
  | .integer _ value => some (.integer value)
  | .double _ value => some (.double value)
  | _ => none

namespace Evaluator

open Eval Store

variable {policy : Policy} {budget : Nat} {scope : Scope} {m : Machine} {n : Node} {v : Value}

theorem isPlain_of_number (number : n.number? = some v) : v.isPlain = true := by
  cases n with
  | integer | double =>
    cases number
    rfl
  | _ => cases number

theorem present_of_number (number : n.number? = some v) : n.isAbsent = false := by
  cases n with
  | absent => cases number
  | _ => rfl

theorem eval_number (number : n.number? = some v) : eval policy (budget + 1) n scope m = .ok v m := by
  cases n with
  | integer | double =>
    cases number
    rfl
  | _ => cases number

theorem value_number (number : n.number? = some v) : value (eval policy (budget + 1)) n scope m = .ok v m :=
  value_eq_ok.2 ⟨v, eval_number number, plain_of_isPlain (isPlain_of_number number)⟩

/-- Declaring a variable with a number assigns the number to it. -/
theorem eval_initialized (sound : m.Sound) (here : scope ∈ m.store.scopes) {name : String}
    (free : (m.store.declared scope).has name = false) (number : n.number? = some v) (type : DeclaredType)
    (span whole place : Span) :
    ∃ m', eval policy (budget + 3) (.variableDeclaration span {} name type
        (.assignment whole .assign (.identifier place .absent name) n)) scope m = .ok v m' ∧
      m'.root = m.root ∧ m'.store.lookup scope name = .ok (.stored scope.table name) ∧
      m'.store.read (.stored scope.table name) = .ok v := by
  obtain ⟨-, -, held⟩ := sound.declare here free type
  have found (s : Store) (has : (s.table scope.table).has name = true) :
      s.lookup scope name = .ok (.stored scope.table name) := by
    have first : s.resolve? scope name = some (.stored scope.table name) := if_pos has
    rw [lookup, first]
  let declared := m.mapStore (·.modifyTable scope.table (·.add name type))
  -- The declaration leaves the variable empty, and the assignment inside it gives it the number.
  have yields : eval policy (budget + 3) (.variableDeclaration span {} name type
      (.assignment whole .assign (.identifier place .absent name) n)) scope m =
      .ok v (declared.mapStore (·.write (.stored scope.table name) v)) := by
    rw [eval, blaming_eq_ok, rule, variableDeclaration, bind_eq_ok]
    refine ⟨.stored scope.table name, declared, ?_, ?_⟩
    · rw [Eval.declare, if_neg (by simp [free])]
    rw [eval, blaming_eq_ok, rule, assignment_eq, bind_eq_ok]
    refine ⟨.stored scope.table name, declared, ?_, ?_⟩
    · exact target_eq_ok.2 ⟨rfl, eval_name_eq_ok.2 ⟨_, found _ held, rfl, rfl⟩⟩
    rw [bind_eq_ok]
    refine ⟨v, declared, ?_, rfl⟩
    rw [operandOf, present_of_number number]
    exact value_number number
  have kept : (declared.store.write (.stored scope.table name) v).read (.stored scope.table name) = .ok v :=
    read_write_self held (isPlain_of_number number)
  have still : ((declared.store.write (.stored scope.table name) v).table scope.table).has name = true := by
    rw [Store.write, table_modifyTable]
    split
    · rwa [Table.has_congr (Table.names_assign _ _ _)]
    · exact held
  exact ⟨_, yields, rfl, found _ still, kept⟩

/-- A minus sign in front of a variable subtracts its value from zero. -/
theorem eval_opposite {name : String} {slot : Slot} {w : Value} (found : m.store.lookup scope name = .ok slot)
    (read : m.store.read slot = .ok v) (plain : v.isPlain = true)
    (difference : Operation.apply .sub (.integer 0) v = .ok w) (span place : Span) :
    eval policy (budget + 3) (.binary span .sub (.integer span 0) (.usage place (.identifier place .absent name)))
      scope m = .ok w m := by
  have zero : value (eval policy (budget + 2)) (.integer span 0) scope m = .ok (.integer 0) m :=
    value_number rfl
  have operand : value (eval policy (budget + 2)) (.usage place (.identifier place .absent name)) scope m =
      .ok v m :=
    value_eq_ok.2 ⟨v, (eval_usage_eq_ok rfl).2 ⟨slot, eval_name_eq_ok.2 ⟨slot, found, rfl, rfl⟩, read⟩,
      plain_of_isPlain plain⟩
  rw [eval, blaming_eq_ok, rule, binary, bind_eq_ok]
  refine ⟨_, _, zero, ?_⟩
  have eager : (policy.shortCircuit && (decide (BinaryOp.sub = .and) || decide (BinaryOp.sub = .or))) = false := by
    simp
  rw [eager, if_neg Bool.false_ne_true, bind_eq_ok]
  refine ⟨_, _, operand, ?_⟩
  rw [difference]
  rfl

end Evaluator

namespace Interpreter

open Evaluator

variable {policy : Policy} {m m' : Machine} {n : Node} {v : Value}

/-- A program of one statement does what the statement does. -/
theorem evaluate_statement (yields : eval policy (budget - 1) n m.root m = .ok v m') (span : Span) :
    evaluate policy (.tree span [n]) m = (.value v, m') := by
  have done : statements (eval policy (budget - 1)) m.root .null [n] m = .ok v m' := by
    rw [statements, Eval.bind_apply, yields]
    rfl
  rw [evaluate_tree, Eval.blaming, done]
  rfl

/-- A token that is read as a number writes an integer or a double. -/
theorem number_of_literal {t : Token} (number : t.kind = .integer ∨ t.kind = .double)
    (found : Parser.literal? t = some n) :
    (t.kind = .integer ∧ n = .integer t.span (Number.readInteger t.lexeme).1) ∨
      (t.kind = .double ∧ n = .double t.span (Number.readDouble t.lexeme).1) := by
  cases Parser.isLiteral_of_literal? found with
  | integer kind => exact .inl ⟨kind, rfl⟩
  | double kind => exact .inr ⟨kind, rfl⟩
  | yes kind | no kind | null kind | name kind => simp [kind] at number

/-- A number that is accepted is a literal. -/
theorem literal_of_accepted {t close : Token} (number : t.kind = .integer ∨ t.kind = .double)
    (accepted : (parseTokens [t, close]).2 = []) : ∃ n, Parser.literal? t = some n := by
  obtain ⟨c', ns, read, -⟩ := parseTokens_eq_iff.1 (Prod.ext rfl accepted)
  have inFront : (Cursor.mk [t, close] none []).pastSeparators = ⟨[t, close], none, []⟩ :=
    Cursor.skipWhile_eq_self (by rcases number with is | is <;> simp [Cursor.kind, Cursor.next, is, Parser.isSeparator])
  rw [inFront] at read
  cases read with
  | statementsDone ends =>
    rcases number with is | is <;> simp [Cursor.kind, Cursor.next, is] at ends
  | statementsNext _ statement => exact statement.statement_number number

/-- A minus sign means the same in front of a number as in front of a variable with that number, unless the number
    is the double zero. -/
theorem negation_agrees {t close : Token} (number : t.kind = .integer ∨ t.kind = .double)
    (ends : close.kind = .endOfFile) (accepted : (parseTokens [t, close]).2 = [])
    {minus word name assign : Token} (isMinus : minus.kind = .minus) (isWord : word.kind.isTypeWord = true)
    (isName : name.kind = .identifier) (isAssign : assign.kind = .assign)
    {extra : List Builtin} {m : Machine} (reachable : Reachable extra m)
    (free : (globals m).has name.lexeme = false) (policy : Policy) :
    let direct := parseTokens [minus, t, close]
    let declaration := parseTokens [word, name, assign, t, close]
    let indirect := parseTokens [minus, name, close]
    direct.2 = [] ∧ declaration.2 = [] ∧ indirect.2 = [] ∧
      ∃ v w, (evaluate policy direct.1 m).1 = .value v ∧
        (evaluate policy indirect.1 (evaluate policy declaration.1 m).2).1 = .value w ∧
        (v = w ↔ ¬ (t.kind = .double ∧ (Number.readDouble t.lexeme).1 = 0)) := by
  obtain ⟨n, found⟩ := literal_of_accepted number accepted
  obtain ⟨span₁, place₁, direct⟩ := Parser.parseTokens_negated found ends isMinus
  obtain ⟨span₂, place₂, type, whole, target, declaration⟩ :=
    Parser.parseTokens_initialized found ends isWord isName isAssign
  have isPlainName : Parser.literal? name = some (Parser.plainName name) := by
    simp only [Parser.literal?, isName]
  obtain ⟨span₃, place₃, indirect⟩ := Parser.parseTokens_negated isPlainName ends isMinus
  rw [direct, declaration, indirect]
  refine ⟨rfl, rfl, rfl, ?_⟩
  have sound := reachable.sound
  -- All three programs run, whatever the number; only the comparison of their values depends on it.
  have runs {x v w : Value} (literal : n.number? = some x) (negated : (Parser.negate place₁ n).number? = some v)
      (difference : Operation.apply .sub (.integer 0) x = .ok w) :
      (evaluate policy (.tree span₁ [Parser.negate place₁ n]) m).1 = .value v ∧
        (evaluate policy (.tree span₃ [Parser.negate place₃ (Parser.plainName name)])
          (evaluate policy (.tree span₂ [.variableDeclaration place₂ {} name.lexeme type
            (.assignment whole .assign (.identifier target .absent name.lexeme) n)]) m).2).1 = .value w := by
    have deep : budget - 1 = (budget - 4) + 3 := rfl
    obtain ⟨m₁, declared, root, lookup, read⟩ := @eval_initialized policy (budget - 4) m.root m n x sound
      sound.rooted.1 name.lexeme free literal type place₂ whole target
    have opposite := @eval_opposite policy (budget - 4) m.root m₁ x name.lexeme _ w lookup read
      (isPlain_of_number literal) difference place₃ name.span
    rw [← deep] at declared opposite
    rw [← root] at opposite
    have negatedYields : eval policy (budget - 1) (Parser.negate place₁ n) m.root m = .ok v m := by
      rw [deep]
      exact eval_number negated
    rw [evaluate_statement negatedYields, evaluate_statement declared]
    exact ⟨rfl, congrArg Prod.fst (evaluate_statement opposite span₃)⟩
  -- Integers wrap in the same way on both sides, and of the doubles only zero keeps its sign from a difference.
  rcases number_of_literal number found with ⟨kind, rfl⟩ | ⟨kind, rfl⟩
  · refine ⟨_, _, (runs rfl rfl rfl).1, (runs rfl rfl rfl).2, ?_⟩
    simp [kind, Int64.zero_sub]
  · refine ⟨_, _, (runs rfl rfl rfl).1, (runs rfl rfl rfl).2, ?_⟩
    rw [Value.double.injEq, and_iff_right kind, eq_comm]
    exact Number.zero_sub_eq_neg_iff _

def halfToken : Token := ⟨.double, "0.5", .none⟩

theorem negation_agrees_halfToken :
    let direct := parseTokens [.mark .minus, halfToken, .ending]
    let declaration := parseTokens [.mark .varWord, .name "x", .mark .assign, halfToken, .ending]
    let indirect := parseTokens [.mark .minus, .name "x", .ending]
    (parseTokens [halfToken, .ending]).2 = [] ∧ (globals (start [])).has "x" = false ∧
      ∃ v, (evaluate {} direct.1 (start [])).1 = .value v ∧
        (evaluate {} indirect.1 (evaluate {} declaration.1 (start [])).2).1 = .value v := by
  intro direct declaration indirect
  have accepted : (parseTokens [halfToken, .ending]).2 = [] := by decide +kernel
  have free : (globals (start [])).has "x" = false := by decide +kernel
  obtain ⟨-, -, -, v, w, first, second, same⟩ := @negation_agrees halfToken .ending (.inr rfl) rfl accepted
    (.mark .minus) (.mark .varWord) (.name "x") (.mark .assign) rfl rfl rfl rfl [] _ .start free {}
  obtain rfl : v = w := same.2 fun zero => absurd (congrArg Float.toBits zero.2) (by decide +kernel)
  exact ⟨accepted, free, v, first, second⟩

/-- The sign of a zero is lost on the way through a variable. -/
theorem negation_of_zero :
    let m := (evaluate {} (parseSource "var x = 0.0".toUTF8.data.toList).1 (start [])).2
    (evaluate {} (parseSource "-0.0".toUTF8.data.toList).1 m).1.text? = some "-0.0" ∧
      (evaluate {} (parseSource "-x".toUTF8.data.toList).1 m).1.text? = some "0.0" := by
  decide +kernel

/-! ## Printed integers -/

def printed (v : Value) : List UInt8 := v.text.toUTF8.data.toList

/-- The digits of a number are one token. -/
theorem scan_repr (n : Nat) :
    n.repr.toUTF8.data.toList = (Nat.toDigits 10 n).map byte ∧
      Piece.scan ((Nat.toDigits 10 n).map byte) = ([(.integer, toString n)], []) := by
  have digits := Number.allDigits_toDigits n
  have text : n.repr = String.ofList (Nat.toDigits 10 n) :=
    String.toList_inj.1 (by rw [Nat.toList_repr, String.toList_ofList])
  rw [Nat.toString_eq_repr, text, Piece.toUTF8_ofList,
    Piece.encode_ascii fun d there => Piece.ascii_of_isDigit (digits d there)]
  exact ⟨rfl, Piece.scan_digits digits Nat.toDigits_ne_nil⟩

/-- A printed integer is its size behind a minus sign, if it is negative. -/
theorem scan_printed (v : Int64) : Piece.scan (printed (.integer v)) =
    ((if v.toInt < 0 then [(.minus, "-")] else []) ++ [(.integer, toString v.toInt.natAbs)], []) := by
  have text : (Value.integer v).text = v.toInt.repr := rfl
  rw [printed, text]
  cases v.toInt with
  | ofNat n =>
    obtain ⟨bytes, scanned⟩ := scan_repr n
    rw [Int.repr, bytes, scanned, if_neg (show ¬ Int.ofNat n < 0 by simp)]
    rfl
  | negSucc n =>
    obtain ⟨bytes, scanned⟩ := scan_repr (n + 1)
    have behind : ("-" ++ (n + 1).repr).toUTF8.data.toList = byte '-' :: (Nat.toDigits 10 (n + 1)).map byte := by
      have sign : "-".toByteArray.data.toList = [byte '-'] := by decide
      rw [← bytes]
      simp [String.toUTF8, sign]
    obtain ⟨c, rest, is⟩ := List.exists_cons_of_ne_nil (Nat.toDigits_ne_nil : Nat.toDigits 10 (n + 1) ≠ [])
    have digit : Piece.isDigit (byte c) = true :=
      Piece.isDigit_byte (Number.allDigits_toDigits (n + 1) c (by simp [is]))
    rw [is, List.map_cons] at behind scanned
    rw [Int.repr, behind, Piece.scan_minus digit, scanned, if_pos (Int.negSucc_lt_zero n)]
    rfl

/-- The tokens of a source that is scanned as a number, behind a minus sign or not. -/
theorem tokenize_signed {source : List UInt8} {negative : Prop} [Decidable negative] {kind : Kind} {lexeme : String}
    (scanned : Piece.scan source = ((if negative then [(.minus, "-")] else []) ++ [(kind, lexeme)], [])) :
    ∃ sign t close, tokenize source = ((if negative then [sign] else []) ++ [t, close], []) ∧
      sign.kind = .minus ∧ t.kind = kind ∧ t.lexeme = lexeme ∧ close.kind = .endOfFile := by
  have plain := plain_tokenize source
  have clean := (clean_iff_scan _).2 (congrArg Prod.snd scanned)
  rw [scanned, List.append_assoc, List.map_eq_append_iff] at plain
  obtain ⟨front, number, tokens, signs, plain⟩ := plain
  simp only [List.cons_append, List.nil_append, List.map_eq_cons_iff, List.map_eq_nil_iff] at plain
  obtain ⟨t, _, rfl, isNumber, close, _, rfl, isEnd, rfl⟩ := plain
  obtain ⟨kind, lexeme⟩ := Prod.mk.inj isNumber
  have ends : close.kind = .endOfFile := congrArg Prod.fst isEnd
  obtain ⟨sign, is, minus⟩ : ∃ sign : Token, front = (if negative then [sign] else []) ∧ sign.kind = .minus := by
    by_cases holds : negative
    · simp only [holds, if_true, List.map_eq_cons_iff, List.map_eq_nil_iff] at signs
      obtain ⟨sign, _, rfl, isSign, rfl⟩ := signs
      exact ⟨sign, (if_pos holds).symm, congrArg Prod.fst isSign⟩
    · rw [if_neg holds, List.map_eq_nil_iff] at signs
      exact ⟨.mark .minus, signs.trans (if_neg holds).symm, rfl⟩
  exact ⟨sign, t, close, Prod.ext (tokens.trans (by rw [is])) clean, minus, kind, lexeme, ends⟩

/-- A printed integer other than the least one is a literal. -/
theorem parseSource_printed {v : Int64} (other : v ≠ Int64.minValue) :
    ∃ span place, parseSource (printed (.integer v)) = (.tree span [.integer place v], []) := by
  have below := v.toInt_lt
  have above : -2 ^ 63 < v.toInt := lt_of_le_of_ne v.le_toInt fun least =>
    other (Int64.toInt_inj.1 (least.symm.trans Int64.toInt_minValue.symm))
  obtain ⟨sign, t, close, tokens, isMinus, kind, lexeme, ends⟩ := tokenize_signed (scan_printed v)
  have found : Parser.literal? t = some (.integer t.span (Int64.ofInt v.toInt.natAbs)) := by
    simp only [Parser.literal?, kind, lexeme, Number.readInteger_toString (show v.toInt.natAbs < 2 ^ 63 by omega),
      if_true]
  simp only [parseSource, tokens, List.nil_append]
  by_cases negative : v.toInt < 0
  · obtain ⟨span, place, parsed⟩ := Parser.parseTokens_negated found ends isMinus
    have value : -Int64.ofInt v.toInt.natAbs = v := by
      rw [← Int64.ofInt_neg, show -(v.toInt.natAbs : Int) = v.toInt by omega, Int64.ofInt_toInt]
    rw [Parser.negate, value] at parsed
    rw [if_pos negative, List.singleton_append, parsed]
    exact ⟨span, place, rfl⟩
  · obtain ⟨span, parsed⟩ := Parser.parseTokens_literal found ends
    rw [show (v.toInt.natAbs : Int) = v.toInt by omega, Int64.ofInt_toInt] at parsed
    rw [if_neg negative, List.nil_append, parsed]
    exact ⟨span, t.span, rfl⟩

/-- A printed integer is a program that yields the integer, unless it is the least one: the literal behind its sign
    is out of range. -/
theorem evaluate_printed (v : Int64) :
    ((parseSource (printed (.integer v))).2 = [] ↔ v ≠ Int64.minValue) ∧
      (v ≠ Int64.minValue → (∃ span place, (parseSource (printed (.integer v))).1 = .tree span [.integer place v]) ∧
        ∀ policy m, evaluate policy (parseSource (printed (.integer v))).1 m = (.value (.integer v), m)) := by
  by_cases least : v = Int64.minValue
  · subst least
    have complains : (parseSource (printed (.integer Int64.minValue))).2 ≠ [] := by decide +kernel
    exact ⟨iff_of_false complains (fun other => other rfl), fun other => absurd rfl other⟩
  · obtain ⟨span, place, parsed⟩ := parseSource_printed least
    rw [parsed]
    refine ⟨iff_of_true rfl least, fun _ => ⟨⟨span, place, rfl⟩, fun policy m => ?_⟩⟩
    exact evaluate_statement (n := .integer place v) rfl span

theorem evaluate_printed_negative :
    (-42 : Int64) ≠ Int64.minValue ∧ printed (.integer (-42)) = "-42".toUTF8.data.toList ∧
      (parseSource (printed (.integer (-42)))).2 = [] ∧
      ∀ policy m, evaluate policy (parseSource (printed (.integer (-42)))).1 m = (.value (.integer (-42)), m) := by
  have other : (-42 : Int64) ≠ Int64.minValue := by decide
  obtain ⟨accepted, yields⟩ := evaluate_printed (-42)
  exact ⟨other, by decide +kernel, accepted.2 other, (yields other).2⟩

theorem printed_minValue :
    printed (.integer Int64.minValue) = "-9223372036854775808".toUTF8.data.toList ∧
      (parseSource (printed (.integer Int64.minValue))).2 ≠ [] := by
  decide +kernel

end Interpreter

end ClassScript
