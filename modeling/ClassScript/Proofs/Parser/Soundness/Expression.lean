import ClassScript.Proofs.Parser.Grammar

/-! # Every run ends, and a clean one reads its phrase

One lemma for each function of the parser says three things at once: the function gives an answer if
it is granted recursion for the tokens ahead, it only moves on, and if it has nothing to complain
about then what it did is a reading in the sense of `Reads`.

The recursion is granted by `Below rec n`: below `n` tokens every goal of the grammar may be parsed.
A function that takes a token before it recurs needs no more than that.  The three goals that recur
without taking a token do so to a smaller goal at the same place, which `Goal.rank` counts; so a depth
of four for each token is enough (`parse_ends`).
-/

namespace ClassScript

/-- A run from `c` to `c'` that moves on, and that is an `R` if it has no complaint. -/
structure Cursor.Ran (c c' : Cursor) (R : Prop) : Prop where
  moves : c.Moves c'
  clean : c'.diagnostics = c.diagnostics → R

namespace Cursor.Ran

variable {c c₁ c₂ : Cursor} {R R₁ R₂ : Prop}

theorem rfl (holds : R) : Ran c c R := ⟨.refl c, fun _ => holds⟩

theorem mono (ran : Ran c c₁ R₁) (weaker : R₁ → R) : Ran c c₁ R :=
  ⟨ran.moves, fun clean => weaker (ran.clean clean)⟩

/-- Two runs in a row. -/
theorem seq (first : Ran c c₁ R₁) (second : Ran c₁ c₂ R₂) : Ran c c₂ (R₁ ∧ R₂) :=
  ⟨first.moves.trans second.moves, fun clean =>
    ⟨first.clean (first.moves.clean_left second.moves clean),
      second.clean (first.moves.clean_right second.moves clean)⟩⟩

/-- A run that has complained is not clean, so that nothing is claimed of it. -/
theorem complained (first : Ran c c₁ R₁) {complaint : Complaint} {span : Span}
    (moves : (c₁.complain complaint span).Moves c₂) : Ran c c₂ R := by
  have second := (c₁.moves_complain complaint span).trans moves
  refine ⟨first.moves.trans second, fun clean => ?_⟩
  exact absurd (first.moves.clean_right second clean) moves.not_clean

theorem length_le (ran : Ran c c₁ R) : c₁.rest.length ≤ c.rest.length := ran.moves.length_le

/-! Steps that cannot complain may be put in front of a run and behind it. -/

theorem advance (second : Ran c.advance c₁ R) : Ran c c₁ R :=
  ⟨c.moves_advance.trans second.moves, fun clean => second.clean (by simpa using clean)⟩

/-- A run that takes a token first. -/
theorem progress (second : Ran c.advance c₁ R) (taken : c.advance.rest.length < c.rest.length) :
    Ran c c₁ R ∧ c₁.rest.length < c.rest.length :=
  ⟨second.advance, Nat.lt_of_le_of_lt second.length_le taken⟩

theorem pastNewlines (second : Ran c.pastNewlines c₁ R) : Ran c c₁ R :=
  ⟨c.moves_pastNewlines.trans second.moves, fun clean => second.clean clean⟩

theorem pastSeparators (second : Ran c.pastSeparators c₁ R) : Ran c c₁ R :=
  ⟨c.moves_pastSeparators.trans second.moves, fun clean => second.clean clean⟩

theorem pastModifiers (second : Ran c.pastModifiers c₁ R) : Ran c c₁ R :=
  ⟨c.moves_pastModifiers.trans second.moves, fun clean => second.clean clean⟩

theorem thenAdvance (first : Ran c c₁ R) : Ran c c₁.advance R :=
  ⟨first.moves.trans c₁.moves_advance, fun clean => first.clean (by simpa using clean)⟩

theorem thenPastNewlines (first : Ran c c₁ R) : Ran c c₁.pastNewlines R :=
  ⟨first.moves.trans c₁.moves_pastNewlines, fun clean => first.clean clean⟩

end Cursor.Ran

def Goal.rank : Goal → Nat
  | .statement | .member => 3
  | .expression => 2
  | .operand _ => 1

def Goal.Advances : Goal → Cursor → Node → Cursor → Prop
  | .statement, c, _, c' => c.kind ≠ .endOfFile → c'.rest.length < c.rest.length
  | .member, c, _, c' => Parser.beginsMember c.kind = true → c'.rest.length < c.rest.length
  | .expression, c, n, c' | .operand _, c, n, c' =>
    n.isAbsent = false → c'.rest.length < c.rest.length

namespace Parser

open Cursor (Ran Moves)

structure Reading (goal : Goal) (c : Cursor) (n : Node) (c' : Cursor) : Prop where
  ran : Ran c c' (Reads (.goal goal) c (.node n) c')
  advances : goal.Advances c n c'

/-- With fewer than `n` tokens ahead every goal may be parsed. -/
def Below (rec : Goal → Parser Node) (n : Nat) : Prop :=
  ∀ goal c, c.rest.length < n → Ends (rec goal) c (Reading goal c)

section Rules

variable {rec : Goal → Parser Node} {n : Nat} {c : Cursor}

/-- A token that is required after a run is either there and taken, or the run is not clean. -/
theorem require_ends {c₁ : Cursor} {R : Prop} (first : Ran c c₁ R) {kind : Kind}
    {Q : Unit → Cursor → Prop}
    (holds : ∀ c', Ran c c' (R ∧ c₁.kind = kind ∧ c' = c₁.advance) →
      c'.rest.length ≤ c₁.rest.length → Q () c') :
    Ends (require kind) c₁ Q := by
  simp only [ends_require]
  split
  next found =>
    exact holds _ (first.thenAdvance.mono fun read => ⟨read, found, rfl⟩) c₁.moves_advance.length_le
  next => exact holds _ (first.complained (.refl _)) (Nat.le_refl _)

/-! ## Arguments -/

@[simp] theorem ends_orNull {Q : Node → Cursor → Prop} (found : Node)
    (complaint : Token → Complaint) :
    Ends (orNull found complaint) c Q ↔
      if found.isAbsent then Q (.null c.next.span) (c.complain (complaint c.next) c.next.span)
      else Q found c := by
  unfold orNull
  split <;> simp

theorem argument_ends (below : Below rec n) (short : c.rest.length < n) :
    Ends (argument rec) c fun node c' =>
      Ran c c' (node.isAbsent = false ∧ Reads (.goal .expression) c (.node node) c') := by
  simp only [argument, ends_bind, ends_orNull]
  refine (below .expression c short).mono fun found c₁ reading => ?_
  split
  · exact reading.ran.complained (.refl _)
  next present => exact reading.ran.mono fun read => ⟨by simpa using present, read⟩

theorem moreArguments_ends (below : Below rec n) (args : List Node) (short : c.rest.length < n) :
    Ends (loop (· = .comma) (fun args => do
        let _ ← advance
        skipNewlines
        return args ++ [← argument rec]) args) c fun all c' =>
      Ran c c' (∃ more, all = args ++ more ∧ Reads .moreArguments c (.nodes more) c') := by
  refine ends_loop (fun args c all c' =>
    Ran c c' (∃ more, all = args ++ more ∧ Reads .moreArguments c (.nodes more) c')) (n - 1)
    ?_ ?_ args c (by omega)
  · intro args c stop
    exact .rfl ⟨[], by simp, .argumentsDone (by simpa using stop)⟩
  · intro args c within comma
    simp only [decide_eq_true_eq] at comma
    have taken : c.advance.rest.length < c.rest.length := Cursor.advance_lt (by simp [comma])
    have passed := c.advance.moves_pastNewlines.length_le
    simp only [ends_bind, ends_advance, ends_skipNewlines, ends_pure]
    refine (argument_ends below (by omega)).mono fun arg c₁ first => ?_
    have later := first.length_le
    refine ⟨by omega, fun all c₂ rest => ((first.seq rest).mono ?_).pastNewlines.advance⟩
    rintro ⟨⟨present, read⟩, more, rfl, readMore⟩
    exact ⟨arg :: more, by simp, .argumentsNext comma read present readMore⟩

theorem arguments_ends (below : Below rec n) (short : c.rest.length ≤ n) :
    Ends (arguments rec) c fun args c' =>
      Ran c c' (Reads .arguments c (.nodes args) c') ∧
        (c.kind = .leftParen → c'.rest.length < c.rest.length) := by
  simp only [arguments, ends_bind, ends_expect]
  split
  next opened =>
    have taken : c.advance.rest.length < c.rest.length := Cursor.advance_lt (by simp [opened])
    have passed := c.advance.moves_pastNewlines.length_le
    simp only [Bool.not_true, Bool.false_eq_true, ↓reduceIte, ends_bind, ends_skipNewlines,
      ends_peekKind]
    split
    next closed =>
      simp only [ends_bind, ends_pure, ends_skipNewlines, Cursor.pastNewlines_pastNewlines,
        ends_require, closed, ↓reduceIte]
      have last := c.advance.pastNewlines.moves_advance.length_le
      exact ⟨(Ran.rfl (.argumentsNone opened closed)).advance.pastNewlines.advance, fun _ => by omega⟩
    next notClosed =>
      simp only [ends_bind, ends_skipNewlines, ends_pure]
      refine (argument_ends below (by omega)).mono fun arg c₁ first => ?_
      have later := first.length_le
      refine (moreArguments_ends below [arg] (by omega)).mono fun args c₂ rest => ?_
      have latest := rest.length_le
      have passedLast := c₂.moves_pastNewlines.length_le
      refine require_ends (first.seq rest).thenPastNewlines fun c' ran shorter => ?_
      refine ⟨(ran.mono ?_).pastNewlines.advance, fun _ => by omega⟩
      rintro ⟨⟨⟨present, read⟩, more, rfl, readMore⟩, closed, rfl⟩
      exact .argumentsSome opened notClosed read present readMore closed
  next notOpened =>
    simp only [Bool.not_false, ↓reduceIte, ends_pure]
    exact ⟨(Ran.rfl trivial).complained (.refl _), fun opened => absurd opened notOpened⟩

/-! ## Operands -/

theorem memberRead_ends (left : Node) (ahead : c.kind ≠ .endOfFile) :
    Ends (memberRead left) c fun node c' =>
      Ran c c' (c.advance.pastNewlines.kind = .identifier ∧
        node = memberOf left c.advance.pastNewlines.next ∧
        c' = c.advance.pastNewlines.advance) ∧
      c'.rest.length < c.rest.length := by
  have taken := Cursor.advance_lt ahead
  simp only [memberRead, ends_bind, ends_advance, ends_skipNewlines, ends_expect, ends_pure]
  split
  next found => exact (Ran.rfl (by simp [memberOf, found])).advance.pastNewlines.progress taken
  next => exact ((Ran.rfl trivial).complained (.refl _)).pastNewlines.progress taken

theorem assignTarget_ends (left : Node) (operator : Token) :
    Ends (assignTarget left operator) c fun target c' =>
      Ran c c' (∃ span, left = .usage span target ∧ c' = c) ∧ c'.rest = c.rest := by
  unfold assignTarget
  split
  next span target => exact (ends_pure _).2 ⟨.rfl ⟨span, rfl, rfl⟩, rfl⟩
  next =>
    simp only [ends_bind, ends_complain, ends_pure]
    exact ⟨(Ran.rfl trivial).complained (.refl _), rfl⟩

theorem callOf_ends (below : Below rec n) (short : c.rest.length ≤ n) (callee : Node) :
    Ends (callOf rec callee) c fun node c' =>
      Ran c c' (∃ args, Reads .arguments c (.nodes args) c' ∧
        node = .call ⟨callee.span.first, c'.lastEnd⟩ (calleeOf callee) args) ∧
      (c.kind = .leftParen → c'.rest.length < c.rest.length) := by
  simp only [callOf, ends_bind, ends_get, ends_pure]
  refine (arguments_ends below short).mono ?_
  rintro args c' ⟨ran, shorter⟩
  refine ⟨ran.mono fun read => ⟨args, read, ?_⟩, shorter⟩
  cases callee <;> rfl

theorem binaryWith_ends (below : Below rec n) (short : c.rest.length ≤ n)
    (ahead : c.kind ≠ .endOfFile) (left : Node) (op : BinaryOp) :
    Ends (binaryWith rec left c.next op) c fun node c' =>
      Ran c c' (∃ right,
        Reads (.goal (.operand (if c.kind = .caret then c.kind.power - 1 else c.kind.power)))
          c.advance.pastNewlines (.node right) c' ∧
        right.isAbsent = false ∧ node = .binary (left.span.cover right.span) op left right) ∧
      c'.rest.length < c.rest.length := by
  have taken := Cursor.advance_lt ahead
  have passed := c.advance.moves_pastNewlines.length_le
  simp only [binaryWith, ends_bind, ends_advance, ends_skipNewlines, ends_orNull, ends_pure]
  refine (below _ _ (by omega)).mono fun right c₁ reading => ?_
  split
  next => exact (reading.ran.complained (.refl _)).pastNewlines.progress taken
  next present =>
    refine (reading.ran.mono fun read => ?_).pastNewlines.progress taken
    exact ⟨right, read, by simpa using present, rfl⟩

theorem stepBehind_ends {power : Nat} (binds : power < c.kind.power) (ahead : isStep c.kind = true)
    (left : Node) :
    Ends (do
        let _ ← advance
        return Node.assignment (left.span.cover c.next.span) (assignOp c.next)
          (← assignTarget left c.next) .absent) c fun middle c₁ => c₁.rest.length < c.rest.length ∧
      ∀ node c₂, Ran c₁ c₂ (Reads (.tail power middle) c₁ (.node node) c₂) →
        Ran c c₂ (Reads (.tail power left) c (.node node) c₂) := by
  have taken : c.advance.rest.length < c.rest.length := by
    apply Cursor.advance_lt
    intro atEnd
    simp [atEnd, isStep] at ahead
  simp only [ends_bind, ends_advance, ends_pure]
  refine (assignTarget_ends left c.next).mono ?_
  rintro target c₁ ⟨ran, same⟩
  refine ⟨by rw [same]; exact taken, fun node c₂ rest => ?_⟩
  refine ((ran.seq rest).mono ?_).advance
  rintro ⟨⟨span, rfl, rfl⟩, read⟩
  exact .tailStep binds ahead read

/-- What binds and is neither a step, a call nor a member read is an operator. -/
theorem binaryOp?_ne_none_of_power {kind : Kind} (binds : 0 < kind.power)
    (notIncrement : kind ≠ .increment) (notDecrement : kind ≠ .decrement)
    (notOpened : kind ≠ .leftParen) (notPoint : kind ≠ .dot) : kind.binaryOp? ≠ none := by
  cases kind <;> simp_all [Kind.power, Kind.binaryOp?]

theorem extend_ends (below : Below rec n) (short : c.rest.length ≤ n) {power : Nat}
    (binds : power < c.kind.power) (left : Node) :
    Ends (extend rec left) c fun middle c₁ => c₁.rest.length < c.rest.length ∧
      ∀ node c₂, Ran c₁ c₂ (Reads (.tail power middle) c₁ (.node node) c₂) →
        Ran c c₂ (Reads (.tail power left) c (.node node) c₂) := by
  have ahead : c.kind ≠ .endOfFile := by
    intro atEnd
    simp [atEnd, Kind.power] at binds
  -- Every case makes a longer left side, and the rest of the tail is read from there.
  simp only [extend, ends_bind, ends_peek]
  split
  next step => exact stepBehind_ends binds (by simp [isStep, Cursor.kind, step]) left
  next step => exact stepBehind_ends binds (by simp [isStep, Cursor.kind, step]) left
  next opened =>
    refine (callOf_ends below short left).mono ?_
    rintro middle c₁ ⟨ran, shorter⟩
    refine ⟨shorter opened, fun node c₂ rest => ?_⟩
    refine (ran.seq rest).mono ?_
    rintro ⟨⟨args, readArgs, rfl⟩, read⟩
    exact .tailCall binds opened readArgs read
  next point =>
    refine (memberRead_ends left ahead).mono ?_
    rintro middle c₁ ⟨ran, shorter⟩
    refine ⟨shorter, fun node c₂ rest => ?_⟩
    refine (ran.seq rest).mono ?_
    rintro ⟨⟨named, rfl, rfl⟩, read⟩
    exact .tailMember binds point named read
  next kind notIncrement notDecrement notOpened notPoint =>
    split
    next op found =>
      refine (binaryWith_ends below short ahead left op).mono ?_
      rintro middle c₁ ⟨ran, shorter⟩
      refine ⟨shorter, fun node c₂ rest => ?_⟩
      refine (ran.seq rest).mono ?_
      rintro ⟨⟨right, readRight, present, rfl⟩, read⟩
      exact .tailBinary binds found readRight present read
    next none =>
      -- The kinds that bind and are no binary operators are those of the cases above.
      exact absurd none (binaryOp?_ne_none_of_power (Nat.zero_lt_of_lt binds) notIncrement
        notDecrement notOpened notPoint)

theorem tail_ends (below : Below rec n) (short : c.rest.length ≤ n) (power : Nat) (left : Node) :
    Ends (loop (fun kind => power < kind.power) (extend rec) left) c fun node c' =>
      Ran c c' (Reads (.tail power left) c (.node node) c') := by
  refine ends_loop (fun left c node c' => Ran c c' (Reads (.tail power left) c (.node node) c')) n
    ?_ ?_ left c short
  · intro left c stop
    exact .rfl (.tailDone (by simpa using stop))
  · intro left c within binds
    exact extend_ends below within (by simpa using binds) left

theorem dotted_ends (left : Node) :
    Ends (loop (· = .dot) memberRead left) c fun node c' =>
      Ran c c' (Reads (.dotted left) c (.node node) c') := by
  refine ends_loop (fun left c node c' => Ran c c' (Reads (.dotted left) c (.node node) c'))
    c.rest.length ?_ ?_ left c (Nat.le_refl _)
  · intro left c stop
    exact .rfl (.dottedDone (by simpa using stop))
  · intro left c _ point
    simp only [decide_eq_true_eq] at point
    refine (memberRead_ends left (by simp [point])).mono fun middle c₁ ⟨ran, shorter⟩ =>
      ⟨shorter, ?_⟩
    intro node c₂ rest
    refine (ran.seq rest).mono ?_
    rintro ⟨⟨named, rfl, rfl⟩, read⟩
    exact .dottedNext point named read

theorem instantiation_ends (below : Below rec n) (short : c.rest.length ≤ n)
    (ahead : c.kind = .newWord) :
    Ends (instantiation rec) c fun node c' =>
      Ran c c' (Reads .atom c (.node node) c') ∧ c'.rest.length < c.rest.length := by
  have taken : c.advance.rest.length < c.rest.length := Cursor.advance_lt (by simp [ahead])
  have named := c.advance.moves_advance.length_le
  simp only [instantiation, ends_bind, ends_advance, ends_expect]
  split
  next found =>
    simp only [Bool.not_true, Bool.false_eq_true, ↓reduceIte, ends_bind, ends_spanFrom, ends_pure]
    refine (dotted_ends _).mono fun blueprint c₁ first => ?_
    have later := first.length_le
    refine (arguments_ends below (by omega)).mono ?_
    rintro args c' ⟨rest, _⟩
    refine ((first.seq rest).mono ?_).advance.progress taken
    rintro ⟨readName, readArgs⟩
    exact .instantiation ahead found readName readArgs
  next =>
    simp only [Bool.not_false, ↓reduceIte, ends_bind, ends_spanFrom, ends_pure]
    exact ((Ran.rfl trivial).complained (.refl _)).progress taken

/-- A token that is an operand of its own. -/
theorem literal_ends {node : Node} (ahead : c.kind ≠ .endOfFile)
    (literal : literal? c.next = some node) :
    Ends (do
        let _ ← advance
        return node) c fun node c' =>
      Ran c c' (Reads .atom c (.node node) c') ∧
        (node.isAbsent = false → c'.rest.length < c.rest.length) := by
  simp only [ends_bind, ends_advance, ends_pure]
  exact ⟨(Ran.rfl (.literal literal)).advance, fun _ => Cursor.advance_lt ahead⟩

/-- A number, which may be out of range. -/
theorem number_ends {node : Node} {fits : Bool} {complaint : Complaint} {span : Span}
    (ahead : c.kind ≠ .endOfFile) (literal : fits = true → literal? c.next = some node) :
    Ends (do
        let _ ← advance
        if !fits then complain complaint span
        return node) c fun node c' =>
      Ran c c' (Reads .atom c (.node node) c') ∧
        (node.isAbsent = false → c'.rest.length < c.rest.length) := by
  cases fits with
  | false =>
    simp only [Bool.not_false, ↓reduceIte, ends_bind, ends_advance, ends_complain, ends_pure]
    exact ⟨((Ran.rfl trivial).complained (.refl _)).advance, fun _ => Cursor.advance_lt ahead⟩
  | true => exact literal_ends ahead (literal rfl)

theorem group_ends (below : Below rec n) (short : c.rest.length ≤ n) (opened : c.kind = .leftParen) :
    Ends (do
        let _ ← advance
        skipNewlines
        let inner ← rec .expression
        skipNewlines
        require .rightParen
        return inner) c fun node c' =>
      Ran c c' (Reads .atom c (.node node) c') ∧
        (node.isAbsent = false → c'.rest.length < c.rest.length) := by
  have taken : c.advance.rest.length < c.rest.length := Cursor.advance_lt (by simp [opened])
  have passed := c.advance.moves_pastNewlines.length_le
  simp only [ends_bind, ends_advance, ends_skipNewlines, ends_pure]
  refine (below .expression _ (by omega)).mono fun inner c₁ reading => ?_
  have later := reading.ran.length_le
  have passedLast := c₁.moves_pastNewlines.length_le
  refine require_ends reading.ran.thenPastNewlines fun c' ran shorter => ?_
  refine ⟨(ran.mono ?_).pastNewlines.advance, fun _ => by omega⟩
  rintro ⟨read, closed, rfl⟩
  exact .group opened read closed

theorem stepFront_ends (below : Below rec n) (short : c.rest.length ≤ n)
    (ahead : isStep c.kind = true) :
    Ends (do
        let _ ← advance
        let operand ← rec (.operand signPower)
        if operand.isAbsent then return .absent
        return .assignment (c.next.span.cover operand.span) (assignOp c.next)
          (← assignTarget operand c.next) .absent) c fun node c' =>
      Ran c c' (Reads .atom c (.node node) c') ∧
        (node.isAbsent = false → c'.rest.length < c.rest.length) := by
  have taken : c.advance.rest.length < c.rest.length := by
    apply Cursor.advance_lt
    intro atEnd
    simp [atEnd, isStep] at ahead
  simp only [ends_bind, ends_advance]
  refine (below _ _ (by omega)).mono fun operand c₁ reading => ?_
  have later := reading.ran.length_le
  split
  next absent =>
    obtain rfl := Node.isAbsent_iff.1 absent
    rw [ends_pure]
    exact ⟨(reading.ran.mono fun read => .stepNothing ahead read).advance, by simp [Node.isAbsent]⟩
  next =>
    simp only [ends_bind, ends_pure]
    refine (assignTarget_ends operand c.next).mono ?_
    rintro target c' ⟨ran, same⟩
    refine ⟨((reading.ran.seq ran).mono ?_).advance, fun _ => by rw [same]; omega⟩
    rintro ⟨read, span, rfl, rfl⟩
    exact .step ahead read

theorem signed_of_ne_minus {t : Token} (notMinus : t.kind ≠ .minus) (operand : Node) :
    signed t operand = operand := by
  cases operand <;> simp [signed, notMinus, Node.isAbsent]

theorem sign_ends (below : Below rec n) (short : c.rest.length ≤ n) (ahead : isSign c.kind = true) :
    Ends (do
        let _ ← advance
        skipNewlines
        return signed c.next (← rec (.operand signPower))) c fun node c' =>
      Ran c c' (Reads .atom c (.node node) c') ∧
        (node.isAbsent = false → c'.rest.length < c.rest.length) := by
  have taken : c.advance.rest.length < c.rest.length := by
    apply Cursor.advance_lt
    intro atEnd
    simp [atEnd, isSign] at ahead
  have passed := c.advance.moves_pastNewlines.length_le
  simp only [ends_bind, ends_advance, ends_skipNewlines, ends_pure]
  refine (below _ _ (by omega)).mono fun operand c₁ reading => ?_
  have later := reading.ran.length_le
  exact ⟨(reading.ran.mono fun read => .sign ahead read).pastNewlines.advance, fun _ => by omega⟩

theorem atom_ends (below : Below rec n) (short : c.rest.length ≤ n) :
    Ends (atom rec) c fun node c' =>
      Ran c c' (Reads .atom c (.node node) c') ∧
        (node.isAbsent = false → c'.rest.length < c.rest.length) := by
  simp only [atom]
  rw [ends_bind, ends_peek]
  split
  next kind =>
    exact number_ends (by simp [Cursor.kind, kind]) fun fits => by simp [literal?, kind, fits]
  next kind =>
    exact number_ends (by simp [Cursor.kind, kind]) fun fits => by simp [literal?, kind, fits]
  next kind => exact literal_ends (by simp [Cursor.kind, kind]) (by simp [literal?, kind])
  next kind => exact literal_ends (by simp [Cursor.kind, kind]) (by simp [literal?, kind])
  next kind => exact literal_ends (by simp [Cursor.kind, kind]) (by simp [literal?, kind])
  next kind =>
    exact literal_ends (by simp [Cursor.kind, kind]) (by simp [literal?, kind, plainName])
  next kind => exact group_ends below short kind
  next kind =>
    have ends := sign_ends below short (c := c) (by simp [isSign, Cursor.kind, kind])
    simp only [ends_bind, ends_advance, ends_skipNewlines, ends_pure] at ends ⊢
    refine ends.mono fun operand c' holds => ?_
    split <;> simp_all [signed]
  next kind =>
    have ends := sign_ends below short (c := c) (by simp [isSign, Cursor.kind, kind])
    simp only [ends_bind, ends_advance, ends_skipNewlines, ends_pure] at ends ⊢
    refine ends.mono fun operand c' holds => ?_
    rwa [signed_of_ne_minus (by simp [kind])] at holds
  next kind => exact stepFront_ends below short (by simp [isStep, Cursor.kind, kind])
  next kind => exact stepFront_ends below short (by simp [isStep, Cursor.kind, kind])
  next kind =>
    exact (instantiation_ends below short kind).mono fun node c' run => ⟨run.1, fun _ => run.2⟩
  next =>
    rw [ends_pure]
    refine ⟨Ran.rfl (.nothing ?_), by simp [Node.isAbsent]⟩
    simp only [beginsOperand, Cursor.kind]

/-! ## Expressions -/

theorem operand_ends (below : Below rec n) (short : c.rest.length ≤ n) (power : Nat) :
    Ends (operand rec power) c (Reading (.operand power) c) := by
  simp only [operand, ends_bind]
  refine (atom_ends below short).mono ?_
  rintro left c₁ ⟨first, shorter⟩
  have later := first.length_le
  split
  next absent =>
    obtain rfl := Node.isAbsent_iff.1 absent
    rw [ends_pure]
    exact ⟨first.mono .operandNothing, fun present => absurd absent (by simp [present])⟩
  next present =>
    have present : left.isAbsent = false := by simpa using present
    refine (tail_ends below (by omega) power left).mono fun node c' rest => ?_
    have latest := rest.length_le
    refine ⟨(first.seq rest).mono fun both => .operand both.1 present both.2, fun _ => ?_⟩
    exact Nat.lt_of_le_of_lt latest (shorter present)

theorem expression_ends (below : Below rec c.rest.length)
    (recurs : Ends (rec (.operand 0)) c (Reading (.operand 0) c)) :
    Ends (expression rec) c (Reading .expression c) := by
  simp only [expression, ends_bind]
  refine recurs.mono fun left c₁ first => ?_
  have later := first.ran.length_le
  split
  next absent =>
    obtain rfl := Node.isAbsent_iff.1 absent
    rw [ends_pure]
    exact ⟨first.ran.mono .expressionNothing, fun present => absurd absent (by simp [present])⟩
  next present =>
    have present : left.isAbsent = false := by simpa using present
    have shorter : c₁.rest.length < c.rest.length := first.advances present
    -- An operand is there; it is the whole expression unless an assignment follows.
    simp only [ends_bind, ends_peekKind]
    split
    next plain =>
      rw [ends_pure]
      exact ⟨first.ran.mono fun read => .expressionPlain read present (by simpa using plain),
        fun _ => shorter⟩
    next assigns =>
      have taken := c₁.moves_advance.length_le
      have passed := c₁.advance.moves_pastNewlines.length_le
      simp only [ends_bind, ends_advance, ends_skipNewlines, ends_orNull, ends_pure]
      refine (below _ _ (by omega)).mono fun value c₂ second => ?_
      have latest := second.ran.length_le
      split
      next =>
        refine (assignTarget_ends left c₁.next).mono ?_
        rintro target c' ⟨ran, same⟩
        refine ⟨first.ran.seq (second.ran.complained ran.moves).pastNewlines.advance |>.mono And.right,
          fun _ => ?_⟩
        rw [same]
        simp only [Cursor.complain]
        omega
      next given =>
        refine (assignTarget_ends left c₁.next).mono ?_
        rintro target c' ⟨ran, same⟩
        refine ⟨(first.ran.seq (second.ran.seq ran).pastNewlines.advance).mono ?_, fun _ => ?_⟩
        · rintro ⟨read, readValue, span, rfl, rfl⟩
          exact .expressionAssign read (by simpa using assigns) readValue (by simpa using given)
        · rw [same]
          omega

end Rules

end Parser

end ClassScript
