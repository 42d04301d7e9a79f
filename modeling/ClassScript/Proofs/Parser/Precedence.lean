import ClassScript.Proofs.Parser.Widening
import ClassScript.Proofs.Syntax.Precedence

/-! # Operators bind by precedence

Operands with operators between them are read as the one arrangement that respects the levels of the operators
(`parse_expression_arranged`).  What carries the proof is what `climbs_tail` says of the loop behind an
operand: it takes the operators that bind tighter than the power on its left, and stops at the first other one.
-/

namespace ClassScript

namespace BinaryOp

def power (op : BinaryOp) : Nat := if op = .pow then 65 else 10 * (op.level + 1)

def rightPower (op : BinaryOp) : Nat := if op = .pow then op.power - 1 else op.power

theorem power_pos (op : BinaryOp) : 0 < op.power := by
  rw [power]
  split <;> omega

variable {op other : BinaryOp}

theorem takesRight_of_power (tighter : op.rightPower < other.power) : op.takesRight other := by
  rw [takesRight_iff]
  by_cases isPow : op = .pow <;> by_cases otherPow : other = .pow
  · exact .inr ⟨isPow, otherPow⟩
  · have := level_lt_of_ne_pow otherPow
    simp only [rightPower, power, isPow, otherPow, ↓reduceIte] at tighter
    omega
  · have := level_lt_of_ne_pow isPow
    exact .inl (by rw [otherPow]; exact this)
  · simp only [rightPower, power, isPow, otherPow, ↓reduceIte] at tighter
    omega

theorem takesLeft_of_power (looser : other.power ≤ op.rightPower) : other.takesLeft op := by
  rw [takesLeft_iff]
  by_cases isPow : op = .pow <;> by_cases otherPow : other = .pow
  · simp [rightPower, power, isPow, otherPow] at looser
  · have := level_lt_of_ne_pow otherPow
    exact .inl (by rw [isPow]; exact this)
  · have := level_lt_of_ne_pow isPow
    simp only [rightPower, power, isPow, otherPow, ↓reduceIte] at looser
    omega
  · simp only [rightPower, power, isPow, otherPow, ↓reduceIte] at looser
    rcases Nat.lt_or_eq_of_le (show other.level ≤ op.level by omega) with less | same
    · exact .inl less
    · exact .inr ⟨same, otherPow⟩

end BinaryOp

namespace Kind

variable {kind : Kind} {op : BinaryOp}

theorem power_of_binaryOp? (writes : kind.binaryOp? = some op) : kind.power = op.power := by
  cases kind <;> cases writes <;> rfl

theorem rightPower_of_binaryOp? (writes : kind.binaryOp? = some op) :
    (if kind = .caret then kind.power - 1 else kind.power) = op.rightPower := by
  cases kind <;> cases writes <;> rfl

end Kind

namespace Parser

open Cursor

/-! ## Operands and operators in a row -/

/-- Tokens that are an operand, and its node: a literal or a name, or an expression in parentheses that is
    there and parses without diagnostics. -/
inductive Operand : List Token → Node → Prop
  | single {t : Token} {n : Node} : literal? t = some n → Operand [t] n
  | group {tokens : List Token} {n : Node} {c : Cursor} {closing : Token} :
      (Cursor.mk tokens none []).kind = .leftParen →
      parse (depthFor tokens) .expression (Cursor.mk tokens none []).advance.pastNewlines = some (n, c) →
      n.isAbsent = false → c.diagnostics = [] →
      c.pastNewlines.rest = [closing] → closing.kind = .rightParen →
      Operand tokens n

/-- Tokens that go on behind an operand: operators, each with line ends and an operand behind it. -/
inductive Continues : List Token → List (BinaryOp × Node) → Prop
  | done : Continues [] []
  | next {operator : Token} {op : BinaryOp} {newlines tokens rest : List Token} {n : Node}
      {others : List (BinaryOp × Node)} :
      operator.kind.binaryOp? = some op → (∀ t ∈ newlines, t.kind = .newline) → Operand tokens n →
      Continues rest others →
      Continues (operator :: (newlines ++ (tokens ++ rest))) ((op, n) :: others)

variable {tokens behind : List Token} {n : Node} {diagnostics : List Diagnostic}

theorem Operand.present (operand : Operand tokens n) : n.isAbsent = false := by
  cases operand with
  | single found => exact present_of_literal? found
  | group _ _ present => exact present

theorem Operand.begins (operand : Operand tokens n) : ∃ t ts, tokens = t :: ts ∧ t.kind ≠ .newline := by
  cases operand with
  | @single t n found =>
    refine ⟨t, [], rfl, fun newline => ?_⟩
    have begins := beginsOperand_of_literal? found
    rw [newline] at begins
    cases begins
  | group opened =>
    cases tokens with
    | nil => cases opened
    | cons t ts =>
      have opened : t.kind = .leftParen := opened
      exact ⟨t, ts, rfl, by simp [opened]⟩

/-- An operand is read in front of all tokens. -/
theorem Operand.reads (operand : Operand tokens n) (behind : List Token) (last : Option Token)
    (diagnostics : List Diagnostic) :
    ∃ last', Reads .atom ⟨tokens ++ behind, last, diagnostics⟩ (.node n) ⟨behind, last', diagnostics⟩ := by
  obtain ⟨t, ts, rfl, -⟩ := operand.begins
  cases operand with
  | single found => exact ⟨some t, .literal found⟩
  | @group _ _ c closing opened found present clean rest closed =>
    have short := (Onward.refl (Cursor.mk (t :: ts) none []).advance.pastNewlines).pastNewlines.advance.length_le
    have reading := (ends_of_run found).1 (parse_ends _ _ _ (by simp only [depthFor, Goal.rank] at short ⊢; omega))
    -- Inside the parentheses there was nothing else to read, and what is behind them makes no difference.
    have inside := reading.ran.clean clean
    have atClosing : c.pastNewlines.rest ≠ [] := by simp [rest]
    have within : c.rest ≠ [] := (c.onward_skipWhile _).ahead atClosing
    have ends : (c.widen behind diagnostics).pastNewlines = ⟨closing :: behind, c.pastNewlines.last, diagnostics⟩ := by
      rw [pastNewlines_widen atClosing, widen, rest]
      rfl
    have read : Reads .atom ⟨t :: ts ++ behind, last, diagnostics⟩ (.node n)
        (c.widen behind diagnostics).pastNewlines.advance := by
      refine .group opened ?_ (by rwa [ends])
      have start := @pastNewlines_widen behind diagnostics _ (inside.onward.ahead within)
      exact start ▸ inside.widen rfl within
    rw [ends] at read
    exact ⟨some closing, read⟩

theorem pastNewlines_append {newlines : List Token} (all : ∀ t ∈ newlines, t.kind = .newline)
    (other : (Cursor.mk behind none []).kind ≠ .newline) (last : Option Token) :
    ∃ last', (Cursor.mk (newlines ++ behind) last diagnostics).pastNewlines = ⟨behind, last', diagnostics⟩ := by
  induction newlines generalizing last with
  | nil => exact ⟨last, pastNewlines_eq_self other⟩
  | cons t newlines ih =>
    obtain ⟨first, others⟩ := List.forall_mem_cons.1 all
    obtain ⟨last', is⟩ := ih others (some t)
    refine ⟨last', ?_⟩
    rw [← is]
    exact skipWhile_of_skipped (by simp [kind, next, first]) (by simp [kind, next, first])

/-- Behind an operator and the line ends that follow it, an operand begins. -/
theorem Operand.pastOperator (operand : Operand tokens n) {newlines : List Token}
    (all : ∀ t ∈ newlines, t.kind = .newline) (operator : Token) (rest : List Token) (last : Option Token)
    (diagnostics : List Diagnostic) :
    ∃ last', (Cursor.mk (operator :: (newlines ++ (tokens ++ rest))) last diagnostics).advance.pastNewlines =
      ⟨tokens ++ rest, last', diagnostics⟩ := by
  obtain ⟨t, ts, rfl, notNewline⟩ := operand.begins
  exact @pastNewlines_append (t :: ts ++ rest) diagnostics newlines all notNewline (some operator)

/-! ## Climbing -/

/-- What comes of an arrangement when the operators behind it that bind tighter than a power are taken. -/
structure Climbed (power : Nat) (left : Arrangement) (others : List (BinaryOp × Node))
    (t : Arrangement) (remaining : List (BinaryOp × Node)) : Prop where
  respects : t.respects
  present : t.toNode.isAbsent = false
  first : t.first = left.first
  /-- Nothing is lost, and the order stays. -/
  steps : t.steps ++ remaining = left.steps ++ others
  tight : t = left ∨ ∀ top ∈ t.root?, power < top.power
  stopped : ∀ step ∈ remaining.head?, step.1.power ≤ power

variable {power : Nat} {op : BinaryOp} {left right t : Arrangement}
  {others remaining : List (BinaryOp × Node)}

/-- An operator joins what is to the left of it with the operand that goes up to its own power. -/
theorem Climbed.respects_join (climbed : Climbed op.rightPower (.leaf n) others right remaining)
    (respects : left.respects) (fits : ∀ top ∈ left.root?, op.takesLeft top) :
    (Arrangement.join op left right).respects := by
  refine Arrangement.respects_join.2 ⟨respects, climbed.respects, fits, fun top isTop => ?_⟩
  rcases climbed.tight with rfl | tight
  · cases isTop
  · exact BinaryOp.takesRight_of_power (tight top isTop)

theorem Climbed.next {later : List (BinaryOp × Node)}
    (operand : Climbed op.rightPower (.leaf n) others right remaining) (binds : power < op.power)
    (climbed : Climbed power (.join op left right) remaining t later) :
    Climbed power left ((op, n) :: others) t later where
  respects := climbed.respects
  present := climbed.present
  first := climbed.first
  steps := by
    have steps := operand.steps
    have first : right.first = n := operand.first
    rw [climbed.steps]
    simp only [Arrangement.steps, List.nil_append] at steps ⊢
    rw [first, ← steps, List.append_assoc, List.cons_append]
  tight := by
    refine .inr fun top isTop => ?_
    rcases climbed.tight with rfl | tight
    · cases isTop
      exact binds
    · exact tight top isTop
  stopped := climbed.stopped

/-- The phrase, begun at some tokens in front of those behind, climbs and stops in front of what remains. -/
def Climbs (behind : List Token) (diagnostics : List Diagnostic) (phrase : Phrase) (power : Nat)
    (left : Arrangement) (tokens : List Token) (others : List (BinaryOp × Node)) : Prop :=
  ∀ last, ∃ t remaining rest last',
    Reads phrase ⟨tokens ++ behind, last, diagnostics⟩ (.node t.toNode) ⟨rest ++ behind, last', diagnostics⟩ ∧
      Continues rest remaining ∧ Climbed power left others t remaining

/-- An operand climbs with what follows it. -/
theorem climbs_operand {rest : List Token} (operand : Operand tokens n)
    (climbs : Climbs behind diagnostics (.tail power n) power (.leaf n) rest others) :
    Climbs behind diagnostics (.goal (.operand power)) power (.leaf n) (tokens ++ rest) others := by
  intro last
  obtain ⟨last₁, atom⟩ := operand.reads (rest ++ behind) last diagnostics
  obtain ⟨t, remaining, rest', last', read, continues, climbed⟩ := climbs last₁
  refine ⟨t, remaining, rest', last', ?_, continues, climbed⟩
  rw [List.append_assoc]
  exact .operand atom operand.present read

/-- The loop behind an operand takes the operators that bind tighter than its power. -/
theorem climbs_tail (ends : (Cursor.mk behind none []).kind.power = 0) {rest : List Token}
    (continues : Continues rest others) (respects : left.respects) (present : left.toNode.isAbsent = false)
    (fits : ∀ step ∈ others.head?, ∀ top ∈ left.root?, step.1.takesLeft top) :
    Climbs behind diagnostics (.tail power left.toNode) power left rest others := by
  -- Both the operand of an operator and the loop behind it are left with fewer operators.
  induction size : others.length using Nat.strongRecOn generalizing rest others power left with
  | ind size ih =>
    intro last
    cases continues with
    | done =>
      have stop : ¬ power < (Cursor.mk behind last diagnostics).kind.power := by
        rw [show (Cursor.mk behind last diagnostics).kind.power = 0 from ends]
        exact Nat.not_lt_zero _
      exact ⟨left, [], [], last, .tailDone stop, .done, respects, present, rfl, rfl, .inl rfl, nofun⟩
    | @next operator op newlines tokens rest n others writes newline operand continues =>
      by_cases binds : power < op.power
      · have leaf : (Arrangement.leaf n).respects := rfl
        have leafFits : ∀ step ∈ others.head?, ∀ top ∈ (Arrangement.leaf n).root?, step.1.takesLeft top := by
          rintro _ _ _ ⟨⟩
        have tail : Climbs behind diagnostics (.tail op.rightPower n) op.rightPower (.leaf n) rest others :=
          ih others.length (by simp [← size]) continues leaf operand.present leafFits rfl
        -- The right operand takes what binds tighter than this operator, and the loop goes on behind it.
        obtain ⟨last₁, passed⟩ := operand.pastOperator newline operator (rest ++ behind) last diagnostics
        obtain ⟨right, remaining, rest₁, last₂, readRight, continues₁, climbedRight⟩ :=
          climbs_operand operand tail last₁
        have fewer : remaining.length ≤ others.length := by
          have := congrArg List.length climbedRight.steps
          simp only [Arrangement.steps, List.length_append, List.length_nil] at this
          omega
        have joined : (Arrangement.join op left right).respects :=
          climbedRight.respects_join respects (fits _ rfl)
        have fits₁ : ∀ step ∈ remaining.head?, ∀ top ∈ (Arrangement.join op left right).root?,
            step.1.takesLeft top := by
          rintro step isNext _ ⟨⟩
          exact BinaryOp.takesLeft_of_power (climbedRight.stopped step isNext)
        obtain ⟨t, later, rest₂, last₃, readTail, continues₂, climbed⟩ :=
          ih remaining.length (by simp only [← size, List.length_cons]; omega) continues₁
            joined rfl fits₁ rfl last₂
        refine ⟨t, later, rest₂, last₃, ?_, continues₂, climbedRight.next binds climbed⟩
        have tokensAhead : operator :: (newlines ++ (tokens ++ rest)) ++ behind =
            operator :: (newlines ++ (tokens ++ (rest ++ behind))) := by simp
        have atOperator : (Cursor.mk (operator :: (newlines ++ (tokens ++ (rest ++ behind)))) last diagnostics).kind =
            operator.kind := rfl
        rw [tokensAhead]
        refine .tailBinary ?_ writes ?_ climbedRight.present readTail
        · rwa [atOperator, Kind.power_of_binaryOp? writes]
        · rw [atOperator, Kind.rightPower_of_binaryOp? writes, passed, ← List.append_assoc]
          exact readRight
      · -- The operator is left to a loop further out.
        have stop : ¬ power < operator.kind.power := by rwa [Kind.power_of_binaryOp? writes]
        exact ⟨left, _, _, last, .tailDone stop, .next writes newline operand continues, respects, present, rfl,
          rfl, .inl rfl, by simpa using binds⟩

/-- Operands with operators between them, in front of a token that does not go on with them, are read as the
    one arrangement of them that respects the levels of the operators, and nothing is complained about. -/
theorem parse_expression_arranged {first : Node} {rest : List Token} (operand : Operand tokens first)
    (continues : Continues rest others) (behind : List Token) (ends : (Cursor.mk behind none []).kind.power = 0)
    (plain : (Cursor.mk behind none []).kind.isAssignment = false) (last : Option Token)
    (diagnostics : List Diagnostic) (depth : Nat) (enough : 4 * (tokens ++ rest ++ behind).length + 2 ≤ depth) :
    ∃ t : Arrangement, t.first = first ∧ t.steps = others ∧ t.respects ∧
      (∀ t' : Arrangement, t'.first = first → t'.steps = others → t'.respects → t' = t) ∧
      ∃ last', parse depth .expression ⟨tokens ++ rest ++ behind, last, diagnostics⟩ =
        some (t.toNode, ⟨behind, last', diagnostics⟩) := by
  have leaf : (Arrangement.leaf first).respects := rfl
  have leafFits : ∀ step ∈ others.head?, ∀ top ∈ (Arrangement.leaf first).root?, step.1.takesLeft top := by
    rintro _ _ _ ⟨⟩
  have tail : Climbs behind diagnostics (.tail 0 first) 0 (.leaf first) rest others :=
    climbs_tail ends continues leaf operand.present leafFits
  obtain ⟨t, remaining, rest', last', read, continues, climbed⟩ := climbs_operand operand tail last
  -- No operator has the power zero, so that none remains.
  cases continues with
  | @next _ op _ _ _ n _ _ _ _ _ =>
    have none : op.power ≤ 0 := climbed.stopped (op, n) rfl
    exact absurd op.power_pos (Nat.not_lt_of_le none)
  | done =>
    have steps : t.steps = others := by simpa [Arrangement.steps] using climbed.steps
    refine ⟨t, climbed.first, steps, climbed.respects, fun t' first' steps' respects' => ?_, last', ?_⟩
    · exact Arrangement.eq_of_respects respects' climbed.respects (first'.trans climbed.first.symm)
        (steps'.trans steps.symm)
    · have assigns : assignsValue (Cursor.mk behind last' diagnostics).kind = false := by
        rw [assignsValue, show (Cursor.mk behind last' diagnostics).kind.isAssignment = false from plain]
        rfl
      exact found_of_reads (.expressionPlain read climbed.present assigns) depth enough

def plainToken (kind : Kind) (lexeme : String) : Token := ⟨kind, lexeme, .none⟩

def groupTokens : List Token :=
  [plainToken .leftParen "(", plainToken .identifier "b", plainToken .plus "+", plainToken .identifier "c",
    plainToken .rightParen ")"]

def mixedTokens : List Token :=
  plainToken .minus "-" :: ([] ++ (groupTokens ++
    plainToken .star "*" :: ([] ++ ([plainToken .integer "2"] ++
    plainToken .caret "^" :: ([plainToken .newline "\\n"] ++ ([plainToken .identifier "d"] ++
    plainToken .caret "^" :: ([] ++ ([plainToken .identifier "e"] ++
    plainToken .minus "-" :: ([] ++ ([plainToken .identifier "f"] ++ []))))))))))

def nameLeaf (text : String) : Arrangement := .leaf (plainName (plainToken .identifier text))

def groupArrangement : Arrangement := .join .add (nameLeaf "b") (nameLeaf "c")

def mixedArrangement : Arrangement :=
  .join .sub
    (.join .sub (nameLeaf "a")
      (.join .mul (.leaf groupArrangement.toNode)
        (.join .pow (.leaf (.integer .none 2)) (.join .pow (nameLeaf "d") (nameLeaf "e")))))
    (nameLeaf "f")

theorem parse_expression_arranged_mixedTokens :
    let first := [plainToken .identifier "a"]
    let behind := [plainToken .newline "\\n"]
    Operand first mixedArrangement.first ∧ Continues mixedTokens mixedArrangement.steps ∧
      mixedArrangement.respects ∧
      ∃ last', parse 100 .expression ⟨first ++ mixedTokens ++ behind, none, []⟩ =
        some (mixedArrangement.toNode, ⟨behind, last', []⟩) := by
  intro first behind
  have operand : Operand first mixedArrangement.first := .single rfl
  have name (text : String) : Operand [plainToken .identifier text] (plainName (plainToken .identifier text)) :=
    .single rfl
  have two : Operand [plainToken .integer "2"] (.integer .none 2) := by
    have fits : Number.readInteger "2" = (2, true) := by decide +kernel
    exact .single (by simp [literal?, plainToken, fits])
  -- The operand in parentheses is itself operands with an operator between them.
  have group : Operand groupTokens groupArrangement.toNode := by
    have continues : Continues [plainToken .plus "+", plainToken .identifier "c"] groupArrangement.steps :=
      @Continues.next _ .add [] _ _ _ _ rfl (by simp) (name "c") .done
    obtain ⟨t, -, -, -, unique, last', found⟩ := parse_expression_arranged (name "b") continues
      [plainToken .rightParen ")"] rfl rfl (some (plainToken .leftParen "(")) [] (depthFor groupTokens) (by decide)
    obtain rfl := unique groupArrangement rfl rfl rfl
    exact .group rfl found rfl rfl rfl rfl
  have newline : ∀ t ∈ [plainToken .newline "\\n"], t.kind = .newline := by simp [plainToken]
  have continues : Continues mixedTokens mixedArrangement.steps :=
    @Continues.next _ .sub [] groupTokens _ _ _ rfl (by simp) group <|
      @Continues.next _ .mul [] _ _ _ _ rfl (by simp) two <|
      @Continues.next _ .pow _ _ _ _ _ rfl newline (name "d") <|
      @Continues.next _ .pow [] _ _ _ _ rfl (by simp) (name "e") <|
      @Continues.next _ .sub [] _ _ _ _ rfl (by simp) (name "f") .done
  have respects : mixedArrangement.respects := rfl
  obtain ⟨t, -, -, -, unique, last', found⟩ :=
    parse_expression_arranged operand continues behind rfl rfl none [] 100 (by decide)
  obtain rfl := unique mixedArrangement rfl rfl respects
  exact ⟨operand, continues, respects, last', found⟩

end Parser

end ClassScript
