import ClassScript.Proofs.Parser.Run

/-! # The grammar of programs without diagnostics

`Reads phrase c y c'` says that a parser that stands at the cursor `c` and looks for a phrase of the
grammar finds it without any complaint, that the phrase yields `y`, and that `c'` stands behind it.
The relation has a rule for each way to read a phrase; where the parser decides by the token ahead, so
does the rule.  It says nothing about depth, rounds or complaints: which runs of the parser it
describes is settled once, in `ClassScript.Proofs.Parser.Soundness` and `.Completeness`, and facts about
accepted programs are inductions over it.

An expression may be read and yield `Node.absent`: nothing begins at the cursor, or a sign or an empty
pair of parentheses stands where an operand should.  Only the slots of a loop header put up with that.
-/

namespace ClassScript

theorem Node.isAbsent_iff {n : Node} : n.isAbsent = true ↔ n = .absent := by
  cases n <;> simp [isAbsent]

namespace Parser

/-! ## Nodes that are made of tokens and nodes -/

def plainName (t : Token) : Node := .usage t.span (.identifier t.span .absent t.lexeme)

def memberOf (left : Node) (t : Token) : Node :=
  .usage (left.span.cover t.span) (.identifier (left.span.cover t.span) left t.lexeme)

/-- What a call calls: a name stands for its variable, anything else for its value. -/
def calleeOf : Node → Node
  | .usage _ target => target
  | callee => callee

def literal? (t : Token) : Option Node :=
  match t.kind with
  | .integer =>
    if (Number.readInteger t.lexeme).2 then some (.integer t.span (Number.readInteger t.lexeme).1)
    else none
  | .double =>
    if (Number.readDouble t.lexeme).2 then some (.double t.span (Number.readDouble t.lexeme).1)
    else none
  | .trueWord => some (.boolean t.span true)
  | .falseWord => some (.boolean t.span false)
  | .nullWord => some (.null t.span)
  | .identifier => some (plainName t)
  | _ => none

inductive IsLiteral (t : Token) : Node → Prop
  | integer (kind : t.kind = .integer) (fits : (Number.readInteger t.lexeme).2 = true) :
      IsLiteral t (.integer t.span (Number.readInteger t.lexeme).1)
  | double (kind : t.kind = .double) (fits : (Number.readDouble t.lexeme).2 = true) :
      IsLiteral t (.double t.span (Number.readDouble t.lexeme).1)
  | yes (kind : t.kind = .trueWord) : IsLiteral t (.boolean t.span true)
  | no (kind : t.kind = .falseWord) : IsLiteral t (.boolean t.span false)
  | null (kind : t.kind = .nullWord) : IsLiteral t (.null t.span)
  | name (kind : t.kind = .identifier) : IsLiteral t (plainName t)

theorem isLiteral_of_literal? {t : Token} {n : Node} (found : literal? t = some n) : IsLiteral t n := by
  rw [literal?] at found
  split at found
  case h_1 kind =>
    split at found
    case isTrue fits =>
      cases found
      exact .integer kind fits
    case isFalse => cases found
  case h_2 kind =>
    split at found
    case isTrue fits =>
      cases found
      exact .double kind fits
    case isFalse => cases found
  case h_3 kind =>
    cases found
    exact .yes kind
  case h_4 kind =>
    cases found
    exact .no kind
  case h_5 kind =>
    cases found
    exact .null kind
  case h_6 kind =>
    cases found
    exact .name kind
  case h_7 => cases found

theorem present_of_literal? {t : Token} {n : Node} (found : literal? t = some n) : n.isAbsent = false := by
  cases isLiteral_of_literal? found <;> rfl

def isSign (kind : Kind) : Bool := kind = .plus || kind = .minus

def isStep (kind : Kind) : Bool := kind = .increment || kind = .decrement

/-- An operand with a sign in front of it; without an operand there is nothing. -/
def signed (t : Token) (operand : Node) : Node :=
  if operand.isAbsent then .absent
  else if t.kind = .minus then negate (t.span.cover operand.span) operand
  else operand

def beginsOperand : Kind → Bool
  | .integer | .double | .trueWord | .falseWord | .nullWord | .identifier | .leftParen
  | .minus | .plus | .increment | .decrement | .newWord => true
  | _ => false

theorem beginsOperand_of_literal? {t : Token} {n : Node} (found : literal? t = some n) :
    beginsOperand t.kind = true := by
  cases isLiteral_of_literal? found <;> simp [*, beginsOperand]

def leadsStatement (kind : Kind) : Bool :=
  beginsMember kind || kind = .ifWord || kind = .whileWord || kind = .doWord || kind = .forWord

def modifiersAhead (c : Cursor) (inClass : Bool) : Modifiers :=
  (c.rest.takeWhile fun t => t.kind.isModifier).foldl (fun seen t => withModifier seen t.kind)
    { inClass }

def sortMembers (nodes : List Node) : Members := nodes.foldl Members.add {}

/-! ## Parameters -/

/-- The names that follow the first one of a parameter list. -/
inductive ReadsMoreNames : Cursor → List String → Cursor → Prop
  | done {c : Cursor} : c.kind ≠ .comma → ReadsMoreNames c [] c
  | next {c c' : Cursor} {names : List String} :
      c.kind = .comma →
      c.advance.pastNewlines.kind = .identifier →
      ReadsMoreNames c.advance.pastNewlines.advance names c' →
      ReadsMoreNames c (c.advance.pastNewlines.next.lexeme :: names) c'

inductive ReadsParams : Cursor → List String → Cursor → Prop
  | none {c : Cursor} :
      c.kind = .leftParen →
      c.advance.pastNewlines.kind = .rightParen →
      ReadsParams c [] c.advance.pastNewlines.advance
  | some {c c₁ : Cursor} {names : List String} :
      c.kind = .leftParen →
      c.advance.pastNewlines.kind = .identifier →
      ReadsMoreNames c.advance.pastNewlines.advance names c₁ →
      c₁.pastNewlines.kind = .rightParen →
      ReadsParams c (c.advance.pastNewlines.next.lexeme :: names) c₁.pastNewlines.advance

/-! ## Phrases -/

inductive Phrase
  /-- A part of the grammar that the parser recurs to. -/
  | goal (goal : Goal)
  /-- The beginning of an operand. -/
  | atom
  /-- What follows the node to the left and binds tighter than the power. -/
  | tail (power : Nat) (left : Node)
  /-- The points and names that follow the class name to the left. -/
  | dotted (left : Node)
  /-- Arguments in parentheses. -/
  | arguments
  /-- The arguments that follow the first one. -/
  | moreArguments
  /-- Statements as long as the token ahead asks for more. -/
  | statements (more : Kind → Bool)
  /-- Statements in braces. -/
  | block
  /-- The body of a loop or a branch. -/
  | body
  /-- A condition in parentheses. -/
  | condition
  /-- A declaration without its modifiers. -/
  | declaration (start : Position) (modifiers : Modifiers)
  /-- The members of a class body. -/
  | members
  /-- The part of a loop header before the first semicolon. -/
  | forStart
  /-- A part of a loop header before the closing token. -/
  | forPart (closing : Kind)

inductive Yield
  | node (node : Node)
  | nodes (nodes : List Node)

inductive Reads : Phrase → Cursor → Yield → Cursor → Prop
  -- Operands.
  | literal {c : Cursor} {n : Node} :
      literal? c.next = some n →
      Reads .atom c (.node n) c.advance
  | group {c c₁ : Cursor} {n : Node} :
      c.kind = .leftParen →
      Reads (.goal .expression) c.advance.pastNewlines (.node n) c₁ →
      c₁.pastNewlines.kind = .rightParen →
      Reads .atom c (.node n) c₁.pastNewlines.advance
  | sign {c c' : Cursor} {n : Node} :
      isSign c.kind = true →
      Reads (.goal (.operand signPower)) c.advance.pastNewlines (.node n) c' →
      Reads .atom c (.node (signed c.next n)) c'
  | stepNothing {c c' : Cursor} :
      isStep c.kind = true →
      Reads (.goal (.operand signPower)) c.advance (.node .absent) c' →
      Reads .atom c (.node .absent) c'
  | step {c c' : Cursor} {span : Span} {target : Node} :
      isStep c.kind = true →
      Reads (.goal (.operand signPower)) c.advance (.node (.usage span target)) c' →
      Reads .atom c
        (.node (.assignment (c.next.span.cover span) (assignOp c.next) target .absent)) c'
  | instantiation {c c₁ c' : Cursor} {blueprint : Node} {args : List Node} :
      c.kind = .newWord →
      c.advance.kind = .identifier →
      Reads (.dotted (plainName c.advance.next)) c.advance.advance (.node blueprint) c₁ →
      Reads .arguments c₁ (.nodes args) c' →
      Reads .atom c (.node (.instantiation ⟨c.next.span.first, c'.lastEnd⟩ blueprint args)) c'
  | nothing {c : Cursor} :
      beginsOperand c.kind = false →
      Reads .atom c (.node .absent) c
  | operandNothing {c c' : Cursor} {power : Nat} :
      Reads .atom c (.node .absent) c' →
      Reads (.goal (.operand power)) c (.node .absent) c'
  | operand {c c₁ c' : Cursor} {power : Nat} {left n : Node} :
      Reads .atom c (.node left) c₁ →
      left.isAbsent = false →
      Reads (.tail power left) c₁ (.node n) c' →
      Reads (.goal (.operand power)) c (.node n) c'
  -- What follows an operand.
  | tailDone {c : Cursor} {power : Nat} {left : Node} :
      ¬ power < c.kind.power →
      Reads (.tail power left) c (.node left) c
  | tailStep {c c' : Cursor} {power : Nat} {span : Span} {target n : Node} :
      power < c.kind.power →
      isStep c.kind = true →
      Reads (.tail power (.assignment (span.cover c.next.span) (assignOp c.next) target .absent))
        c.advance (.node n) c' →
      Reads (.tail power (.usage span target)) c (.node n) c'
  | tailCall {c c₁ c' : Cursor} {power : Nat} {left n : Node} {args : List Node} :
      power < c.kind.power →
      c.kind = .leftParen →
      Reads .arguments c (.nodes args) c₁ →
      Reads (.tail power (.call ⟨left.span.first, c₁.lastEnd⟩ (calleeOf left) args))
        c₁ (.node n) c' →
      Reads (.tail power left) c (.node n) c'
  | tailMember {c c' : Cursor} {power : Nat} {left n : Node} :
      power < c.kind.power →
      c.kind = .dot →
      c.advance.pastNewlines.kind = .identifier →
      Reads (.tail power (memberOf left c.advance.pastNewlines.next))
        c.advance.pastNewlines.advance (.node n) c' →
      Reads (.tail power left) c (.node n) c'
  | tailBinary {c c₁ c' : Cursor} {power : Nat} {op : BinaryOp} {left right n : Node} :
      power < c.kind.power →
      c.kind.binaryOp? = some op →
      Reads (.goal (.operand (if c.kind = .caret then c.kind.power - 1 else c.kind.power)))
        c.advance.pastNewlines (.node right) c₁ →
      right.isAbsent = false →
      Reads (.tail power (.binary (left.span.cover right.span) op left right)) c₁ (.node n) c' →
      Reads (.tail power left) c (.node n) c'
  | dottedDone {c : Cursor} {left : Node} :
      c.kind ≠ .dot →
      Reads (.dotted left) c (.node left) c
  | dottedNext {c c' : Cursor} {left n : Node} :
      c.kind = .dot →
      c.advance.pastNewlines.kind = .identifier →
      Reads (.dotted (memberOf left c.advance.pastNewlines.next))
        c.advance.pastNewlines.advance (.node n) c' →
      Reads (.dotted left) c (.node n) c'
  | argumentsNone {c : Cursor} :
      c.kind = .leftParen →
      c.advance.pastNewlines.kind = .rightParen →
      Reads .arguments c (.nodes []) c.advance.pastNewlines.advance
  | argumentsSome {c c₁ c₂ : Cursor} {n : Node} {args : List Node} :
      c.kind = .leftParen →
      c.advance.pastNewlines.kind ≠ .rightParen →
      Reads (.goal .expression) c.advance.pastNewlines (.node n) c₁ →
      n.isAbsent = false →
      Reads .moreArguments c₁ (.nodes args) c₂ →
      c₂.pastNewlines.kind = .rightParen →
      Reads .arguments c (.nodes (n :: args)) c₂.pastNewlines.advance
  | argumentsDone {c : Cursor} :
      c.kind ≠ .comma →
      Reads .moreArguments c (.nodes []) c
  | argumentsNext {c c₁ c' : Cursor} {n : Node} {args : List Node} :
      c.kind = .comma →
      Reads (.goal .expression) c.advance.pastNewlines (.node n) c₁ →
      n.isAbsent = false →
      Reads .moreArguments c₁ (.nodes args) c' →
      Reads .moreArguments c (.nodes (n :: args)) c'
  -- Expressions.
  | expressionNothing {c c' : Cursor} :
      Reads (.goal (.operand 0)) c (.node .absent) c' →
      Reads (.goal .expression) c (.node .absent) c'
  | expressionPlain {c c' : Cursor} {n : Node} :
      Reads (.goal (.operand 0)) c (.node n) c' →
      n.isAbsent = false →
      assignsValue c'.kind = false →
      Reads (.goal .expression) c (.node n) c'
  | expressionAssign {c c₁ c' : Cursor} {span : Span} {target value : Node} :
      Reads (.goal (.operand 0)) c (.node (.usage span target)) c₁ →
      assignsValue c₁.kind = true →
      Reads (.goal .expression) c₁.advance.pastNewlines (.node value) c' →
      value.isAbsent = false →
      Reads (.goal .expression) c
        (.node (.assignment (span.cover value.span) (assignOp c₁.next) target value)) c'
  -- Blocks.
  | statementsDone {c : Cursor} {more : Kind → Bool} :
      more c.kind = false →
      Reads (.statements more) c (.nodes []) c
  | statementsNext {c c₁ c' : Cursor} {more : Kind → Bool} {n : Node} {ns : List Node} :
      more c.kind = true →
      Reads (.goal .statement) c (.node n) c₁ →
      n.isAbsent = false →
      Reads (.statements more) c₁.pastSeparators (.nodes ns) c' →
      Reads (.statements more) c (.nodes (n :: ns)) c'
  | block {c c₁ : Cursor} {ns : List Node} :
      c.kind = .leftBrace →
      Reads (.statements insideBlock) c.advance.pastSeparators (.nodes ns) c₁ →
      c₁.kind = .rightBrace →
      Reads .block c (.node (.tree ⟨c.next.span.first, c₁.advance.lastEnd⟩ ns)) c₁.advance
  | bodyBlock {c c' : Cursor} {n : Node} :
      c.pastNewlines.kind = .leftBrace →
      Reads .block c.pastNewlines (.node n) c' →
      Reads .body c (.node n) c'
  | bodySingle {c c' : Cursor} {n : Node} :
      c.pastNewlines.kind ≠ .leftBrace →
      Reads (.goal .statement) c.pastNewlines (.node n) c' →
      n.isAbsent = false →
      Reads .body c (.node (.tree ⟨c.pastNewlines.next.span.first, c'.lastEnd⟩ [n])) c'
  | condition {c c₁ : Cursor} {n : Node} :
      c.kind = .leftParen →
      Reads (.goal .expression) c.advance.pastNewlines (.node n) c₁ →
      n.isAbsent = false →
      c₁.pastNewlines.kind = .rightParen →
      Reads .condition c (.node n) c₁.pastNewlines.advance
  -- Declarations.
  | variablePlain {c : Cursor} {start : Position} {modifiers : Modifiers} :
      c.kind.isTypeWord = true →
      c.advance.kind = .identifier →
      c.advance.advance.kind ≠ .assign →
      Reads (.declaration start modifiers) c
        (.node (.variableDeclaration ⟨start, c.advance.advance.lastEnd⟩ modifiers
          c.advance.next.lexeme (c.kind.declaredType?.getD .dynamic) .absent))
        c.advance.advance
  | variableInitial {c c' : Cursor} {start : Position} {modifiers : Modifiers} {value : Node} :
      c.kind.isTypeWord = true →
      c.advance.kind = .identifier →
      c.advance.advance.kind = .assign →
      Reads (.goal .expression) c.advance.advance.advance.pastNewlines (.node value) c' →
      value.isAbsent = false →
      Reads (.declaration start modifiers) c
        (.node (.variableDeclaration ⟨start, c'.lastEnd⟩ modifiers
          c.advance.next.lexeme (c.kind.declaredType?.getD .dynamic)
          (.assignment ⟨c.advance.next.span.first, c'.lastEnd⟩ .assign
            (.identifier c.advance.next.span .absent c.advance.next.lexeme) value))) c'
  | function {c c₁ c' : Cursor} {start : Position} {modifiers : Modifiers} {names : List String}
      {n : Node} :
      c.kind = .functionWord →
      c.advance.kind = .identifier →
      ReadsParams c.advance.advance names c₁ →
      Reads .block c₁.pastNewlines (.node n) c' →
      Reads (.declaration start modifiers) c
        (.node (.functionDeclaration ⟨start, c'.lastEnd⟩ modifiers c.advance.next.lexeme names n)) c'
  | blueprint {c c₁ : Cursor} {start : Position} {modifiers : Modifiers} {ns : List Node} :
      c.kind = .classWord →
      c.advance.kind = .identifier →
      c.advance.advance.pastNewlines.kind = .leftBrace →
      Reads .members c.advance.advance.pastNewlines.advance.pastSeparators (.nodes ns) c₁ →
      c₁.kind = .rightBrace →
      Reads (.declaration start modifiers) c
        (.node (.classDeclaration ⟨start, c₁.advance.lastEnd⟩ modifiers c.advance.next.lexeme
          (sortMembers ns).fields (sortMembers ns).methods (sortMembers ns).classes)) c₁.advance
  | membersDone {c : Cursor} :
      insideBlock c.kind = false →
      Reads .members c (.nodes []) c
  | membersNext {c c₁ c' : Cursor} {n : Node} {ns : List Node} :
      insideBlock c.kind = true →
      beginsMember c.kind = true →
      Reads (.goal .member) c (.node n) c₁ →
      Reads .members c₁.pastSeparators (.nodes ns) c' →
      Reads .members c (.nodes (n :: ns)) c'
  | member {c c' : Cursor} {n : Node} :
      Reads (.declaration c.next.span.first (modifiersAhead c true)) c.pastModifiers (.node n) c' →
      Reads (.goal .member) c (.node n) c'
  -- Statements.
  | statementDeclaration {c c' : Cursor} {n : Node} :
      beginsMember c.kind = true →
      Reads (.declaration c.next.span.first (modifiersAhead c false)) c.pastModifiers (.node n) c' →
      Reads (.goal .statement) c (.node n) c'
  | statementExpression {c c' : Cursor} {n : Node} :
      leadsStatement c.kind = false →
      Reads (.goal .expression) c (.node n) c' →
      n.isAbsent = false →
      Reads (.goal .statement) c (.node n) c'
  | branchPlain {c c₁ c' : Cursor} {test yes : Node} :
      c.kind = .ifWord →
      Reads .condition c.advance (.node test) c₁ →
      Reads .body c₁ (.node yes) c' →
      c'.pastNewlines.kind ≠ .elseWord →
      Reads (.goal .statement) c
        (.node (.branch ⟨c.next.span.first, c'.lastEnd⟩ test yes .absent)) c'
  | branchElse {c c₁ c₂ c' : Cursor} {test yes no : Node} :
      c.kind = .ifWord →
      Reads .condition c.advance (.node test) c₁ →
      Reads .body c₁ (.node yes) c₂ →
      c₂.pastNewlines.kind = .elseWord →
      c₂.pastNewlines.advance.pastNewlines.kind ≠ .ifWord →
      Reads .body c₂.pastNewlines.advance.pastNewlines (.node no) c' →
      Reads (.goal .statement) c
        (.node (.branch ⟨c.next.span.first, c'.lastEnd⟩ test yes no)) c'
  | branchElseIf {c c₁ c₂ c' : Cursor} {test yes inner : Node} :
      c.kind = .ifWord →
      Reads .condition c.advance (.node test) c₁ →
      Reads .body c₁ (.node yes) c₂ →
      c₂.pastNewlines.kind = .elseWord →
      c₂.pastNewlines.advance.pastNewlines.kind = .ifWord →
      Reads (.goal .statement) c₂.pastNewlines.advance.pastNewlines (.node inner) c' →
      Reads (.goal .statement) c
        (.node (.branch ⟨c.next.span.first, c'.lastEnd⟩ test yes
          (.tree ⟨c₂.pastNewlines.next.span.first, c'.lastEnd⟩ [inner]))) c'
  | whileLoop {c c₁ c' : Cursor} {test inner : Node} :
      c.kind = .whileWord →
      Reads .condition c.advance (.node test) c₁ →
      Reads .body c₁ (.node inner) c' →
      Reads (.goal .statement) c
        (.node (.whileLoop ⟨c.next.span.first, c'.lastEnd⟩ test inner)) c'
  | doWhileLoop {c c₁ c' : Cursor} {test inner : Node} :
      c.kind = .doWord →
      Reads .body c.advance (.node inner) c₁ →
      c₁.pastNewlines.kind = .whileWord →
      Reads .condition c₁.pastNewlines.advance (.node test) c' →
      Reads (.goal .statement) c
        (.node (.doWhileLoop ⟨c.next.span.first, c'.lastEnd⟩ test inner)) c'
  | forLoop {c c₁ c₂ c₃ c' : Cursor} {first test round inner : Node} :
      c.kind = .forWord →
      c.advance.kind = .leftParen →
      Reads .forStart c.advance.advance.pastNewlines (.node first) c₁ →
      c₁.kind = .semicolon →
      Reads (.forPart .semicolon) c₁.advance.pastNewlines (.node test) c₂ →
      c₂.kind = .semicolon →
      Reads (.forPart .rightParen) c₂.advance.pastNewlines (.node round) c₃ →
      c₃.pastNewlines.kind = .rightParen →
      Reads .body c₃.pastNewlines.advance (.node inner) c' →
      Reads (.goal .statement) c
        (.node (.forLoop ⟨c.next.span.first, c'.lastEnd⟩ first test round inner)) c'
  | forStartNone {c : Cursor} :
      c.kind = .semicolon →
      Reads .forStart c (.node .absent) c
  | forStartVariable {c c' : Cursor} {n : Node} :
      c.kind.isTypeWord = true →
      Reads (.declaration c.next.span.first {}) c (.node n) c' →
      Reads .forStart c (.node n) c'
  | forStartExpression {c c' : Cursor} {n : Node} :
      c.kind ≠ .semicolon →
      c.kind.isTypeWord = false →
      Reads (.goal .expression) c (.node n) c' →
      Reads .forStart c (.node n) c'
  | forPartNone {c : Cursor} {closing : Kind} :
      c.kind = closing →
      Reads (.forPart closing) c (.node .absent) c
  | forPartSome {c c' : Cursor} {closing : Kind} {n : Node} :
      c.kind ≠ closing →
      Reads (.goal .expression) c (.node n) c' →
      Reads (.forPart closing) c (.node n) c'

end Parser

end ClassScript
