import ClassScript.Number.Layout
import ClassScript.Proofs.Syntax.Spans

/-! # Writing trees as tokens

`Node.unparse` writes a tree as a list of tokens without places.  Operands, receivers and callees that are
not names stand in parentheses, bodies in braces and statements on lines of their own, so that nothing is
left to the strength of operators.  A negative number is written as a minus sign and its size, and the
members of a class come sorted: fields, functions, classes.
-/

namespace ClassScript

namespace Token

def mark (kind : Kind) : Token := ⟨kind, kind.name, .none⟩

def name (text : String) : Token := ⟨.identifier, text, .none⟩

def lineBreak : Token := ⟨.newline, "\\n", .none⟩

def ending : Token := ⟨.endOfFile, "", .none⟩

end Token

/-! ## The tokens of operators, types and modifiers -/

def BinaryOp.token : BinaryOp → Kind
  | .add => .plus
  | .sub => .minus
  | .mul => .star
  | .div => .slash
  | .pow => .caret
  | .equal => .equals
  | .bigger => .greater
  | .smaller => .less
  | .biggerEqual => .greaterEquals
  | .smallerEqual => .lessEquals
  | .and => .andAnd
  | .or => .orOr
  | .unknown => .illegal

def AssignOp.token : AssignOp → Kind
  | .assign => .assign
  | .add => .plusAssign
  | .sub => .minusAssign
  | .mul => .starAssign
  | .div => .slashAssign
  | .pow => .caretAssign
  | .increase => .increment
  | .decrease => .decrement
  | .unknown => .illegal

def DeclaredType.token : DeclaredType → Kind
  | .dynamic => .varWord
  | .byte => .byteWord
  | .short => .shortWord
  | .integer => .intWord
  | .long => .longWord
  | .float => .floatWord
  | .double => .doubleWord
  | .boolean => .booleanWord
  | .char => .charWord
  | .function | .blueprint | .object | .unknown => .illegal

/-- The keyword of an access level; the package has none. -/
def Access.tokens : Access → List Token
  | .packageAccess => []
  | .publicAccess => [.mark .publicWord]
  | .protectedAccess => [.mark .protectedWord]
  | .privateAccess => [.mark .privateWord]

def Modifiers.tokens (m : Modifiers) : List Token :=
  m.access.tokens ++ (if m.isStatic then [.mark .staticWord] else [])
    ++ (if m.isFinal then [.mark .finalWord] else [])

/-! ## Groups of tokens -/

def inParens (tokens : List Token) : List Token :=
  .mark .leftParen :: (tokens ++ [.mark .rightParen])

def inBraces (tokens : List Token) : List Token :=
  .mark .leftBrace :: (tokens ++ [.mark .rightBrace])

def separatedBy (separator : Token) : List (List Token) → List Token
  | [] => []
  | [tokens] => tokens
  | tokens :: more => tokens ++ separator :: separatedBy separator more

def numeral (negative : Bool) (kind : Kind) (size : String) : List Token :=
  if negative then [.mark .minus, ⟨kind, size, .none⟩] else [⟨kind, size, .none⟩]

namespace Node

def isName : Node → Bool
  | .identifier .. => true
  | _ => false

def dottedName : Node → List Token
  | .usage _ target => dottedName target
  | .identifier _ .absent name => [.name name]
  | .identifier _ outer name => dottedName outer ++ [.mark .dot, .name name]
  | _ => []

mutual

/-- The tokens of a part of a program.  What is left out has none. -/
def tokens : Node → List Token
  | .absent | .foreign .. => []
  | .tree _ children => inBraces (separatedBy .lineBreak (allTokens children))
  | .integer _ value => numeral (value < 0) .integer (toString value.toInt.natAbs)
  | .double _ value =>
    numeral (Number.isNegative value) .double
      (Number.Layout.value.text (if Number.isNegative value then -value else value))
  | .boolean _ value => [.mark (if value then .trueWord else .falseWord)]
  | .null _ => [.mark .nullWord]
  | .binary _ op left right =>
    inParens left.tokens ++ .mark op.token :: inParens right.tokens
  | .identifier _ receiver name =>
    if receiver.isAbsent then [.name name]
    else inParens receiver.tokens ++ [.mark .dot, .name name]
  | .usage _ target => target.tokens
  | .assignment _ op target value =>
    target.tokens ++ .mark op.token :: (if value.isAbsent then [] else inParens value.tokens)
  | .call _ callee arguments =>
    (if callee.isName then callee.tokens else inParens callee.tokens)
      ++ inParens (separatedBy (.mark .comma) (allTokens arguments))
  | .instantiation _ blueprint arguments =>
    .mark .newWord :: (blueprint.dottedName
      ++ inParens (separatedBy (.mark .comma) (allTokens arguments)))
  | .variableDeclaration _ modifiers name type initial =>
    modifiers.tokens ++ .mark type.token ::
      (if initial.isAbsent then [.name name] else initial.tokens)
  | .whileLoop _ test body => .mark .whileWord :: (inParens test.tokens ++ body.tokens)
  | .doWhileLoop _ test body =>
    .mark .doWord :: (body.tokens ++ .mark .whileWord :: inParens test.tokens)
  | .forLoop _ declaration test round body =>
    .mark .forWord :: (inParens (declaration.tokens ++ .mark .semicolon ::
      (test.tokens ++ .mark .semicolon :: round.tokens)) ++ body.tokens)
  | .branch _ test body alternative =>
    .mark .ifWord :: (inParens test.tokens ++ (body.tokens
      ++ (if alternative.isAbsent then [] else .mark .elseWord :: alternative.tokens)))
  | .functionDeclaration _ modifiers name params body =>
    modifiers.tokens ++ .mark .functionWord :: .name name ::
      (inParens (separatedBy (.mark .comma) (params.map fun param => [.name param])) ++ body.tokens)
  | .classDeclaration _ modifiers name fields methods classes =>
    modifiers.tokens ++ .mark .classWord :: .name name ::
      inBraces (separatedBy .lineBreak (allTokens fields ++ allTokens methods ++ allTokens classes))

def allTokens : List Node → List (List Token)
  | [] => []
  | node :: rest => node.tokens :: allTokens rest

end

@[simp] theorem allTokens_eq_map (nodes : List Node) : allTokens nodes = nodes.map tokens := by
  induction nodes with
  | nil => rfl
  | cons node rest ih => simp [allTokens, ih]

/-- A whole program as tokens: its statements, without braces around them. -/
def unparse : Node → List Token
  | .tree _ children => separatedBy .lineBreak (children.map tokens) ++ [.ending]
  | node => node.tokens ++ [.ending]

end Node

/-! ## Written tokens have no place -/

def Placeless (tokens : List Token) : Prop := ∀ t ∈ tokens, t.span = .none

section Placeless

variable {tokens more : List Token}

@[simp] theorem placeless_nil : Placeless [] := List.forall_mem_nil _

@[simp] theorem placeless_cons {t : Token} :
    Placeless (t :: tokens) ↔ t.span = .none ∧ Placeless tokens := List.forall_mem_cons

@[simp] theorem placeless_append :
    Placeless (tokens ++ more) ↔ Placeless tokens ∧ Placeless more := List.forall_mem_append

@[simp] theorem Token.span_mark (kind : Kind) : (Token.mark kind).span = .none := rfl

@[simp] theorem Token.span_name (name : String) : (Token.name name).span = .none := rfl

@[simp] theorem Token.span_lineBreak : Token.lineBreak.span = .none := rfl

@[simp] theorem placeless_inParens : Placeless (inParens tokens) ↔ Placeless tokens := by
  simp [inParens]

@[simp] theorem placeless_inBraces : Placeless (inBraces tokens) ↔ Placeless tokens := by
  simp [inBraces]

theorem placeless_separatedBy {separator : Token} (bare : separator.span = .none)
    (groups : List (List Token)) :
    Placeless (separatedBy separator groups) ↔ ∀ tokens ∈ groups, Placeless tokens := by
  fun_induction separatedBy separator groups <;> simp_all

@[simp] theorem placeless_ite {p : Prop} [Decidable p] :
    Placeless (if p then tokens else more) ↔ (p → Placeless tokens) ∧ (¬ p → Placeless more) := by
  split <;> simp_all

@[simp] theorem placeless_numeral (negative : Bool) (kind : Kind) (size : String) :
    Placeless (numeral negative kind size) := by
  cases negative <;> simp [numeral]

@[simp] theorem placeless_modifiers (m : Modifiers) : Placeless m.tokens := by
  obtain ⟨access, inClass, isStatic, isFinal⟩ := m
  cases access <;> cases isStatic <;> cases isFinal <;> simp [Modifiers.tokens, Access.tokens]

@[simp] theorem placeless_dottedName (n : Node) : Placeless n.dottedName := by
  fun_induction Node.dottedName n <;> simp_all

theorem placeless_tokens (n : Node) : Placeless n.tokens := by
  have lines := placeless_separatedBy Token.span_lineBreak
  have arguments := placeless_separatedBy (Token.span_mark .comma)
  induction n using Node.induct <;> simp_all [Node.tokens]
  grind

theorem placeless_unparse (n : Node) : Placeless n.unparse := by
  have ending : Placeless [.ending] := placeless_cons.2 ⟨rfl, placeless_nil⟩
  cases n <;>
    simp [Node.unparse, placeless_tokens, placeless_separatedBy Token.span_lineBreak, ending]

end Placeless

end ClassScript
