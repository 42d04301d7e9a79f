import ClassScript.Parser.Expression

/-! # Statements and declarations

Statements are told apart by their first token. A statement that cannot be read is reported and
skipped up to a likely boundary; it leaves `Node.absent`, which no list of statements keeps.
-/

namespace ClassScript.Parser

/-- A list with one more node, unless that one is absent. -/
def keep (nodes : List Node) (node : Node) : List Node :=
  if node.isAbsent then nodes else nodes ++ [node]

def withModifier (modifiers : Modifiers) : Kind → Modifiers
  | .publicWord => { modifiers with access := .publicAccess }
  | .protectedWord => { modifiers with access := .protectedAccess }
  | .privateWord => { modifiers with access := .privateAccess }
  | .staticWord => { modifiers with isStatic := true }
  | .finalWord => { modifiers with isFinal := true }
  | _ => modifiers

/-- Modifiers in front of a declaration; of several access levels the last one counts. -/
def modifiers (inClass : Bool) : Parser Modifiers :=
  loop Kind.isModifier (fun seen => do return withModifier seen (← advance).kind) { inClass }

def params : Parser (List String) := do
  let (_, opened) ← expect .leftParen
  if !opened then return []
  skipNewlines
  let param (names : List String) : Parser (List String) := do
    let (name, found) ← expect .identifier
    return if found then names ++ [name.lexeme] else names
  let names ←
    if (← peekKind) = .rightParen then pure []
    else do
      loop (· = .comma) (fun names => do
        let _ ← advance
        skipNewlines
        param names) (← param [])
  skipNewlines
  require .rightParen
  return names

structure Members where
  fields : List Node := []
  methods : List Node := []
  classes : List Node := []

def Members.add (members : Members) : Node → Members
  | node@(.variableDeclaration ..) => { members with fields := members.fields ++ [node] }
  | node@(.functionDeclaration ..) => { members with methods := members.methods ++ [node] }
  | node@(.classDeclaration ..) => { members with classes := members.classes ++ [node] }
  | _ => members

def beginsMember (kind : Kind) : Bool :=
  kind.isModifier || kind.isTypeWord || kind = .functionWord || kind = .classWord

def insideBlock (kind : Kind) : Bool := kind ≠ .rightBrace && kind ≠ .endOfFile

section Rules

variable (rec : Goal → Parser Node)

def statements (more : Kind → Bool) : Parser (List Node) := do
  skipSeparators
  loop more (fun nodes => do
    let node ← rec .statement
    skipSeparators
    return keep nodes node) []

def block : Parser Node := do
  let start ← peek
  let (_, opened) ← expect .leftBrace
  if !opened then
    synchronize
    return .tree (← spanFrom start.span.first) []
  let children ← statements rec insideBlock
  require .rightBrace
  return .tree (← spanFrom start.span.first) children

/-- The body of a loop or a branch: a block, or one statement. -/
def body : Parser Node := do
  skipNewlines
  if (← peekKind) = .leftBrace then block rec
  else
    let start ← peek
    let node ← rec .statement
    return .tree (← spanFrom start.span.first) (keep [] node)

def condition : Parser Node := do
  let (_, opened) ← expect .leftParen
  if !opened then return .absent
  skipNewlines
  let found ← rec .expression
  if found.isAbsent then
    let t ← peek
    complain (.missingCondition t.lexeme) t.span
  skipNewlines
  require .rightParen
  return found

def variableDeclaration (start : Position) (modifiers : Modifiers) : Parser Node := do
  let type := (← advance).kind.declaredType?.getD .dynamic
  let (name, found) ← expect .identifier
  if !found then
    synchronize
    return .variableDeclaration (← spanFrom start) modifiers "" type .absent
  if (← peekKind) = .assign then
    let _ ← advance
    skipNewlines
    let value ← orNull (← rec .expression) fun t => .missingInitializer t.lexeme
    let initial : Node := .assignment (← spanFrom name.span.first) .assign
      (.identifier name.span .absent name.lexeme) value
    return .variableDeclaration (← spanFrom start) modifiers name.lexeme type initial
  else
    return .variableDeclaration (← spanFrom start) modifiers name.lexeme type .absent

def functionDeclaration (start : Position) (modifiers : Modifiers) : Parser Node := do
  let _ ← advance
  let (name, found) ← expect .identifier
  if !found then
    synchronize
    return .functionDeclaration (← spanFrom start) modifiers "" [] (.tree .none [])
  let names ← params
  skipNewlines
  let block ← block rec
  return .functionDeclaration (← spanFrom start) modifiers name.lexeme names block

def addMember (members : Members) : Parser Members := do
  let t ← peek
  if beginsMember t.kind then
    let member ← rec .member
    skipSeparators
    return members.add member
  else
    complain (.strayMember t.lexeme) t.span
    let _ ← advance
    synchronize
    skipSeparators
    return members

def classDeclaration (start : Position) (modifiers : Modifiers) : Parser Node := do
  let _ ← advance
  let (name, found) ← expect .identifier
  if !found then
    synchronize
    return .classDeclaration (← spanFrom start) modifiers "" [] [] []
  skipNewlines
  let (_, opened) ← expect .leftBrace
  if !opened then
    synchronize
    return .classDeclaration (← spanFrom start) modifiers name.lexeme [] [] []
  skipSeparators
  let members ← loop insideBlock (addMember rec) {}
  require .rightBrace
  return .classDeclaration (← spanFrom start) modifiers name.lexeme members.fields members.methods
    members.classes

def declaration (inClass : Bool) : Parser Node := do
  let start := (← peek).span.first
  let modifiers ← modifiers inClass
  let t ← peek
  if t.kind.isTypeWord then variableDeclaration rec start modifiers
  else if t.kind = .functionWord then functionDeclaration rec start modifiers
  else if t.kind = .classWord then classDeclaration rec start modifiers
  else
    complain (.strayModifiers t.lexeme) t.span
    synchronize
    return .absent

/-- A branch, with the alternative if one follows. The search for it goes over line ends, which
    stay where they are if there is none. A branch right behind `else` is the alternative's only
    statement. -/
def branch : Parser Node := do
  let start ← advance
  let test ← condition rec
  let yes ← body rec
  let here ← get
  skipNewlines
  if (← peekKind) = .elseWord then
    let otherwise ← advance
    skipNewlines
    let no ←
      if (← peekKind) = .ifWord then do
        let inner ← rec .statement
        pure (.tree (← spanFrom otherwise.span.first) [inner])
      else body rec
    return .branch (← spanFrom start.span.first) test yes no
  else
    set here
    return .branch (← spanFrom start.span.first) test yes .absent

def whileLoop : Parser Node := do
  let start ← advance
  let test ← condition rec
  let inner ← body rec
  return .whileLoop (← spanFrom start.span.first) test inner

def doWhileLoop : Parser Node := do
  let start ← advance
  let inner ← body rec
  skipNewlines
  let (_, found) ← expect .whileWord
  let test ← if found then condition rec else pure .absent
  return .doWhileLoop (← spanFrom start.span.first) test inner

def forStart : Parser Node := do
  let t ← peek
  if t.kind = .semicolon then return .absent
  else if t.kind.isTypeWord then variableDeclaration rec t.span.first {}
  else rec .expression

def forPart (closing : Kind) : Parser Node := do
  if (← peekKind) = closing then return .absent else rec .expression

def forLoop : Parser Node := do
  let start ← advance
  let (_, opened) ← expect .leftParen
  if !opened then
    synchronize
    return .forLoop (← spanFrom start.span.first) .absent .absent .absent (.tree .none [])
  skipNewlines
  let first ← forStart rec
  require .semicolon
  skipNewlines
  let test ← forPart rec .semicolon
  require .semicolon
  skipNewlines
  let round ← forPart rec .rightParen
  skipNewlines
  require .rightParen
  let inner ← body rec
  return .forLoop (← spanFrom start.span.first) first test round inner

/-- An expression as a statement. A token that begins none is passed over in any case. -/
def expressionStatement : Parser Node := do
  let found ← rec .expression
  if found.isAbsent then
    let t ← peek
    complain (.unexpectedToken t.lexeme) t.span
    let _ ← advance
    synchronize
    return .absent
  else
    return found

def statement : Parser Node := do
  let t ← peek
  match t.kind with
  | .functionWord => functionDeclaration rec t.span.first {}
  | .classWord => classDeclaration rec t.span.first {}
  | .ifWord => branch rec
  | .whileWord => whileLoop rec
  | .doWord => doWhileLoop rec
  | .forWord => forLoop rec
  | kind =>
    if kind.isModifier || kind.isTypeWord then declaration rec false
    else expressionStatement rec

def rule : Goal → Parser Node
  | .statement => statement rec
  | .member => declaration rec true
  | .expression => expression rec
  | .operand power => operand rec power

end Rules

end ClassScript.Parser
