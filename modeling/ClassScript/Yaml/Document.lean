import ClassScript.Yaml.Node
import ClassScript.Yaml.Token.Stream

/-! # Documents of YAML

The first document of a text, read from its tokens. Nothing after it is looked at but what follows
it directly.
-/

namespace ClassScript.Yaml

inductive Target
  | node (node : Node)
  /-- A collection that is still being read, with a number of its own. -/
  | unfinished (number : Nat) (isMapping : Bool) (line : Nat) (tag : String)
  deriving Repr, Inhabited

structure Composition where
  /-- The tokens to come. -/
  tokens : List Token
  /-- What is wrong after them. -/
  problem : Option Problem
  /-- What was noticed to be wrong with the text by the tokens that were looked at. -/
  noticed : Option Cause
  handles : List Handle
  /-- What names refer to, the latest first. -/
  targets : List (String × Target)
  /-- How many collections with a name were begun. -/
  begun : Nat
  deriving Repr, Inhabited

abbrev Compose := StateT Composition (Except Problem)

namespace Compose

/-- Fail within something that begins on line `start`, at a token on line `here`. -/
def fail {α : Type} (start here : Nat) (cause : Cause) : Compose α :=
  throw (.inStructure start here cause)

def peek : Compose Token := do
  let c ← get
  match c.tokens, c.problem with
  | token :: _, _ =>
    set { c with noticed := token.noticed }
    return token
  | [], some problem => throw problem
  | [], none => return { kind := .streamEnd, line := 0 }

def advance : Compose Unit := modify fun c => { c with tokens := c.tokens.tail }

/-- Fail if something was noticed to be wrong with the text. This is the time for it after every
    part of the structure: the beginning and the end of a collection, or a node that is none. -/
def ensureSound : Compose Unit := do
  match (← get).noticed with
  | none => return ()
  | some cause => throw { cause }

/-! ## Names -/

def refer (line : Nat) (name : String) : Compose Node := do
  ensureSound
  match (← get).targets.lookup name with
  | none => throw { cause := .unknownAnchor name }
  | some (.node node) => return .reference line name node
  | some (.unfinished _ isMapping targetLine tag) =>
    return .loop line name isMapping targetLine tag

def named (name : Option String) (node : Node) : Compose Node := do
  ensureSound
  match name with
  | none => return node
  | some name =>
    modify fun c => { c with targets := (name, .node node) :: c.targets }
    return node

/-- Read a collection. If it has a name, that refers to it from its beginning. -/
def collection (name : Option String) (isMapping : Bool) (line : Nat) (tag : String)
    (content : Compose Node) : Compose Node := do
  ensureSound
  match name with
  | none =>
    let node ← content
    ensureSound
    return node
  | some name =>
    let number := (← get).begun
    modify fun c =>
      { c with
        begun := number + 1
        targets := (name, .unfinished number isMapping line tag) :: c.targets }
    let node ← content
    ensureSound
    modify fun c =>
      { c with
        targets := c.targets.map fun (name, target) =>
          match target with
          | .unfinished other _ _ _ => (name, if other = number then .node node else target)
          | .node _ => (name, target) }
    return node

/-! ## Tags and names before a node -/

structure Properties where
  /-- The line where the node begins, from its properties on. -/
  start : Nat
  anchor : Option String := none
  /-- The handle of the tag, the rest of it, and its line. -/
  tag : Option (String × String × Nat) := none
  deriving DecidableEq, Repr, Inhabited

def takeAnchor (p : Properties) : Compose Properties := do
  match (← peek).kind with
  | .anchor name =>
    advance
    return { p with anchor := some name }
  | _ => return p

def takeTag (p : Properties) : Compose Properties := do
  let token ← peek
  match token.kind with
  | .tag handle suffix =>
    advance
    return { p with tag := some (handle, suffix, token.line) }
  | _ => return p

def properties : Compose Properties := do
  let start := (← peek).line
  let p ← takeAnchor { start }
  let p ← takeTag p
  if p.anchor.isNone && p.tag.isSome then takeAnchor p else return p

def standard : String := "tag:yaml.org,2002:"

def shorten (tag : String) : String :=
  if standard.toList.isPrefixOf tag.toList then
    "!!" ++ String.ofList (tag.toList.drop standard.length)
  else tag

/-- The short name of the tag that is written before a node. A lone exclamation mark is none. -/
def tagOf (p : Properties) : Compose (Option String) := do
  match p.tag with
  | none => return none
  | some (handle, suffix, line) =>
    let full ←
      if handle.isEmpty then pure suffix
      else match (← get).handles.find? (·.name = handle) with
        | some known => pure (known.meaning ++ suffix)
        | none => fail p.start line .undefinedHandle
    return if full = "!" then none else some (shorten full)

/-! ## Nodes -/

def emptyNode (token : Token) : Compose Node := do
  ensureSound
  return .empty (token.line + 1)

def endsEntry (kind : TokenKind) : Bool :=
  kind = .key || kind = .value || kind = .blockEnd

mutual

/-- Read a node. Outside of brackets it may be a collection that is written by indentation, and the
    value of an entry may be a sequence that is not indented further. -/
def node (block indentless : Bool) : (fuel : Nat) → Compose Node
  | 0 => throw { cause := .missingContent }
  | fuel + 1 => do
    let token ← peek
    match token.kind with
    | .reference name =>
      advance
      refer (token.line + 1) name
    | _ =>
      let p ← properties
      let token ← peek
      let tag ← tagOf p
      let line := p.start + 1
      let sequenceTag := tag.getD "!!seq"
      let mappingTag := tag.getD "!!map"
      match token.kind with
      | .scalar text plain =>
        advance
        named p.anchor (.scalar { line, text, plain, written := tag })
      | .flowSequenceStart =>
        advance
        collection p.anchor false line sequenceTag do
          return .sequence line sequenceTag (← flowItems token.line true [] fuel)
      | .flowMappingStart =>
        advance
        collection p.anchor true line mappingTag do
          return .mapping line mappingTag (← flowEntries token.line true [] fuel)
      | kind =>
        if kind = .blockEntry && indentless then
          collection p.anchor false line sequenceTag do
            return .sequence line sequenceTag (← indentlessItems [] fuel)
        else if kind = .blockSequenceStart && block then
          advance
          collection p.anchor false line sequenceTag do
            return .sequence line sequenceTag (← blockItems token.line [] fuel)
        else if kind = .blockMappingStart && block then
          advance
          collection p.anchor true line mappingTag do
            return .mapping line mappingTag (← blockEntries token.line [] fuel)
        else if p.anchor.isSome || p.tag.isSome then
          named p.anchor (.scalar { line, text := "", plain := true, written := tag })
        else fail p.start token.line .missingContent
  termination_by structural fuel => fuel

/-- Read the items of a sequence that is written by indentation, after those read so far, which are
    reversed. -/
def blockItems (start : Nat) (items : List Node) : (fuel : Nat) → Compose (List Node)
  | 0 => return items.reverse
  | fuel + 1 => do
    let token ← peek
    match token.kind with
    | .blockEntry =>
      advance
      let following := (← peek).kind
      let item ←
        if following = .blockEntry || following = .blockEnd then emptyNode token
        else node true false fuel
      blockItems start (item :: items) fuel
    | .blockEnd =>
      advance
      return items.reverse
    | _ => fail start token.line .missingDash
  termination_by structural fuel => fuel

def indentlessItems (items : List Node) : (fuel : Nat) → Compose (List Node)
  | 0 => return items.reverse
  | fuel + 1 => do
    let token ← peek
    match token.kind with
    | .blockEntry =>
      advance
      let following := (← peek).kind
      let item ←
        if following = .blockEntry || endsEntry following then emptyNode token
        else node true false fuel
      indentlessItems (item :: items) fuel
    | _ => return items.reverse
  termination_by structural fuel => fuel

def blockEntries (start : Nat) (entries : List (Node × Node)) : (fuel : Nat) →
    Compose (List (Node × Node))
  | 0 => return entries.reverse
  | fuel + 1 => do
    let token ← peek
    match token.kind with
    | .key =>
      advance
      let key ←
        if endsEntry (← peek).kind then emptyNode token else node true true fuel
      let token ← peek
      let value ←
        if token.kind = .value then do
          advance
          if endsEntry (← peek).kind then emptyNode token else node true true fuel
        else emptyNode token
      blockEntries start ((key, value) :: entries) fuel
    | .blockEnd =>
      advance
      return entries.reverse
    | _ => fail start token.line .missingKey
  termination_by structural fuel => fuel

def flowItems (start : Nat) (first : Bool) (items : List Node) : (fuel : Nat) →
    Compose (List Node)
  | 0 => return items.reverse
  | fuel + 1 => do
    let token ← peek
    if token.kind = .flowEntry && !first then advance
    else if token.kind ≠ .flowSequenceEnd && !first then fail start token.line .openSequence
    let token ← peek
    match token.kind with
    | .flowSequenceEnd =>
      advance
      return items.reverse
    | .key =>
      advance
      ensureSound
      let entry ← flowPair fuel
      flowItems start false (.mapping (token.line + 1) "!!map" [entry] :: items) fuel
    | _ =>
      let item ← node false false fuel
      flowItems start false (item :: items) fuel
  termination_by structural fuel => fuel

/-- Read a single entry that is an item of a sequence in brackets. A mark where its key should be is
    passed over. -/
def flowPair : (fuel : Nat) → Compose (Node × Node)
  | 0 => throw { cause := .missingContent }
  | fuel + 1 => do
    let ends := fun kind : TokenKind => kind = .flowEntry || kind = .flowSequenceEnd
    let token ← peek
    let key ←
      if token.kind = .value || ends token.kind then do
        advance
        emptyNode token
      else node false false fuel
    let token ← peek
    let value ←
      if token.kind = .value then do
        advance
        if ends (← peek).kind then emptyNode token else node false false fuel
      else emptyNode token
    return (key, value)
  termination_by structural fuel => fuel

def flowEntries (start : Nat) (first : Bool) (entries : List (Node × Node)) : (fuel : Nat) →
    Compose (List (Node × Node))
  | 0 => return entries.reverse
  | fuel + 1 => do
    let ends := fun kind : TokenKind => kind = .flowEntry || kind = .flowMappingEnd
    let token ← peek
    if token.kind = .flowEntry && !first then advance
    else if token.kind ≠ .flowMappingEnd && !first then fail start token.line .openMapping
    let token ← peek
    match token.kind with
    | .flowMappingEnd =>
      advance
      return entries.reverse
    | .key =>
      advance
      let token ← peek
      let key ←
        if token.kind = .value || ends token.kind then emptyNode token
        else node false false fuel
      let token ← peek
      let value ←
        if token.kind = .value then do
          advance
          if ends (← peek).kind then emptyNode token else node false false fuel
        else emptyNode token
      flowEntries start false ((key, value) :: entries) fuel
    | _ =>
      let key ← node false false fuel
      let value ← emptyNode (← peek)
      flowEntries start false ((key, value) :: entries) fuel
  termination_by structural fuel => fuel

end

/-! ## Documents -/

def defaultHandles : List Handle := [⟨"!", "!"⟩, ⟨"!!", standard⟩]

def isOutside : TokenKind → Bool
  | .version _ _ | .handle _ | .documentStart | .documentEnd | .streamEnd => true
  | _ => false

/-- Take the directives before a document; `versioned` tells whether a version was given. -/
def directives (versioned : Bool) : (fuel : Nat) → Compose Unit
  | 0 => return ()
  | fuel + 1 => do
    let token ← peek
    match token.kind with
    | .version major minor =>
      if versioned then fail 0 token.line .repeatedVersion
      if major ≠ 1 || minor ≠ 1 then fail 0 token.line .incompatibleVersion
      advance
      directives true fuel
    | .handle handle =>
      if (← get).handles.any (·.name = handle.name) then fail 0 token.line .repeatedHandle
      modify fun c => { c with handles := c.handles ++ [handle] }
      advance
      directives versioned fuel
    | _ => modify fun c => { c with handles := c.handles ++ defaultHandles }

def document (fuel : Nat) : Compose (Option Node) := do
  let _ ← peek
  advance
  ensureSound
  let token ← peek
  match token.kind with
  | .streamEnd =>
    ensureSound
    return none
  | kind =>
    let root ←
      if isOutside kind && kind ≠ .documentEnd then do
        directives false fuel
        let token ← peek
        if token.kind ≠ .documentStart then fail 0 token.line .missingDocument
        advance
        ensureSound
        let token ← peek
        if isOutside token.kind then emptyNode token else node true false fuel
      else do
        directives false fuel
        ensureSound
        node true false fuel
    let _ ← peek
    ensureSound
    return some root

end Compose

def read (bytes : List UInt8) : Except Problem (Option Node) :=
  let stream := TokenStream.ofSource (.ofBytes bytes)
  let fuel := 2 * stream.tokens.length + 4
  match Compose.document fuel ⟨stream.tokens, stream.problem, none, [], [], 0⟩ with
  | .error problem => .error problem
  | .ok (document, _) => .ok document

end ClassScript.Yaml
