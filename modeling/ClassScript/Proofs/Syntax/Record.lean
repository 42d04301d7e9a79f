import ClassScript.Proofs.Syntax.Complete
import ClassScript.Syntax.Record

/-! # Trees read back from their records

The record of a tree loses nothing: `Node.ofRecord?` finds the tree in it again (`ofRecord?_record`), spans
included.  It asks for fields by their keys, so that their order does not matter, and takes a field that is
left out for an empty place or a modifier that is not set.  Only what a host puts in place of a known node,
operator or type cannot be told from other such things in its record.
-/

namespace ClassScript

/-! ## Words of the record -/

def BinaryOp.ofSymbol? (symbol : String) : Option BinaryOp := all.find? (·.symbol = symbol)

def AssignOp.ofSymbol? (symbol : String) : Option AssignOp := all.find? (·.symbol = symbol)

def DeclaredType.ofName? (name : String) : Option DeclaredType := all.find? (·.name = name)

def Access.ofName? (name : String) : Option Access :=
  [packageAccess, publicAccess, protectedAccess, privateAccess].find? (·.name = name)

theorem BinaryOp.ofSymbol?_symbol {op : BinaryOp} (known : op ≠ .unknown) :
    ofSymbol? op.symbol = some op := by
  cases op with
  | unknown => exact absurd rfl known
  | _ => rfl

theorem AssignOp.ofSymbol?_symbol {op : AssignOp} (known : op ≠ .unknown) :
    ofSymbol? op.symbol = some op := by
  cases op with
  | unknown => exact absurd rfl known
  | _ => rfl

theorem DeclaredType.ofName?_name {type : DeclaredType} (known : type ≠ .unknown) :
    ofName? type.name = some type := by
  cases type with
  | unknown => exact absurd rfl known
  | _ => rfl

@[simp] theorem Access.ofName?_name (access : Access) : ofName? access.name = some access := by
  cases access <;> rfl

/-! ## Leaves of the record -/

namespace Json

@[simp] def integer? : Json → Option Int
  | .integer value => some value
  | _ => none

@[simp] def double? : Json → Option Float
  | .double value => some value
  | _ => none

@[simp] def boolean? : Json → Option Bool
  | .boolean value => some value
  | _ => none

@[simp] def string? : Json → Option String
  | .string value => some value
  | _ => none

def strings? : Json → Option (List String)
  | .list items => items.mapM string?
  | _ => none

def field? (key : String) : Json → Option Json
  | .record fields => fields.lookup key
  | _ => none

theorem strings?_map_string (texts : List String) :
    strings? (.list (texts.map .string)) = some texts := by
  rw [strings?, List.mapM_map]
  change texts.mapM (fun text => pure (id text)) = some texts
  rw [List.mapM_pure, List.map_id]
  rfl

end Json

def Position.ofRecord? (document : Json) : Option Position := do
  return ⟨← (← document.field? "offset").integer?, ← (← document.field? "line").integer?,
    ← (← document.field? "column").integer?⟩

def Span.ofRecord? (document : Json) : Option Span := do
  return ⟨← Position.ofRecord? (← document.field? "start"), ← Position.ofRecord? (← document.field? "end")⟩

@[simp] theorem Position.ofRecord?_record (p : Position) : ofRecord? p.record = some p := by
  simp [ofRecord?, record, Json.field?, List.lookup_cons]

@[simp] theorem Span.ofRecord?_record (s : Span) : ofRecord? s.record = some s := by
  simp [ofRecord?, record, Json.field?, List.lookup_cons]

namespace Node

/-! ## Reading a record -/

structure Part where
  value : Json
  node? : Option Node
  nodes? : Option (List Node)

section Assemble

variable (parts : List (String × Part))

@[simp] def textAt? (key : String) : Option String := do (← parts.lookup key).value.string?

@[simp] def nodeAt? (key : String) : Option Node := do (← parts.lookup key).node?

@[simp] def nodesAt? (key : String) : Option (List Node) := do (← parts.lookup key).nodes?

@[simp] def optionalAt? (key : String) : Option Node := ((parts.lookup key).map (·.node?)).getD (some .absent)

@[simp] def spanAt? : Option Span := do Span.ofRecord? (← parts.lookup "span").value

@[simp] def modifiersAt? : Option Modifiers := do
  return ⟨← Access.ofName? (← textAt? parts "access"), (parts.lookup "inClass").isSome, (parts.lookup "static").isSome,
    (parts.lookup "final").isSome⟩

def ofKind? (kind : String) : Option Node :=
  if kind = "Tree" then do return .tree (← spanAt? parts) (← nodesAt? parts "children")
  else if kind = "Integer" then do return .integer (← spanAt? parts) (.ofInt (← (← parts.lookup "value").value.integer?))
  else if kind = "Double" then do return .double (← spanAt? parts) (← (← parts.lookup "value").value.double?)
  else if kind = "Bool" then do return .boolean (← spanAt? parts) (← (← parts.lookup "value").value.boolean?)
  else if kind = "Null" then do return .null (← spanAt? parts)
  else if kind = "Binary" then do
    return .binary (← spanAt? parts) (← BinaryOp.ofSymbol? (← textAt? parts "op")) (← nodeAt? parts "left")
      (← nodeAt? parts "right")
  else if kind = "Identifier" then do
    return .identifier (← spanAt? parts) (← optionalAt? parts "parent") (← textAt? parts "name")
  else if kind = "VariableUsage" then do return .usage (← spanAt? parts) (← nodeAt? parts "variable")
  else if kind = "Assignment" then do
    return .assignment (← spanAt? parts) (← AssignOp.ofSymbol? (← textAt? parts "op"))
      (← nodeAt? parts "variable") (← optionalAt? parts "value")
  else if kind = "FunctionCall" then do
    return .call (← spanAt? parts) (← nodeAt? parts "function") (← nodesAt? parts "args")
  else if kind = "New" then do
    return .instantiation (← spanAt? parts) (← nodeAt? parts "class") (← nodesAt? parts "args")
  else if kind = "VariableDeclaration" then do
    return .variableDeclaration (← spanAt? parts) (← modifiersAt? parts) (← textAt? parts "name")
      (← DeclaredType.ofName? (← textAt? parts "type")) (← optionalAt? parts "assignment")
  else if kind = "While" then do
    return .whileLoop (← spanAt? parts) (← nodeAt? parts "condition") (← nodeAt? parts "body")
  else if kind = "DoWhile" then do
    return .doWhileLoop (← spanAt? parts) (← nodeAt? parts "condition") (← nodeAt? parts "body")
  else if kind = "For" then do
    return .forLoop (← spanAt? parts) (← optionalAt? parts "declaration") (← optionalAt? parts "condition")
      (← optionalAt? parts "round") (← nodeAt? parts "body")
  else if kind = "If" then do
    return .branch (← spanAt? parts) (← nodeAt? parts "condition") (← nodeAt? parts "body")
      (← optionalAt? parts "elseBody")
  else if kind = "FunctionDeclaration" then do
    return .functionDeclaration (← spanAt? parts) (← modifiersAt? parts) (← textAt? parts "name")
      (← (← parts.lookup "params").value.strings?) (← nodeAt? parts "body")
  else if kind = "ClassDeclaration" then do
    return .classDeclaration (← spanAt? parts) (← modifiersAt? parts) (← textAt? parts "name")
      (← nodesAt? parts "fields") (← nodesAt? parts "methods") (← nodesAt? parts "classes")
  else none

/-- The node with some fields; the kind among them tells which others there are. -/
def assemble? : Option Node := do ofKind? parts (← textAt? parts "kind")

end Assemble

mutual

def ofRecord? : Json → Option Node
  | .null => some .absent
  | .record fields => assemble? (partsOf fields)
  | _ => none

def ofRecords? : Json → Option (List Node)
  | .list items => ofItems? items
  | _ => none

def ofItems? : List Json → Option (List Node)
  | [] => some []
  | item :: rest => do return (← ofRecord? item) :: (← ofItems? rest)

def partsOf : List (String × Json) → List (String × Part)
  | [] => []
  | (key, value) :: rest => (key, ⟨value, ofRecord? value, ofRecords? value⟩) :: partsOf rest

end

@[simp] theorem lookup_partsOf (fields : List (String × Json)) (key : String) :
    (partsOf fields).lookup key =
      (fields.lookup key).map fun value => ⟨value, ofRecord? value, ofRecords? value⟩ := by
  induction fields with
  | nil => rfl
  | cons field rest ih =>
    obtain ⟨own, value⟩ := field
    rw [partsOf, List.lookup_cons, List.lookup_cons, ih]
    split <;> rfl

/-! ## Fields that may be left out -/

@[simp] theorem lookup_optional (key own : String) (part : Node) (value : Json) :
    (optional own part value).lookup key =
      if key = own ∧ part.isAbsent = false then some value else none := by
  rw [optional]
  cases part.isAbsent with
  | true => simp
  | false => by_cases same : key = own <;> simp [List.lookup_cons, same, beq_eq_false_iff_ne.2]

@[simp] theorem lookup_flag (key own : String) (set : Bool) :
    (flag own set).lookup key = if key = own ∧ set = true then some (.boolean true) else none := by
  rw [flag]
  cases set with
  | false => simp
  | true => by_cases same : key = own <;> simp [List.lookup_cons, same, beq_eq_false_iff_ne.2]

/-! ## Trees of known nodes -/

@[simp] def isKnown : Node → Bool
  | .foreign .. => false
  | .binary _ op _ _ => op ≠ .unknown
  | .assignment _ op _ _ => op ≠ .unknown
  | .variableDeclaration _ _ _ type _ => type ≠ .unknown
  | _ => true

def Known (t : Node) : Prop := t.Throughout (·.isKnown)

theorem ofItems?_records {nodes : List Node} (each : ∀ n ∈ nodes, ofRecord? n.record = some n) :
    ofItems? (records nodes) = some nodes := by
  induction nodes with
  | nil => rfl
  | cons n rest ih =>
    obtain ⟨first, others⟩ := List.forall_mem_cons.1 each
    simp [records, ofItems?, first, ih others]

theorem isSome_flag {α : Type} (set : Bool) (a : α) : (if set = true then some a else none).isSome = set := by
  cases set <;> rfl

/-- A field that is there only if its part is shows the part in either case. -/
theorem getD_optional {n : Node} (back : ofRecord? n.record = some n) :
    (if n.isAbsent = false then some (ofRecord? n.record) else none).getD (some .absent) = some n := by
  cases n with
  | absent => rfl
  | _ => exact back

theorem ofRecord?_record {n : Node} (known : n.Known) : ofRecord? n.record = some n := by
  -- Each case looks up the fields that the kind of the node has, among all those of its record.
  induction n using induct with
  | absent => rfl
  | foreign => exact absurd known.own (by simp)
  | integer | double | boolean | null => simp [record, ofRecord?, assemble?, ofKind?, List.lookup_cons]
  | tree span children each =>
    have all := ofItems?_records fun n below => each n below (known.part below)
    simp [record, ofRecord?, ofRecords?, assemble?, ofKind?, List.lookup_cons, all]
  | binary span op left right ofLeft ofRight =>
    have knownOp := BinaryOp.ofSymbol?_symbol (by simpa using known.own)
    have back := ofLeft (known.part (by simp [parts]))
    have back' := ofRight (known.part (by simp [parts]))
    simp [record, ofRecord?, assemble?, ofKind?, List.lookup_cons, knownOp, back, back']
  | identifier span parent name ofParent =>
    have back := getD_optional (ofParent (known.part (by simp [parts])))
    simp [record, ofRecord?, assemble?, ofKind?, List.lookup_cons, List.lookup_append, back]
  | usage span target ofTarget =>
    have back := ofTarget (known.part (by simp [parts]))
    simp [record, ofRecord?, assemble?, ofKind?, List.lookup_cons, back]
  | assignment span op target value ofTarget ofValue =>
    have knownOp := AssignOp.ofSymbol?_symbol (by simpa using known.own)
    have back := ofTarget (known.part (by simp [parts]))
    have back' := getD_optional (ofValue (known.part (by simp [parts])))
    simp [record, ofRecord?, assemble?, ofKind?, List.lookup_cons, List.lookup_append, knownOp, back, back']
  | call span callee arguments ofCallee each =>
    have back := ofCallee (known.part (by simp [parts]))
    have all := ofItems?_records fun n below => each n below (known.part (by simp [parts, below]))
    simp [record, ofRecord?, ofRecords?, assemble?, ofKind?, List.lookup_cons, back, all]
  | instantiation span blueprint arguments ofBlueprint each =>
    have back := ofBlueprint (known.part (by simp [parts]))
    have all := ofItems?_records fun n below => each n below (known.part (by simp [parts, below]))
    simp [record, ofRecord?, ofRecords?, assemble?, ofKind?, List.lookup_cons, back, all]
  | variableDeclaration span modifiers name type initial ofInitial =>
    have knownType := DeclaredType.ofName?_name (by simpa using known.own)
    have back := getD_optional (ofInitial (known.part (by simp [parts])))
    simp [record, ofRecord?, assemble?, ofKind?, List.lookup_cons, List.lookup_append, isSome_flag, knownType, back]
  | whileLoop span condition body ofCondition ofBody =>
    have back := ofCondition (known.part (by simp [parts]))
    have back' := ofBody (known.part (by simp [parts]))
    simp [record, ofRecord?, assemble?, ofKind?, List.lookup_cons, back, back']
  | doWhileLoop span condition body ofCondition ofBody =>
    have back := ofCondition (known.part (by simp [parts]))
    have back' := ofBody (known.part (by simp [parts]))
    simp [record, ofRecord?, assemble?, ofKind?, List.lookup_cons, back, back']
  | forLoop span declaration condition round body ofDeclaration ofCondition ofRound ofBody =>
    have first := getD_optional (ofDeclaration (known.part (by simp [parts])))
    have test := getD_optional (ofCondition (known.part (by simp [parts])))
    have last := getD_optional (ofRound (known.part (by simp [parts])))
    have back := ofBody (known.part (by simp [parts]))
    simp [record, ofRecord?, assemble?, ofKind?, List.lookup_cons, List.lookup_append, first, test, last, back]
  | branch span condition body alternative ofCondition ofBody ofAlternative =>
    have back := ofCondition (known.part (by simp [parts]))
    have back' := ofBody (known.part (by simp [parts]))
    have otherwise := getD_optional (ofAlternative (known.part (by simp [parts])))
    simp [record, ofRecord?, assemble?, ofKind?, List.lookup_cons, List.lookup_append, back, back', otherwise]
  | functionDeclaration span modifiers name params body ofBody =>
    have back := ofBody (known.part (by simp [parts]))
    simp [record, ofRecord?, assemble?, ofKind?, List.lookup_cons, List.lookup_append, isSome_flag, back,
      Json.strings?_map_string]
  | classDeclaration span modifiers name fields methods classes eachField eachMethod eachClass =>
    have allFields := ofItems?_records fun n below => eachField n below (known.part (by simp [parts, below]))
    have allMethods := ofItems?_records fun n below => eachMethod n below (known.part (by simp [parts, below]))
    have allClasses := ofItems?_records fun n below => eachClass n below (known.part (by simp [parts, below]))
    simp [record, ofRecord?, ofRecords?, assemble?, ofKind?, List.lookup_cons, List.lookup_append, isSome_flag, allFields,
      allMethods, allClasses]

/-- Trees of known nodes with equal records are equal, spans included. -/
theorem record_injective {a b : Node} (known : a.Known) (known' : b.Known) (same : a.record = b.record) :
    a = b := by
  have fromA : ofRecord? a.record = some a := ofRecord?_record known
  have fromB : ofRecord? b.record = some b := ofRecord?_record known'
  rw [same, fromB] at fromA
  exact (Option.some.inj fromA).symm

-- A node of the host shows nothing of itself, so that two of them have one record.
example : (foreign .none "Left").record = (foreign .none "Right").record := rfl

def bareLoop (condition : Node) : Node :=
  .forLoop ⟨⟨0, 1, 1⟩, ⟨14, 1, 15⟩⟩ .absent condition .absent (.tree ⟨⟨12, 1, 13⟩, ⟨14, 1, 15⟩⟩ [])

theorem record_injective_bareLoop :
    let place : Span := ⟨⟨6, 1, 7⟩, ⟨8, 1, 9⟩⟩
    let folded := bareLoop (.integer place (-5))
    let computed := bareLoop (Parser.negate place (.integer ⟨⟨7, 1, 8⟩, ⟨8, 1, 9⟩⟩ 5))
    folded.Known ∧ computed.Known ∧ folded.record = computed.record ∧ folded = computed := by
  intro place folded computed
  have known : folded.Known := throughout_of_passesWithin (show passesWithin isKnown 2 folded from rfl)
  have known' : computed.Known := throughout_of_passesWithin (show passesWithin isKnown 2 computed from rfl)
  have same : folded.record = computed.record := rfl
  exact ⟨known, known', same, record_injective known known' same⟩

end Node

end ClassScript
