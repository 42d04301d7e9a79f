import ClassScript.Settings
import ClassScript.Yaml.Document

/-! # Settings files in YAML

A settings file gives values to the settings it names and leaves the others alone; so does a null
value. A mapping can be merged into the file, for the settings that the file itself does not name.
All that is wrong with the types in a file is reported together. References could make a small file
a huge one, so no more than a share of the nodes may be read through them.
-/

namespace ClassScript

namespace Settings

inductive Mismatch
  | unknownField (line : Nat) (name : String)
  /-- A field that was set under another key. -/
  | repeatedField (line : Nat) (name : String)
  | repeatedKey (line : Nat) (name : String) (firstLine : Nat)
  /-- A node of one type where another is needed. -/
  | wrongType (line : Nat) (tag text needed : String)
  deriving DecidableEq, Repr, Inhabited

/-- The characters of a text that begin within the first `budget` bytes. One that ends beyond them
    leaves a replacement character for each of its bytes within. -/
def cut : (budget : Nat) → List Char → List Char
  | _, [] => []
  | budget, c :: rest =>
    if c.utf8Size ≤ budget then c :: cut (budget - c.utf8Size) rest
    else List.replicate budget (Char.ofNat 0xfffd)

/-- A text as a message quotes it: no more than ten bytes of it. -/
def excerpt (text : String) : String :=
  if 10 < text.utf8ByteSize then String.ofList (cut 7 text.toList) ++ "..." else text

def typeName : String := "config.Config"

/-- The wording of a mismatch. Only what is tagged as no collection is quoted. -/
def Mismatch.message : Mismatch → String
  | .unknownField line name => s!"line {line}: field {name} not found in type {typeName}"
  | .repeatedField line name => s!"line {line}: field {name} already set in type {typeName}"
  | .repeatedKey line name firstLine =>
    s!"line {line}: mapping key {Text.quote name} already defined at line {firstLine}"
  | .wrongType line tag text needed =>
    let shown :=
      if tag = "!!seq" || tag = "!!map" then text else s!" \x60{excerpt text}\x60"
    s!"line {line}: cannot unmarshal {tag}{shown} into {needed}"

def repeatedKeys : List Yaml.Node → List Mismatch
  | [] => []
  | key :: rest =>
    (rest.filter fun again => again.kind = key.kind && again.text = key.text).map
      (fun again => .repeatedKey again.line again.text key.line)
      ++ repeatedKeys rest

/-! ## Values -/

inductive Outcome (α : Type)
  | value (value : α)
  /-- The node is null. -/
  | absent
  | mismatch (mismatches : List Mismatch)
  deriving DecidableEq, Repr, Inhabited

def outcome {α : Type} (needed : String) (convert? : Yaml.Scalar → Yaml.Value → Option α) :
    Yaml.Node → Except Yaml.Cause (Outcome α)
  | .scalar s => do
    match ← s.value with
    | .null => return .absent
    | value =>
      match convert? s value with
      | some value => return .value value
      | none => return .mismatch [.wrongType s.line s.tag s.text needed]
  | .sequence line tag _ => return .mismatch [.wrongType line tag "" needed]
  | .mapping line tag entries =>
    let repeated := repeatedKeys (entries.map (·.1))
    return .mismatch (if repeated.isEmpty then [.wrongType line tag "" needed] else repeated)
  | .reference _ _ target => outcome needed convert? target
  | .loop _ _ _ line tag => return .mismatch [.wrongType line tag "" needed]

def textOf? (s : Yaml.Scalar) : Yaml.Value → Option String
  | .string text => some text
  | _ => some s.text

/-- The truth value of a scalar. Some words for yes and no count too. -/
def truthOf? (_ : Yaml.Scalar) : Yaml.Value → Option Bool
  | .boolean value => some value
  | .string text =>
    if ["y", "Y", "yes", "Yes", "YES", "on", "On", "ON"].contains text then some true
    else if ["n", "N", "no", "No", "NO", "off", "Off", "OFF"].contains text then some false
    else none
  | _ => none

def string (node : Yaml.Node) : Except Yaml.Cause (Outcome String) :=
  outcome "string" textOf? node

def truth (node : Yaml.Node) : Except Yaml.Cause (Outcome Bool) := outcome "bool" truthOf? node

/-! ## Entries -/

def Field.ofName? : String → Option Field
  | "log_level" => some .logLevel
  | "short_circuit" => some .shortCircuit
  | "encoding" => some .encoding
  | "history_file" => some .historyFile
  | _ => none

structure Reads where
  all : Nat
  /-- Those that were read by following a reference. -/
  referred : Nat
  deriving DecidableEq, Repr, Inhabited

/-- Whether too many of the nodes were read by following references. The share that may be is 99 of
    100 for up to `low` nodes, 10 of 100 for `high` nodes and more, and goes down evenly between. -/
def Reads.tooManyReferred (r : Reads) : Bool :=
  let low := 400000
  let high := 4000000
  let share := 99 * (high - low) - 89 * (min r.all high - low)
  1000 < r.all && 100 < r.referred && share * r.all < 100 * (high - low) * r.referred

structure Overlay where
  settings : Settings
  /-- What is wrong with the types so far. -/
  mismatches : List Mismatch := []
  /-- The keys that a mapping cannot set any more, if it is being merged. -/
  taken : Option (List String) := none
  reads : Reads := ⟨0, 0⟩
  /-- Whether a reference is being followed. -/
  following : Bool := false
  deriving DecidableEq, Repr, Inhabited

namespace Overlay

def report (o : Overlay) (mismatches : List Mismatch) : Overlay :=
  { o with mismatches := o.mismatches ++ mismatches }

def use {α : Type} (o : Overlay) (set : α → Settings) : Outcome α → Overlay
  | .value value => { o with settings := set value }
  | .absent => o
  | .mismatch mismatches => o.report mismatches

def count (o : Overlay) : Except Yaml.Cause Overlay :=
  let reads : Reads :=
    ⟨o.reads.all + 1, if o.following then o.reads.referred + 1 else o.reads.referred⟩
  if reads.tooManyReferred then .error .tooManyReferences else .ok { o with reads }

def follow (o : Overlay) : Except Yaml.Cause Overlay := do
  let o ← o.count
  { o with following := true }.count

def countFor (o : Overlay) (node : Yaml.Node) : Except Yaml.Cause Overlay :=
  if node.kind = .reference then do
    return { ← o.follow with following := o.following }
  else o.count

def countKeys (o : Overlay) (keys : List Yaml.Node) : Except Yaml.Cause Overlay :=
  if keys.any (·.isMerge) && o.taken.isNone then keys.foldlM countFor o else .ok o

def apply (o : Overlay) (field : Field) (node : Yaml.Node) : Except Yaml.Cause Overlay := do
  let o ← o.countFor node
  match field with
  | .logLevel => return o.use (fun logLevel => { o.settings with logLevel }) (← string node)
  | .shortCircuit =>
    return o.use (fun shortCircuit => { o.settings with shortCircuit }) (← truth node)
  | .encoding => return o.use (fun encoding => { o.settings with encoding }) (← string node)
  | .historyFile =>
    return o.use (fun historyFile => { o.settings with historyFile }) (← string node)

def isTaken (o : Overlay) (name : String) : Bool := o.taken.any (·.contains name)

/-- Apply the entries of a mapping in order; `done` are the settings that it has set so far. -/
def entries (o : Overlay) (done : List Field) : List (Yaml.Node × Yaml.Node) →
    Except Yaml.Cause Overlay
  | [] => return o
  | (key, value) :: rest => do
    if key.isMerge then o.entries done rest
    else
      let o ← o.countFor key
      match ← string key with
      | .absent => o.entries done rest
      | .mismatch mismatches => (o.report mismatches).entries done rest
      | .value name =>
        if o.isTaken name then o.entries done rest
        else
          let o := { o with taken := o.taken.map (name :: ·) }
          match Field.ofName? name with
          | none => (o.report [.unknownField key.line name]).entries done rest
          | some field =>
            if done.contains field then
              (o.report [.repeatedField key.line name]).entries done rest
            else
              let o ← o.apply field value
              o.entries (field :: done) rest

def keyText? : Yaml.Node → Option String
  | .scalar s =>
    match s.value with
    | .ok (.string text) => some text
    | _ => none
  | .reference _ _ target => keyText? target
  | _ => none

mutual

/-- Apply a mapping: its entries, and what is merged into it for the keys it does not have. With a
    repeated key, none of it is applied. -/
def mapping (o : Overlay) (all : List (Yaml.Node × Yaml.Node)) : Except Yaml.Cause Overlay := do
  let repeated := repeatedKeys (all.map (·.1))
  if repeated.isEmpty then
    let o ← o.entries [] all
    let o ← o.countKeys (all.map (·.1))
    let own := all.filterMap fun (key, _) => keyText? key
    let merged ← merges { o with taken := o.taken.or (some own) } all
    return { merged with taken := o.taken.bind fun _ => merged.taken }
  else return o.report repeated
  termination_by (sizeOf all, 1)

def merges (o : Overlay) : List (Yaml.Node × Yaml.Node) → Except Yaml.Cause Overlay
  | [] => return o
  | (key, value) :: rest => do
    if key.isMerge then (← o.merge value).merges rest else o.merges rest
  termination_by all => (sizeOf all, 0)

def merge (o : Overlay) : Yaml.Node → Except Yaml.Cause Overlay
  | .sequence _ _ items => o.mergeEach items
  | node => o.mergeOne node
  termination_by node => (sizeOf node, 1)

def mergeOne (o : Overlay) : Yaml.Node → Except Yaml.Cause Overlay
  | .mapping _ _ entries => do (← o.count).mapping entries
  | .reference _ _ (.mapping _ _ entries) => do
    return { ← (← o.follow).mapping entries with following := o.following }
  | .loop _ name true _ _ => .error (.selfReference name)
  | _ => .error .mergeValue
  termination_by node => (sizeOf node, 0)

/-- Merge mappings, the first ones winning. -/
def mergeEach (o : Overlay) : List Yaml.Node → Except Yaml.Cause Overlay
  | [] => return o
  | item :: rest => do (← o.mergeOne item).mergeEach rest
  termination_by items => (sizeOf items, 0)

end

end Overlay

/-- Apply a document. The answer holds what is wrong with its types, too. -/
def applyDocument (settings : Settings) :
    Yaml.Node → Except Yaml.Cause (Settings × List Mismatch)
  | .mapping _ _ entries => do
    let o ← (← (← Overlay.count { settings }).count).mapping entries
    return (o.settings, o.mismatches)
  | node => do
    match ← outcome typeName (fun _ _ => (none : Option Empty)) node with
    | .mismatch mismatches => return (settings, mismatches)
    | _ => return (settings, [])

def illTyped (mismatches : List Mismatch) : FormatError :=
  .refused ("yaml: unmarshal errors:\n  " ++ "\n  ".intercalate (mismatches.map Mismatch.message))

def yaml : Format := fun bytes settings =>
  let malformed := fun (problem : Yaml.Problem) => FormatError.refused ("yaml: " ++ problem.message)
  match Yaml.read bytes with
  | .error problem => .error (malformed problem)
  | .ok none => .error .noDocument
  | .ok (some document) =>
    match settings.applyDocument document with
    | .error cause => .error (malformed { cause })
    | .ok (settings, mismatches) =>
      if mismatches.isEmpty then .ok settings else .error (illTyped mismatches)

end Settings

end ClassScript
