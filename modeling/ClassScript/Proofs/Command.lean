import ClassScript.Command
import ClassScript.Encoding.Standard
import ClassScript.Proofs.Parser.Trees
import ClassScript.Settings.File

/-! # What the commands write

The `parse` command writes the tree and the diagnostics of its source as one JSON document, unless the tree
holds a number that JSON cannot write. Such a number is always an infinite double, which stands for a literal
out of range. The exit code tells in every case whether there are diagnostics.
-/

namespace ClassScript

/-! ## Numbers that a document cannot hold -/

namespace Json

inductive Holds (x : Float) : Json → Prop
  | double : Holds x (.double x)
  | item {items : List Json} {item : Json} : item ∈ items → Holds x item → Holds x (.list items)
  | field {fields : List (String × Json)} {field : String × Json} :
      field ∈ fields → Holds x field.2 → Holds x (.record fields)

def HoldsField (x : Float) (fields : List (String × Json)) : Prop := ∃ field ∈ fields, Holds x field.2

section Holds

variable {x : Float}

@[simp] theorem holds_double {value : Float} : Holds x (.double value) ↔ value = x := by
  constructor
  · rintro ⟨⟩
    rfl
  · rintro rfl
    exact .double

@[simp] theorem holds_list {items : List Json} : Holds x (.list items) ↔ ∃ item ∈ items, Holds x item := by
  constructor
  · rintro ⟨⟩
    exact ⟨_, ‹_›, ‹_›⟩
  · rintro ⟨item, member, holds⟩
    exact .item member holds

@[simp] theorem holds_record {fields : List (String × Json)} :
    Holds x (.record fields) ↔ HoldsField x fields := by
  constructor
  · rintro ⟨⟩
    exact ⟨_, ‹_›, ‹_›⟩
  · rintro ⟨field, member, holds⟩
    exact .field member holds

@[simp] theorem not_holds_null : ¬ Holds x .null := by rintro ⟨⟩

@[simp] theorem not_holds_boolean {value : Bool} : ¬ Holds x (.boolean value) := by rintro ⟨⟩

@[simp] theorem not_holds_integer {value : Int} : ¬ Holds x (.integer value) := by rintro ⟨⟩

@[simp] theorem not_holds_string {value : String} : ¬ Holds x (.string value) := by rintro ⟨⟩

@[simp] theorem not_holdsField_nil : ¬ HoldsField x [] := by
  rintro ⟨field, member, _⟩
  cases member

@[simp] theorem holdsField_cons {key : String} {value : Json} {rest : List (String × Json)} :
    HoldsField x ((key, value) :: rest) ↔ Holds x value ∨ HoldsField x rest :=
  List.exists_mem_cons_iff _ _ _

@[simp] theorem holdsField_append {fields more : List (String × Json)} :
    HoldsField x (fields ++ more) ↔ HoldsField x fields ∨ HoldsField x more := by
  simp only [HoldsField, List.mem_append, or_and_right, exists_or]

end Holds

def writes (x : Float) : Bool := !(x.isNaN || x.isInf)

theorem unsupportedItem?_eq (items : List Json) : unsupportedItem? items = items.findSome? unsupported? := by
  induction items with
  | nil => rfl
  | cons item rest ih =>
    rw [unsupportedItem?, ih, List.findSome?_cons]
    cases item.unsupported? <;> rfl

theorem unsupportedField?_eq (fields : List (String × Json)) :
    unsupportedField? fields = fields.findSome? (·.2.unsupported?) := by
  induction fields with
  | nil => rfl
  | cons field rest ih =>
    obtain ⟨key, value⟩ := field
    rw [unsupportedField?, ih, List.findSome?_cons]
    cases value.unsupported? <;> rfl

/-- Induction over a document, with the items of a list and the values of a record as its parts. -/
theorem induct {motive : Json → Prop} (null : motive .null) (boolean : ∀ value, motive (.boolean value))
    (integer : ∀ value, motive (.integer value)) (double : ∀ value, motive (.double value))
    (string : ∀ value, motive (.string value))
    (list : ∀ items, (∀ item ∈ items, motive item) → motive (.list items))
    (record : ∀ fields, (∀ field ∈ fields, motive field.2) → motive (.record fields)) (document : Json) :
    motive document :=
  @Json.rec motive (fun items => ∀ item ∈ items, motive item) (fun fields => ∀ field ∈ fields, motive field.2)
    (fun field => motive field.2) null boolean integer double string list record (by simp)
    (fun _ _ head rest => List.forall_mem_cons.2 ⟨head, rest⟩) (by simp)
    (fun _ _ head rest => List.forall_mem_cons.2 ⟨head, rest⟩) (fun _ _ value => value) document

/-- The number that makes a document fail stands in it. -/
theorem holds_of_unsupported? {document : Json} {x : Float} (found : document.unsupported? = some x) :
    Holds x document ∧ writes x = false := by
  induction document using induct with
  | double value =>
    rw [unsupported?] at found
    split at found
    next unwritable =>
      cases found
      exact ⟨.double, by rw [writes, unwritable, Bool.not_true]⟩
    next => cases found
  | list items ih =>
    rw [unsupported?, unsupportedItem?_eq] at found
    obtain ⟨item, member, found⟩ := List.exists_of_findSome?_eq_some found
    obtain ⟨holds, unwritable⟩ := ih item member found
    exact ⟨.item member holds, unwritable⟩
  | record fields ih =>
    rw [unsupported?, unsupportedField?_eq] at found
    obtain ⟨field, member, found⟩ := List.exists_of_findSome?_eq_some found
    obtain ⟨holds, unwritable⟩ := ih field member found
    exact ⟨.field member holds, unwritable⟩
  | null | boolean | integer | string => cases found

/-- A document without such a number is written. -/
theorem writes_of_unsupported? {document : Json} {x : Float} (holds : Holds x document)
    (none : document.unsupported? = none) : writes x = true := by
  induction holds with
  | double =>
    rw [unsupported?] at none
    split at none
    next => cases none
    next writable => rw [writes, Bool.eq_false_iff.2 writable, Bool.not_false]
  | item member _ ih =>
    rw [unsupported?, unsupportedItem?_eq, List.findSome?_eq_none_iff] at none
    exact ih (none _ member)
  | field member _ ih =>
    rw [unsupported?, unsupportedField?_eq, List.findSome?_eq_none_iff] at none
    exact ih (none _ member)

end Json

namespace Node

variable {x : Float}

@[simp] theorem holds_records (ns : List Node) :
    Json.Holds x (.list (records ns)) ↔ ∃ n ∈ ns, Json.Holds x n.record := by
  rw [Json.holds_list]
  induction ns with
  | nil => simp only [records, List.not_mem_nil, false_and, exists_false]
  | cons n ns ih =>
    rw [records, List.exists_mem_cons_iff, List.exists_mem_cons_iff, ih]

@[simp] theorem holdsField_optional (key : String) (part : Node) :
    Json.HoldsField x (optional key part part.record) ↔ Json.Holds x part.record := by
  rw [optional]
  split
  next absent =>
    cases part with
    | absent => simp only [record, Json.not_holdsField_nil, Json.not_holds_null]
    | _ => cases absent
  next => simp only [Json.holdsField_cons, Json.not_holdsField_nil, or_false]

@[simp] theorem not_holdsField_flag (key : String) (set : Bool) : ¬ Json.HoldsField x (flag key set) := by
  rw [flag]
  split <;> simp

@[simp] theorem not_holds_span (span : Span) : ¬ Json.Holds x span.record := by
  simp [Span.record, Position.record]

@[simp] theorem not_holds_strings (texts : List String) : ¬ Json.Holds x (.list (texts.map .string)) := by
  simp

/-- The record of a node holds the number of a double, and what the records of its parts hold. -/
theorem holds_record_iff (n : Node) : Json.Holds x n.record ↔
    (∃ span, n = .double span x) ∨ ∃ part ∈ n.parts, Json.Holds x part.record := by
  cases n with
  | double span value => simp [record, parts]
  | _ =>
    -- the fields may stand in another order than the parts
    simp only [record, parts, Json.holds_record, Json.holdsField_cons, Json.holdsField_append,
      Json.not_holdsField_nil, Json.not_holds_string, Json.not_holds_null, Json.not_holds_boolean,
      Json.not_holds_integer, holds_records, holdsField_optional, not_holdsField_flag, not_holds_span,
      not_holds_strings, List.exists_mem_cons_iff, List.mem_append, List.not_mem_nil, or_and_right, exists_or,
      reduceCtorEq, false_and, exists_false, or_false, false_or, or_assoc, or_comm, or_left_comm]

/-- Induction over a tree, whatever the places of its parts. -/
theorem induct_parts {motive : Node → Prop} (step : ∀ n, (∀ part ∈ n.parts, motive part) → motive n)
    (t : Node) : motive t := by
  have none {n : Node} (leaf : n.parts = []) : motive n := step n (by simp [leaf])
  have one {n part : Node} (is : n.parts = [part]) (holds : motive part) : motive n :=
    step n (by simpa [is] using holds)
  have two {n first second : Node} (is : n.parts = [first, second]) (holds : motive first)
      (holds' : motive second) : motive n := step n (by simpa [is] using ⟨holds, holds'⟩)
  have many {n first : Node} {rest : List Node} (is : n.parts = first :: rest) (holds : motive first)
      (all : ∀ part ∈ rest, motive part) : motive n := step n (by simpa [is] using ⟨holds, all⟩)
  induction t using Node.induct with
  | absent | foreign | integer | double | boolean | null => exact none rfl
  | tree span children all => exact step _ all
  | binary span op left right holds holds' => exact two rfl holds holds'
  | identifier span parent name holds => exact one rfl holds
  | usage span target holds => exact one rfl holds
  | assignment span op target value holds holds' => exact two rfl holds holds'
  | call span callee arguments holds all => exact many rfl holds all
  | instantiation span blueprint arguments holds all => exact many rfl holds all
  | variableDeclaration span modifiers name type initial holds => exact one rfl holds
  | whileLoop span condition body holds holds' => exact two rfl holds holds'
  | doWhileLoop span condition body holds holds' => exact two rfl holds holds'
  | forLoop span declaration condition round body first test last inner =>
    exact step _ (by simpa [parts] using ⟨first, test, last, inner⟩)
  | branch span condition body alternative test yes no =>
    exact step _ (by simpa [parts] using ⟨test, yes, no⟩)
  | functionDeclaration span modifiers name params body holds => exact one rfl holds
  | classDeclaration span modifiers name fields methods classes all all' all'' =>
    exact step _ (List.forall_mem_append.2 ⟨List.forall_mem_append.2 ⟨all, all'⟩, all''⟩)

/-- The doubles in the record of a tree are those in the tree. -/
theorem holds_record_iff_inside (t : Node) : Json.Holds x t.record ↔ ∃ span, (double span x).Inside t := by
  constructor
  · induction t using induct_parts with
    | step t ih =>
      intro holds
      rcases (holds_record_iff t).1 holds with ⟨span, rfl⟩ | ⟨part, below, holds⟩
      · exact ⟨span, .self⟩
      · obtain ⟨span, inside⟩ := ih part below holds
        exact ⟨span, .deeper below inside⟩
  · rintro ⟨span, inside⟩
    induction inside with
    | self => exact (holds_record_iff _).2 (.inl ⟨span, rfl⟩)
    | deeper below _ ih => exact (holds_record_iff _).2 (.inr ⟨_, below, ih⟩)

end Node

/-! ## The tree of a source -/

namespace Command

def treeText (source : List UInt8) : String :=
  (Json.record [("ast", (parseSource source).1.record),
    ("diagnostics", .list ((parseSource source).2.map Report.diagnosticRecord))]).render 0 ++ "\n"

/-- The tree of the source holds an infinite double. -/
def Overflows (source : List UInt8) : Prop :=
  ∃ span x, (Node.double span x).Inside (parseSource source).1 ∧ x.isInf = true

/-- An output tells about a source. Its exit code is zero exactly if there are no diagnostics. It has the document on
    standard output and nothing else, unless the tree of the source holds an infinite double. Then it has
    nothing there, and an error message; such a double stands for a literal out of range, which is among the
    diagnostics that are not shown. -/
structure Reports (source : List UInt8) (output : Output) : Prop where
  exit : output.exit = 0 ↔ (parseSource source).2 = []
  written : ¬ Overflows source → output.stdout = treeText source
  withheld : Overflows source → output.stdout = "" ∧
    ∃ x before after, x.isInf = true ∧ output.stderr = before ++ errorLine
      ("JSON encoding failed: json: unsupported value: " ++
        if Number.isNegative x then "-Inf" else "+Inf") ++ after
  cause : Overflows source → ∃ t ∈ (tokenize source).1, t.kind = .double ∧
    (Number.readDouble t.lexeme).1.isInf = true ∧
    { complaint := .malformedNumber t.lexeme, span := t.span } ∈ (parseSource source).2

theorem holds_treeDocument {tree : Node} {diagnostics : List Diagnostic} {x : Float} :
    Json.Holds x (Report.treeDocument tree diagnostics) ↔ ∃ span, (Node.double span x).Inside tree := by
  have plain (d : Diagnostic) : ¬ Json.Holds x (Report.diagnosticRecord d) := by
    unfold Report.diagnosticRecord
    split <;> simp
  simp [Report.treeDocument, Report.diagnosticRecords, plain, Node.holds_record_iff_inside]

/-- What a parsed tree holds and JSON cannot write is an infinite double. -/
theorem isInf_of_inside {source : List UInt8} {span : Span} {x : Float}
    (inside : (Node.double span x).Inside (parseSource source).1) (unwritable : Json.writes x = false) :
    x.isInf = true := by
  rcases (Parser.drawn_parseSource inside).finite_or_isInf with finite | infinite
  · rw [Json.writes, finite.isNaN_eq_false, finite.isInf_eq_false] at unwritable
    cases unwritable
  · exact infinite

theorem overflows_cause {source : List UInt8} (overflows : Overflows source) :
    ∃ t ∈ (tokenize source).1, t.kind = .double ∧ (Number.readDouble t.lexeme).1.isInf = true ∧
      { complaint := .malformedNumber t.lexeme, span := t.span } ∈ (parseSource source).2 := by
  obtain ⟨span, x, inside, infinite⟩ := overflows
  exact (Parser.drawn_parseSource inside).reported infinite

theorem text_of_isInf (layout : Number.Layout) {x : Float} (infinite : x.isInf = true) :
    layout.text x = if Number.isNegative x then "-Inf" else "+Inf" := by
  rw [Number.Layout.text, Number.isNaN_of_isInf infinite, infinite, if_neg Bool.false_ne_true, if_pos rfl]

theorem unsupported_of_isInf {x : Float} (infinite : x.isInf = true) :
    Report.unsupported x = "JSON encoding failed: json: unsupported value: " ++
      if Number.isNegative x then "-Inf" else "+Inf" :=
  congrArg _ (text_of_isInf Number.Layout.value infinite)

theorem showTree_reports (source : List UInt8) : Reports source (showTree source) := by
  have clean : (parseSource source).2.isEmpty = true ↔ (parseSource source).2 = [] := List.isEmpty_iff
  -- The document is written unless some double in it cannot be.
  cases document : (Report.treeDocument (parseSource source).1 (parseSource source).2).unsupported? with
  | none =>
    have holdsNone : ¬ Overflows source := by
      rintro ⟨span, x, inside, infinite⟩
      have writes := Json.writes_of_unsupported? (holds_treeDocument.2 ⟨span, inside⟩) document
      simp [Json.writes, infinite] at writes
    have shown : showTree source =
        { exit := if (parseSource source).2.isEmpty then 0 else 1, stdout := treeText source } := by
      simp only [showTree, documentOutput, Json.document, document]
      rfl
    rw [shown]
    refine ⟨?_, fun _ => rfl, fun overflows => absurd overflows holdsNone, overflows_cause⟩
    rw [← clean]
    split <;> simp_all
  | some x =>
    obtain ⟨holds, unwritable⟩ := Json.holds_of_unsupported? document
    obtain ⟨span, inside⟩ := holds_treeDocument.1 holds
    have infinite := isInf_of_inside inside unwritable
    have overflows : Overflows source := ⟨span, x, inside, infinite⟩
    have shown : showTree source = { exit := 1, stderr := errorLine (Report.unsupported x) } := by
      simp only [showTree, documentOutput, Json.document, document]
    rw [shown]
    refine ⟨?_, fun holdsNone => absurd overflows holdsNone, fun _ => ⟨rfl, x, "", "", infinite, ?_⟩,
      overflows_cause⟩
    · obtain ⟨t, _, _, _, reported⟩ := overflows_cause overflows
      simp [List.ne_nil_of_mem reported]
    · rw [String.empty_append, String.append_empty, ← unsupported_of_isInf infinite]

/-- What the log says before and after does not matter. -/
theorem Reports.noted {source : List UInt8} {output : Output} (reports : Reports source output)
    (before after : String) :
    Reports source { output with stderr := before ++ output.stderr ++ after } := by
  refine ⟨reports.exit, reports.written, fun overflows => ?_, reports.cause⟩
  obtain ⟨empty, x, front, back, infinite, is⟩ := reports.withheld overflows
  refine ⟨empty, x, before ++ front, back ++ after, infinite, ?_⟩
  rw [is]
  simp only [String.append_assoc]

theorem level_of_validate {registry : Registry} {settings checked : Settings}
    (valid : checked.validate registry = .ok settings) : ∃ level, Log.Level.ofName? settings.logLevel = some level := by
  rw [Settings.validate] at valid
  split at valid
  next => cases valid
  next known =>
    split at valid
    next => cases valid
    next =>
      cases valid
      cases levelIs : Log.Level.ofName? settings.logLevel with
      | none => simp [levelIs] at known
      | some level => exact ⟨level, rfl⟩

/-- Whatever the settings come from, they are checked last. -/
theorem validate_of_resolve {flags : Flags} {surroundings : Surroundings} {settings : Settings}
    (resolved : Settings.resolve flags surroundings = .ok settings) :
    ∃ checked : Settings, checked.validate surroundings.registry = .ok settings := by
  -- What comes after the file is the same with and without one.
  have layered {loaded : Except Settings.Problem Settings} (is : (do
      let fromFile ← loaded
      let fromEnvironment ← fromFile.applyEnvironment surroundings.environment
      (fromEnvironment.applyFlags flags).validate surroundings.registry) = .ok settings) :
      ∃ checked : Settings, checked.validate surroundings.registry = .ok settings := by
    cases loaded with
    | error problem => cases is
    | ok fromFile =>
      change (fromFile.applyEnvironment surroundings.environment >>= _) = _ at is
      cases applied : fromFile.applyEnvironment surroundings.environment with
      | error problem =>
        rw [applied] at is
        cases is
      | ok fromEnvironment =>
        rw [applied] at is
        exact ⟨_, is⟩
  rw [Settings.resolve] at resolved
  cases file : Settings.file? flags surroundings.knows with
  | none =>
    rw [file] at resolved
    exact layered resolved
  | some path =>
    rw [file] at resolved
    exact layered resolved

/-- For every file that it can read and decode, the `parse` command reports the tree of the text that the file
    holds. -/
theorem plan_parse_reports {arguments : List String} {flags : Flags} {surroundings : Surroundings}
    {settings : Settings} {path : String} {others : List String} {bytes source : List UInt8}
    (read : Flags.parse arguments = .ok flags)
    (resolved : Settings.resolve flags surroundings = .ok settings)
    (named : flags.positional = path :: others) (found : surroundings.look path = .file bytes)
    (decoded : surroundings.registry.decode settings.encoding bytes = .ok source) :
    ∃ output, plan (Command.parse.name :: arguments) surroundings = .done output ∧ Reports source output := by
  obtain ⟨checked, valid⟩ := validate_of_resolve resolved
  obtain ⟨level, levelKnown⟩ := level_of_validate valid
  have which : ofName? Command.parse.name = some .parse := by decide
  have text : readSource surroundings settings.encoding path = .ok source := by
    rw [readSource, found]
    simp only [decoded, Except.mapError]
  refine ⟨onSource .parse level settings flags.json path source, ?_, (showTree_reports source).noted _ _⟩
  simp only [plan, which, read, resolved, withSettings, levelKnown, named, text]
  rfl

def hugeText : List UInt8 := [49, 101, 57, 57, 57]

def oneFile (name : String) (bytes : List UInt8) : Surroundings where
  knows path := path = name
  look path := if path = name then .file bytes else .missing
  environment _ := ""
  format := Settings.yaml
  registry := .standard

theorem plan_parse_reports_hugeText :
    let flags : Flags := { positional := ["huge.nsc"] }
    Flags.parse ["huge.nsc"] = .ok flags ∧
      Settings.resolve flags (oneFile "huge.nsc" hugeText) = .ok (Settings.defaults "") ∧
      Registry.standard.decode (Settings.defaults "").encoding hugeText = .ok hugeText ∧
      ∃ output, plan ["parse", "huge.nsc"] (oneFile "huge.nsc" hugeText) = .done output ∧
        Reports hugeText output := by
  have read : Flags.parse ["huge.nsc"] = .ok { positional := ["huge.nsc"] } := by decide +kernel
  have resolved : Settings.resolve { positional := ["huge.nsc"] } (oneFile "huge.nsc" hugeText) =
      .ok (Settings.defaults "") := by rfl
  have found : (oneFile "huge.nsc" hugeText).look "huge.nsc" = .file hugeText := by simp [oneFile]
  have decoded : Registry.standard.decode (Settings.defaults "").encoding hugeText = .ok hugeText := by
    decide +kernel
  exact ⟨read, resolved, decoded, plan_parse_reports read resolved rfl found decoded⟩

/-- The literal is out of range, so that it is complained about. Neither the tree nor the complaint is written. -/
theorem showTree_hugeText :
    (parseSource hugeText).2.map (·.complaint) = [.malformedNumber "1e999"] ∧
      showTree hugeText =
        { exit := 1
          stdout := ""
          stderr := "error: JSON encoding failed: json: unsupported value: +Inf\n" } := by
  decide +kernel

end Command

end ClassScript
