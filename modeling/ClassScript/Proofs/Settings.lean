import ClassScript.Encoding.Standard
import ClassScript.Proofs.Settings.File
import ClassScript.Proofs.Settings.Flags

/-! # Layers of settings

What a setting is worth is decided setting by setting: the last flag for it counts, then its environment variable,
then the settings file, then its default (`worth`).  Each layer is a partial assignment of values to settings, and
applying it overrides exactly what it assigns (`applyFlags_datum`, `applyEnvironment_datum`, `load_datum`); for the
file this is what is assumed of its format.  Flags are read into one record, whose entries hold what the last item
said (`withItems_last`).
-/

namespace ClassScript

namespace Flags

open Settings (Datum Field)

/-! ## The last word of items -/

def Item.positional? : Item → Option String
  | .positional text _ => some text
  | _ => none

def Item.config? : Item → Option String
  | .label .config _ _ value => some value
  | _ => none

def Item.json? : Item → Option Bool
  | .switch .json _ _ value _ => some value
  | _ => none

def Item.gives : Field → Item → Option Datum
  | .logLevel, .label .logLevel _ _ value => some (.text value)
  | .encoding, .label .encoding _ _ value => some (.text value)
  | .shortCircuit, .switch .shortCircuit _ _ value _ => some (.truth value)
  | _, _ => none

def last {α : Type} (pick : Item → Option α) (items : List Item) : Option α := (items.filterMap pick).getLast?

def gives (flags : Flags) : Field → Option Datum
  | .logLevel => flags.logLevel.map .text
  | .shortCircuit => flags.shortCircuit.map .truth
  | .encoding => flags.encoding.map .text
  | .historyFile => none

theorem last_cons {α : Type} (pick : Item → Option α) (item : Item) (items : List Item) :
    last pick (item :: items) = (last pick items).or (pick item) := by
  unfold last
  cases is : pick item with
  | none => rw [List.filterMap_cons_none is, Option.or_none]
  | some value =>
    rw [List.filterMap_cons_some is, List.getLast?_cons]
    cases (items.filterMap pick).getLast? <;> rfl

/-- Where an item replaces a part of the flags by what it says, the last one counts. -/
theorem withItems_last {α : Type} {pick : Item → Option α} (view : Flags → Option α)
    (step : ∀ flags item, view (item.apply flags) = (pick item).or (view flags)) (items : List Item) (flags : Flags) :
    view (flags.withItems items) = (last pick items).or (view flags) := by
  induction items generalizing flags with
  | nil => rfl
  | cons item items ih =>
    rw [last_cons, Option.or_assoc, ← step]
    exact ih (item.apply flags)

theorem withItems_positional (items : List Item) (flags : Flags) :
    (flags.withItems items).positional = flags.positional ++ items.filterMap Item.positional? := by
  induction items generalizing flags with
  | nil => simp [withItems]
  | cons item items ih =>
    refine (ih (item.apply flags)).trans ?_
    cases item with
    | positional text plain => simp [Item.apply, addPositional, Item.positional?]
    | label flag => cases flag <;> rfl
    | switch flag => cases flag <;> rfl

theorem withItems_gives (f : Field) (items : List Item) :
    (withItems {} items).gives f = last (Item.gives f) items := by
  have step (flags : Flags) (item : Item) : (item.apply flags).gives f = (item.gives f).or (flags.gives f) := by
    cases item with
    | positional => cases f <;> rfl
    | label flag => cases flag <;> cases f <;> rfl
    | switch flag => cases flag <;> cases f <;> rfl
  rw [withItems_last (gives · f) step]
  cases f <;> exact Option.or_none

theorem withItems_config (items : List Item) :
    (withItems {} items).config = (last Item.config? items).getD "" := by
  have step (flags : Flags) (item : Item) : some (item.apply flags).config = item.config?.or (some flags.config) := by
    cases item with
    | positional => rfl
    | label flag | switch flag => cases flag <;> rfl
  exact Option.some_inj.1 ((withItems_last (some ·.config) step items {}).trans Option.or_some)

theorem withItems_json (items : List Item) :
    (withItems {} items).json = (last Item.json? items).getD false := by
  have step (flags : Flags) (item : Item) : some (item.apply flags).json = item.json?.or (some flags.json) := by
    cases item with
    | positional => rfl
    | label flag | switch flag => cases flag <;> rfl
  exact Option.some_inj.1 ((withItems_last (some ·.json) step items {}).trans Option.or_some)

end Flags

namespace Settings

/-! ## Layers -/

def Field.environmentName? : Field → Option String
  | .logLevel => some "NSC_LOG_LEVEL"
  | .shortCircuit => some "NSC_SHORT_CIRCUIT"
  | .encoding => some "NSC_ENCODING"
  | .historyFile => none

/-- The value of a setting that a text stands for. -/
def Field.ofText? : Field → String → Option Datum
  | .shortCircuit, text => (Flags.truth? text).map .truth
  | _, text => some (.text text)

/-- What environment variables say for a setting; an empty one says nothing. -/
def environmentGives (environment : String → String) (f : Field) : Option Datum :=
  ((f.environmentName?.map environment).filter (!·.isEmpty)).bind f.ofText?

def fileGives (keys : List UInt8 → Field → Option Datum) : Entry → Field → Option Datum
  | .file bytes, f => keys bytes f
  | _, _ => none

/-! ## Applying layers -/

theorem applyFlags_datum (settings : Settings) (flags : Flags) (f : Field) :
    (settings.applyFlags flags).datum f = (flags.gives f).getD (settings.datum f) := by
  cases f with
  | logLevel => cases is : flags.logLevel <;> simp [applyFlags, datum, Flags.gives, is]
  | shortCircuit => cases is : flags.shortCircuit <;> simp [applyFlags, datum, Flags.gives, is]
  | encoding => cases is : flags.encoding <;> simp [applyFlags, datum, Flags.gives, is]
  | historyFile => rfl

theorem load_datum {format : Format} {keys : List UInt8 → Field → Option Datum} (overwrites : format.Overwrites keys)
    {settings loaded : Settings} {path : String} {entry : Entry} (done : load format settings path entry = .ok loaded)
    (f : Field) : loaded.datum f = (fileGives keys entry f).getD (settings.datum f) := by
  cases entry with
  | unreadable | directory => cases done
  | file bytes =>
    rw [load] at done
    rw [fileGives]
    cases ran : format bytes settings with
    | ok applied =>
      rw [ran] at done
      cases done
      exact overwrites.applied ran f
    | error problem =>
      rw [ran] at done
      cases problem with
      | noDocument =>
        cases done
        rw [overwrites.nothing ran, Option.getD_none]
      | refused reason => cases done

def IllEnvironment (environment : String → String) : Prop :=
  environment "NSC_SHORT_CIRCUIT" ≠ "" ∧ Flags.truth? (environment "NSC_SHORT_CIRCUIT") = none

theorem applyEnvironment_eq_error_iff (settings : Settings) {environment : String → String} :
    (∃ problem, settings.applyEnvironment environment = .error problem) ↔ IllEnvironment environment := by
  rw [applyEnvironment, IllEnvironment]
  by_cases isEmpty : environment "NSC_SHORT_CIRCUIT" = ""
  · simp [isEmpty]
  · cases Flags.truth? (environment "NSC_SHORT_CIRCUIT") <;> simp [isEmpty]

theorem text_eq_environmentGives {f : Field} {name : String} (environment : String → String) (old : String)
    (isNamed : f.environmentName? = some name) (reads : ∀ text, f.ofText? text = some (.text text)) :
    Datum.text (if (environment name).isEmpty then old else environment name) =
      (environmentGives environment f).getD (.text old) := by
  rw [environmentGives, isNamed, Option.map_some, Option.filter]
  by_cases isEmpty : (environment name).isEmpty = true <;> simp [isEmpty, reads]

theorem applyEnvironment_datum {settings applied : Settings} {environment : String → String}
    (done : settings.applyEnvironment environment = .ok applied) (f : Field) :
    applied.datum f = (environmentGives environment f).getD (settings.datum f) := by
  have logLevel := text_eq_environmentGives environment settings.logLevel (f := .logLevel) rfl fun _ => rfl
  have encoding := text_eq_environmentGives environment settings.encoding (f := .encoding) rfl fun _ => rfl
  rw [applyEnvironment] at done
  -- Any text will do for the level and the encoding; the third variable has to be a truth value.
  by_cases isEmpty : (environment "NSC_SHORT_CIRCUIT").isEmpty = true
  · rw [if_pos isEmpty] at done
    cases done
    cases f with
    | logLevel => exact logLevel
    | encoding => exact encoding
    | shortCircuit => simp [environmentGives, Field.environmentName?, Option.filter, isEmpty, datum]
    | historyFile => rfl
  · rw [if_neg isEmpty] at done
    cases truth : Flags.truth? (environment "NSC_SHORT_CIRCUIT") with
    | none =>
      rw [truth] at done
      cases done
    | some value =>
      rw [truth] at done
      cases done
      cases f with
      | logLevel => exact logLevel
      | encoding => exact encoding
      | shortCircuit =>
        simp [environmentGives, Field.environmentName?, Option.filter, isEmpty, datum, Field.ofText?, truth]
      | historyFile => rfl

def IllNamed (registry : Registry) (worth : Field → Datum) : Prop :=
  (∃ name, worth .logLevel = .text name ∧ Log.Level.ofName? name = none) ∨
  ∃ name error, worth .encoding = .text name ∧ registry.lookup name = .error error

theorem validate_eq_ok {registry : Registry} {settings checked : Settings}
    (valid : validate registry settings = .ok checked) : checked = settings := by
  rw [validate] at valid
  split at valid
  · cases valid
  · split at valid
    · cases valid
    · cases valid
      rfl

theorem validate_eq_error_iff {registry : Registry} {settings : Settings} :
    (∃ problem, validate registry settings = .error problem) ↔ IllNamed registry settings.datum := by
  simp only [IllNamed, datum, Datum.text.injEq, exists_eq_left', validate]
  cases Log.Level.ofName? settings.logLevel with
  | none => simp
  | some level => cases is : registry.lookup settings.encoding <;> simp [is]

/-! ## All layers -/

def fromFile (file? : Option String) (surroundings : Surroundings) : Except Problem Settings :=
  let base := defaults (surroundings.environment "HOME")
  match file? with
  | none => .ok base
  | some path => load surroundings.format base path (surroundings.look path)

/-- A settings file that cannot be loaded: it cannot be read, or the format refuses it. -/
def IllFile (file? : Option String) (surroundings : Surroundings) : Prop :=
  ∃ path, file? = some path ∧ ∀ bytes, surroundings.look path = .file bytes →
    ∃ reason, surroundings.format bytes (defaults (surroundings.environment "HOME")) = .error (.refused reason)

/-- What a setting is worth, given the keys of files, what flags say and the settings file. -/
def worth (keys : List UInt8 → Field → Option Datum) (said : Field → Option Datum) (file? : Option String)
    (surroundings : Surroundings) (f : Field) : Datum :=
  let file := file?.bind fun path => fileGives keys (surroundings.look path) f
  ((said f).or ((environmentGives surroundings.environment f).or file)).getD
    ((defaults (surroundings.environment "HOME")).datum f)

section Layers

variable {keys : List UInt8 → Field → Option Datum} {surroundings : Surroundings}

theorem fromFile_datum (overwrites : surroundings.format.Overwrites keys) {file? : Option String} {settings : Settings}
    (done : fromFile file? surroundings = .ok settings) (f : Field) :
    settings.datum f = (file?.bind fun path => fileGives keys (surroundings.look path) f).getD
      ((defaults (surroundings.environment "HOME")).datum f) := by
  cases file? with
  | none =>
    cases done
    rfl
  | some path => exact load_datum overwrites done f

theorem fromFile_eq_error_iff {file? : Option String} :
    (∃ problem, fromFile file? surroundings = .error problem) ↔ IllFile file? surroundings := by
  cases file? with
  | none => simp [fromFile, IllFile]
  | some path =>
    simp only [fromFile, IllFile, Option.some.injEq, exists_eq_left']
    cases found : surroundings.look path with
    | unreadable | directory => simp [load]
    | file bytes =>
      simp only [Entry.file.injEq, forall_eq', load]
      cases surroundings.format bytes (defaults (surroundings.environment "HOME")) with
      | ok settings => simp
      | error problem => cases problem <;> simp

theorem resolve_eq (flags : Flags) (surroundings : Surroundings) :
    resolve flags surroundings = (do
      let settings ← fromFile (file? flags surroundings.knows) surroundings
      let settings ← settings.applyEnvironment surroundings.environment
      validate surroundings.registry (settings.applyFlags flags)) := by
  unfold resolve fromFile
  cases file? flags surroundings.knows <;> rfl

/-- Without a fault in the layers below, it is up to the names of level and encoding. -/
theorem resolve_of_layers (overwrites : surroundings.format.Overwrites keys) {flags : Flags} {below above : Settings}
    (fromFile : fromFile (file? flags surroundings.knows) surroundings = .ok below)
    (fromEnvironment : below.applyEnvironment surroundings.environment = .ok above) :
    resolve flags surroundings = validate surroundings.registry (above.applyFlags flags) ∧
      (above.applyFlags flags).datum = worth keys flags.gives (file? flags surroundings.knows) surroundings := by
  constructor
  · rw [resolve_eq, fromFile, ok_bind, fromEnvironment, ok_bind]
  · funext f
    rw [applyFlags_datum, applyEnvironment_datum fromEnvironment, fromFile_datum overwrites fromFile, worth,
      Option.getD_or, Option.getD_or]

theorem resolve_datum (overwrites : surroundings.format.Overwrites keys) {flags : Flags} {settings : Settings}
    (resolved : resolve flags surroundings = .ok settings) :
    settings.datum = worth keys flags.gives (file? flags surroundings.knows) surroundings := by
  obtain ⟨below, fromFile, rest⟩ := bind_eq_ok.1 ((resolve_eq flags surroundings).symm.trans resolved)
  obtain ⟨above, fromEnvironment, valid⟩ := bind_eq_ok.1 rest
  rw [validate_eq_ok valid]
  exact (resolve_of_layers overwrites fromFile fromEnvironment).2

theorem resolve_eq_error_iff (overwrites : surroundings.format.Overwrites keys) {flags : Flags} :
    (∃ problem, resolve flags surroundings = .error problem) ↔
      IllFile (file? flags surroundings.knows) surroundings ∨ IllEnvironment surroundings.environment ∨
        IllNamed surroundings.registry (worth keys flags.gives (file? flags surroundings.knows) surroundings) := by
  rw [← fromFile_eq_error_iff]
  -- A layer at fault ends the run, so a later one is looked at only when those before it are sound.
  cases fromFile : fromFile (file? flags surroundings.knows) surroundings with
  | error problem =>
    have failed : resolve flags surroundings = .error problem := by rw [resolve_eq, fromFile, error_bind]
    exact ⟨fun _ => .inl ⟨problem, rfl⟩, fun _ => ⟨problem, failed⟩⟩
  | ok below =>
    rw [← applyEnvironment_eq_error_iff below]
    cases fromEnvironment : below.applyEnvironment surroundings.environment with
    | error problem =>
      have failed : resolve flags surroundings = .error problem := by
        rw [resolve_eq, fromFile, ok_bind, fromEnvironment, error_bind]
      exact ⟨fun _ => .inr (.inl ⟨problem, rfl⟩), fun _ => ⟨problem, failed⟩⟩
    | ok above =>
      obtain ⟨isValidate, datum⟩ := resolve_of_layers overwrites fromFile fromEnvironment
      rw [isValidate, validate_eq_error_iff, datum]
      simp

end Layers

/-! ## Items and settings -/

/-- The settings file of a command with items: the last that is named, or the one that is there by default. -/
def chosenFile? (items : List Flags.Item) (knows : String → Bool) : Option String :=
  match Flags.last Flags.Item.config? items with
  | some path => if path.isEmpty then inPlace? knows else some path
  | none => inPlace? knows
where
  inPlace? (knows : String → Bool) : Option String := if knows defaultFile then some defaultFile else none

theorem file?_eq_chosenFile? {flags : Flags} {items : List Flags.Item} (knows : String → Bool)
    (config : flags.config = (Flags.last Flags.Item.config? items).getD "") :
    file? flags knows = chosenFile? items knows := by
  rw [file?, chosenFile?, config]
  cases Flags.last Flags.Item.config? items with
  | none => rfl
  | some path => by_cases isEmpty : path.isEmpty = true <;> simp [isEmpty, chosenFile?.inPlace?]

/-- Arguments may come in any order: positional arguments keep theirs, and a setting is what the last flag for it
says, or its variable, or the settings file, or its default.  Nothing but a faulty layer is refused, and nothing but
items is accepted without a lone double dash.  The settings file may have any format that overwrites what it has keys
for, and there may be any encodings. -/
theorem resolve_arguments :
    (∀ given flags, "--" ∉ given → Flags.parse given = .ok flags → ∃ items, Flags.arguments items = given) ∧
    ∀ (items : List Flags.Item) (surroundings : Surroundings) (keys : List UInt8 → Field → Option Datum),
      surroundings.format.Overwrites keys →
      let layered := worth keys (fun f => Flags.last (Flags.Item.gives f) items)
        (chosenFile? items surroundings.knows) surroundings
      ∃ flags, Flags.parse (Flags.arguments items) = .ok flags ∧
        flags.positional = items.filterMap Flags.Item.positional? ∧
        flags.json = (Flags.last Flags.Item.json? items).getD false ∧
        (∀ settings, resolve flags surroundings = .ok settings → settings.datum = layered) ∧
        ((∃ problem, resolve flags surroundings = .error problem) ↔
          IllFile (chosenFile? items surroundings.knows) surroundings ∨ IllEnvironment surroundings.environment ∨
            IllNamed surroundings.registry layered) := by
  refine ⟨fun given flags noSeparator accepted => Flags.exists_items noSeparator accepted, ?_⟩
  intro items surroundings keys overwrites
  have gives := funext fun f => Flags.withItems_gives f items
  have file := file?_eq_chosenFile? surroundings.knows (Flags.withItems_config items)
  refine ⟨_, Flags.parse_arguments items, ?_, Flags.withItems_json items, ?_, ?_⟩
  · rw [Flags.withItems_positional, List.nil_append]
  · intro settings resolved
    rw [resolve_datum overwrites resolved, gives, file]
  · rw [resolve_eq_error_iff overwrites, gives, file]

def infoText : List UInt8 := [108, 111, 103, 95, 108, 101, 118, 101, 108, 58, 32, 105, 110, 102, 111]

def configured : Surroundings where
  knows path := path = defaultFile
  look path := if path = defaultFile then .file infoText else .missing
  environment name := if name = "NSC_SHORT_CIRCUIT" then "T" else ""
  format := yaml
  registry := .standard

def mixedItems : List Flags.Item :=
  [.label .encoding true true "ISO-8859-1", .positional "a.nsc" (by decide), .switch .json false none true rfl,
    .positional "b.nsc" (by decide), .switch .json true (some "0") false rfl]

/-- The entry of a mapping of scalars that has one only. -/
def soleEntry? : Except Yaml.Problem (Option Yaml.Node) → Option (Yaml.Scalar × Yaml.Scalar)
  | .ok (some (.mapping _ _ [(.scalar key, .scalar value)])) => some (key, value)
  | _ => none

theorem load_infoText :
    load yaml (defaults "") defaultFile (.file infoText) = .ok { defaults "" with logLevel := "info" } := by
  have sole : soleEntry? (Yaml.read infoText) =
      some ({ line := 1, text := "log_level", plain := true }, { line := 1, text := "info", plain := true }) := by
    decide +kernel
  unfold soleEntry? at sole
  split at sole
  next key value read =>
    cases sole
    rw [load, yaml, read]
    -- Mappings are read by a recursion that does not compute, so it is opened by its equations.
    simp only [applyDocument, Overlay.mapping, Overlay.merges]
    decide +kernel
  next => cases sole

/-- Each setting is from a layer of its own. -/
theorem resolve_arguments_mixedItems :
    Flags.arguments mixedItems = ["--encoding", "ISO-8859-1", "a.nsc", "-json", "b.nsc", "--json=0"] ∧
    configured.format.Overwrites yamlGives ∧
    ∃ flags, Flags.parse (Flags.arguments mixedItems) = .ok flags ∧
      flags.positional = ["a.nsc", "b.nsc"] ∧ flags.json = false ∧
      resolve flags configured = .ok ⟨"info", true, "ISO-8859-1", ""⟩ ∧
      datum ⟨"info", true, "ISO-8859-1", ""⟩ = worth yamlGives (fun f => Flags.last (Flags.Item.gives f) mixedItems)
        (chosenFile? mixedItems configured.knows) configured := by
  refine ⟨by decide, yaml_overwrites, ?_⟩
  obtain ⟨flags, parsed, positional, json, layers, -⟩ :=
    resolve_arguments.2 mixedItems configured yamlGives yaml_overwrites
  have read : Flags.parse (Flags.arguments mixedItems) =
      .ok { encoding := some "ISO-8859-1", positional := ["a.nsc", "b.nsc"] } := by decide +kernel
  obtain rfl := Except.ok.inj (parsed.symm.trans read)
  have resolved : resolve { encoding := some "ISO-8859-1", positional := ["a.nsc", "b.nsc"] } configured =
      .ok ⟨"info", true, "ISO-8859-1", ""⟩ := by
    have file : fromFile (some defaultFile) configured = .ok { defaults "" with logLevel := "info" } := load_infoText
    rw [resolve_eq, show file? _ configured.knows = some defaultFile from rfl, file]
    decide +kernel
  exact ⟨_, parsed, positional, json, resolved, layers _ resolved⟩

end Settings

end ClassScript
