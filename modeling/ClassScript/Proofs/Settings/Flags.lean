import ClassScript.Settings.Flags
import Mathlib.Data.List.TakeWhile

/-! # Arguments in any order

The arguments of a command are a list of items, each a positional argument or a flag in one of its spellings.
Items are read one after another (`parse_arguments`), so that their order matters only where flags of one name
meet, and there the last one wins.  Without a lone double dash there are no other argument lists that are
accepted (`exists_items`).
-/

namespace ClassScript

namespace Flags

/-! ## Spellings -/

inductive Label
  | config
  | logLevel
  | encoding
  deriving DecidableEq, Repr

inductive Switch
  | shortCircuit
  | json
  deriving DecidableEq, Repr

def Label.name : Label → String
  | .config => "config"
  | .logLevel => "log-level"
  | .encoding => "encoding"

def Switch.name : Switch → String
  | .shortCircuit => "short-circuit"
  | .json => "json"

def spelt (twice : Bool) (name : String) (value? : Option String) : String :=
  (if twice then "--" else "-") ++ name ++ (value?.map ("=" ++ ·)).getD ""

inductive Item
  /-- An argument that does not begin with a dash, or is no more than one. -/
  | positional (text : String) (plain : text.toList.head? = some '-' → text = "-")
  /-- A text for a flag, as an argument of its own or behind an equals sign. -/
  | label (flag : Label) (twice apart : Bool) (value : String)
  /-- A switch, with a word for its value or without. -/
  | switch (flag : Switch) (twice : Bool) (word : Option String) (value : Bool)
      (known : truth? (word.getD "true") = some value)

def Item.spelling : Item → List String
  | .positional text _ => [text]
  | .label flag twice true value => [spelt twice flag.name none, value]
  | .label flag twice false value => [spelt twice flag.name (some value)]
  | .switch flag twice word _ _ => [spelt twice flag.name word]

def arguments (items : List Item) : List String := items.flatMap Item.spelling

/-! ## What an argument is -/

def isName (name : String) : Bool :=
  match name.toList with
  | [] => false
  | first :: rest => first ≠ '-' && first ≠ '=' && rest.all (· ≠ '=')

theorem toList_spelt (twice : Bool) (name : String) (value? : Option String) :
    (spelt twice name value?).toList =
      (if twice then ['-', '-'] else ['-']) ++ name.toList ++ ((value?.map fun v => '=' :: v.toList).getD []) := by
  cases twice <;> cases value? <;> simp [spelt]

/-- A flag without its dashes is cut at the first equals sign. -/
theorem named_eq_flag_iff {first : Char} {rest : List Char} {name : String} {value? : Option String} :
    named first rest = .flag name value? ↔
      ∃ others, name.toList = first :: others ∧ (∀ c ∈ others, c ≠ '=') ∧
        rest = others ++ (value?.map fun v => '=' :: v.toList).getD [] := by
  have parts : rest.takeWhile (· ≠ '=') ++ rest.dropWhile (· ≠ '=') = rest := List.takeWhile_append_dropWhile
  have free : ∀ c ∈ rest.takeWhile (· ≠ '='), c ≠ '=' := fun c member => by
    simpa using List.mem_takeWhile_imp member
  unfold named
  constructor
  · intro is
    cases behind : rest.dropWhile (· ≠ '=') with
    -- Without an equals sign all the rest belongs to the name.
    | nil =>
      simp only [behind] at is
      cases is
      rw [behind] at parts
      exact ⟨_, String.toList_ofList, free, parts.symm⟩
    | cons mark value =>
      simp only [behind] at is
      cases is
      have isMark : mark = '=' := by
        have stops := List.head?_dropWhile_not (fun c => decide (c ≠ '=')) rest
        rw [behind] at stops
        simpa using stops
      rw [behind, isMark] at parts
      refine ⟨_, String.toList_ofList, free, parts.symm.trans ?_⟩
      simp
  · rintro ⟨others, isName, free', rfl⟩
    have named : String.ofList (first :: others) = name := by rw [← isName, String.ofList_toList]
    have passes : ∀ c ∈ others, decide (c ≠ '=') = true := fun c member => decide_eq_true (free' c member)
    rw [List.takeWhile_append_of_pos passes, List.dropWhile_append_of_pos passes]
    cases value? <;> simp [named]

theorem isName_iff {name : String} :
    isName name = true ↔ ∃ first others, name.toList = first :: others ∧ first ≠ '-' ∧ first ≠ '=' ∧
      ∀ c ∈ others, c ≠ '=' := by
  unfold isName
  cases name.toList with
  | nil => simp
  | cons first others => simp [and_assoc]

/-- What an argument is, by its first characters. -/
theorem classify_cases (argument : String) :
    (argument.toList = ['-', '-'] ∧ classify argument = .separator) ∨
    (∃ twice c rest, argument.toList = (if twice then ['-', '-'] else ['-']) ++ c :: rest ∧ (c = '-' → twice = true) ∧
      classify argument = if c = '-' || c = '=' then .malformed else named c rest) ∨
    ((argument.toList.head? = some '-' → argument.toList = ['-']) ∧ classify argument = .positional) := by
  unfold classify
  rcases argument.toList with _ | ⟨first, _ | ⟨second, rest⟩⟩
  · simp
  · simp
  · by_cases dash : first = '-'
    · subst dash
      by_cases dashes : second = '-'
      · subst dashes
        cases rest with
        | nil => exact .inl ⟨rfl, rfl⟩
        | cons c rest => exact .inr (.inl ⟨true, c, rest, rfl, fun _ => rfl, rfl⟩)
      · refine .inr (.inl ⟨false, second, rest, rfl, fun is => absurd is dashes, ?_⟩)
        simp [dashes]
    · simp [dash]

/-- A flag is a name with its dashes. -/
theorem classify_eq_flag_iff {argument name : String} {value? : Option String} :
    classify argument = .flag name value? ↔
      isName name = true ∧ ∃ twice, argument = spelt twice name value? := by
  rw [isName_iff]
  constructor
  · intro is
    rcases classify_cases argument with ⟨-, kind⟩ | ⟨twice, c, rest, begins, -, kind⟩ | ⟨-, kind⟩
    · simp [is] at kind
    · rw [is] at kind
      split at kind
      next => cases kind
      next good =>
        simp only [Bool.or_eq_true, decide_eq_true_eq, not_or] at good
        obtain ⟨others, isName, free, rfl⟩ := named_eq_flag_iff.1 kind.symm
        refine ⟨⟨c, others, isName, good.1, good.2, free⟩, twice, String.toList_inj.1 ?_⟩
        rw [begins, toList_spelt, isName]
        simp
    · simp [is] at kind
  · rintro ⟨⟨first, others, isName, notDash, notMark, free⟩, twice, rfl⟩
    have begins := toList_spelt twice name value?
    rw [isName] at begins
    have flag : named first (others ++ (value?.map fun v => '=' :: v.toList).getD []) = .flag name value? :=
      named_eq_flag_iff.2 ⟨others, isName, free, rfl⟩
    cases twice <;> simp [classify, begins, notDash, notMark, flag]

/-! ## What an item does -/

def Label.set (flags : Flags) (value : String) : Label → Flags
  | .config => { flags with config := value }
  | .logLevel => { flags with logLevel := some value }
  | .encoding => { flags with encoding := some value }

def Switch.set (flags : Flags) (value : Bool) : Switch → Flags
  | .shortCircuit => { flags with shortCircuit := some value }
  | .json => { flags with json := value }

def Item.apply (flags : Flags) : Item → Flags
  | .positional text _ => flags.addPositional text
  | .label flag _ _ value => flag.set flags value
  | .switch flag _ _ value _ => flag.set flags value

def withItems (flags : Flags) (items : List Item) : Flags := items.foldl (fun flags item => item.apply flags) flags

theorem lookup?_label (flag : Label) : lookup? flag.name = some (.valued fun value flags => flag.set flags value) := by
  cases flag <;> rfl

theorem lookup?_switch (flag : Switch) :
    lookup? flag.name = some (.switch fun value flags => flag.set flags value) := by
  cases flag <;> rfl

theorem isName_label (flag : Label) : isName flag.name = true := by cases flag <;> decide

theorem isName_switch (flag : Switch) : isName flag.name = true := by cases flag <;> decide

theorem classify_positional {text : String} (plain : text.toList.head? = some '-' → text = "-") :
    classify text = .positional := by
  by_cases begins : text.toList.head? = some '-'
  · rw [plain begins]
    decide
  · rcases classify_cases text with ⟨is, -⟩ | ⟨twice, c, rest, is, -, -⟩ | ⟨-, kind⟩
    · simp [is] at begins
    · cases twice <;> simp [is] at begins
    · exact kind

/-- One item is read, and then the others. -/
theorem parseFrom_spelling (flags : Flags) (item : Item) (rest : List String) :
    parseFrom flags (item.spelling ++ rest) = parseFrom (item.apply flags) rest := by
  have spelt {name : String} (isName : isName name = true) (twice : Bool) (value? : Option String) :
      classify (spelt twice name value?) = .flag name value? := classify_eq_flag_iff.2 ⟨isName, twice, rfl⟩
  cases item with
  | positional text plain =>
    rw [Item.spelling, List.singleton_append, parseFrom.eq_def]
    simp only [classify_positional plain]
    rfl
  | label flag twice apart value =>
    -- The value of a label is the next argument or stands behind an equals sign.
    cases apart with
    | true =>
      rw [Item.spelling, List.cons_append, List.singleton_append, parseFrom.eq_def]
      simp only [spelt (isName_label flag), lookup?_label]
      rfl
    | false =>
      rw [Item.spelling, List.singleton_append, parseFrom.eq_def]
      simp only [spelt (isName_label flag), lookup?_label]
      rfl
  | switch flag twice word value known =>
    rw [Item.spelling, List.singleton_append, parseFrom.eq_def]
    simp only [spelt (isName_switch flag), lookup?_switch, known]
    rfl

/-- Items are read in their order. -/
theorem parse_arguments (items : List Item) :
    parse (arguments items) = .ok (withItems {} items) := by
  have reads (flags : Flags) : parseFrom flags (arguments items) = .ok (flags.withItems items) := by
    induction items generalizing flags with
    | nil => rfl
    | cons item items ih =>
      rw [arguments, List.flatMap_cons, parseFrom_spelling]
      exact ih _
  exact reads {}

/-! ## All arguments -/

theorem exists_label {name : String} {set : String → Flags → Flags} (found : lookup? name = some (.valued set)) :
    ∃ flag : Label, name = flag.name := by
  unfold lookup? at found
  split at found
  · exact ⟨.config, rfl⟩
  · exact ⟨.encoding, rfl⟩
  · cases found
  · exact ⟨.logLevel, rfl⟩
  · cases found
  · cases found

theorem exists_switch {name : String} {set : Bool → Flags → Flags} (found : lookup? name = some (.switch set)) :
    ∃ flag : Switch, name = flag.name := by
  unfold lookup? at found
  split at found
  · cases found
  · cases found
  · exact ⟨.json, rfl⟩
  · cases found
  · exact ⟨.shortCircuit, rfl⟩
  · cases found

theorem plain_of_classify {text : String} (kind : classify text = .positional) :
    text.toList.head? = some '-' → text = "-" := by
  intro begins
  rcases classify_cases text with ⟨-, is⟩ | ⟨_, c, rest, -, -, is⟩ | ⟨single, -⟩
  · rw [kind] at is
    cases is
  · rw [kind, named.eq_def] at is
    split at is
    · cases is
    · split at is <;> cases is
  · exact String.toList_inj.1 (single begins)

theorem eq_of_separator {text : String} (kind : classify text = .separator) : text = "--" := by
  rcases classify_cases text with ⟨is, -⟩ | ⟨_, c, rest, -, -, is⟩ | ⟨-, is⟩
  · exact String.toList_inj.1 is
  · rw [kind, named.eq_def] at is
    split at is
    · cases is
    · split at is <;> cases is
  · rw [kind] at is
    cases is

/-- Arguments without a lone double dash that are accepted are items. -/
theorem exists_items {given : List String} (noSeparator : "--" ∉ given) {flags read : Flags}
    (accepted : parseFrom flags given = .ok read) : ∃ items, arguments items = given := by
  have cons {rest : List String} (item : Item) (others : ∃ items, arguments items = rest) :
      ∃ items, arguments items = item.spelling ++ rest := by
    obtain ⟨items, rfl⟩ := others
    exact ⟨item :: items, rfl⟩
  fun_induction parseFrom flags given with
  | case1 => exact ⟨[], rfl⟩
  | case2 flags argument rest kind ih =>
    exact cons (.positional argument (plain_of_classify kind))
      (ih (List.not_mem_of_not_mem_cons noSeparator) accepted)
  -- Only a lone double dash is a separator.
  | case3 flags argument kind =>
    rw [eq_of_separator kind] at noSeparator
    simp at noSeparator
  | case4 flags argument kind =>
    rw [eq_of_separator kind] at noSeparator
    simp at noSeparator
  | case5 | case6 | case8 | case11 => cases accepted
  | case7 flags argument rest name word kind set isKnown value known ih =>
    obtain ⟨flag, rfl⟩ := exists_switch isKnown
    obtain ⟨-, twice, rfl⟩ := classify_eq_flag_iff.1 kind
    exact cons (.switch flag twice word value known)
      (ih (List.not_mem_of_not_mem_cons noSeparator) accepted)
  | case9 flags argument name set isKnown value rest kind ih =>
    obtain ⟨flag, rfl⟩ := exists_label isKnown
    obtain ⟨-, twice, rfl⟩ := classify_eq_flag_iff.1 kind
    exact cons (.label flag twice false value)
      (ih (List.not_mem_of_not_mem_cons noSeparator) accepted)
  | case10 flags argument name set isKnown value rest kind ih =>
    obtain ⟨flag, rfl⟩ := exists_label isKnown
    obtain ⟨-, twice, rfl⟩ := classify_eq_flag_iff.1 kind
    have noSeparator' := List.not_mem_of_not_mem_cons (List.not_mem_of_not_mem_cons noSeparator)
    exact cons (.label flag twice true value) (ih noSeparator' accepted)

end Flags

end ClassScript
