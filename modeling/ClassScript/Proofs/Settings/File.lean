import ClassScript.Settings.File

/-! # What a settings file says

A format of settings files overwrites exactly the settings that a file has keys for (`Format.Overwrites`).  YAML is
such a format (`yaml_overwrites`).

A mapping gives a key the value of its first own entry for it, and otherwise that of the first mapping merged into
it that gives it one (`inMapping`).  A file without mismatches sets exactly the settings whose names it gives a
value, and a null leaves a setting as it was (`applyDocument_datum`).

The entries, mappings and merges of a file run on one overlay.  What each of them does to it is said in one way
(`Ran`), and runs one after another combine (`Ran.trans`).
-/

namespace ClassScript

namespace Settings

/-! ## Settings by their names -/

def Outcome.value? {α : Type} : Outcome α → Option α
  | .value found => some found
  | _ => none

inductive Datum
  | text (value : String)
  | truth (value : Bool)
  deriving DecidableEq, Repr

def datum (s : Settings) : Field → Datum
  | .logLevel => .text s.logLevel
  | .shortCircuit => .truth s.shortCircuit
  | .encoding => .text s.encoding
  | .historyFile => .text s.historyFile

namespace Field

def name : Field → String
  | .logLevel => "log_level"
  | .shortCircuit => "short_circuit"
  | .encoding => "encoding"
  | .historyFile => "history_file"

theorem ofName?_name (f : Field) : ofName? f.name = some f := by cases f <;> rfl

theorem eq_name_of_ofName? {f : Field} {text : String} (found : ofName? text = some f) : text = f.name := by
  unfold ofName? at found
  split at found <;> cases found <;> rfl

theorem name_inj {f g : Field} (same : f.name = g.name) : f = g := by
  have both := ofName?_name f
  rw [same, ofName?_name] at both
  exact (Option.some.inj both).symm

/-- What a node says for a setting: nothing if it is null or of the wrong type. -/
def said? : Field → Yaml.Node → Option Datum
  | .logLevel, node | .encoding, node | .historyFile, node =>
    ((Settings.string node).toOption.bind Outcome.value?).map .text
  | .shortCircuit, node => ((Settings.truth node).toOption.bind Outcome.value?).map .truth

end Field

/-! ## The value of a key -/

def isKey (name : String) (key : Yaml.Node) : Bool :=
  !key.isMerge && match string key with
    | .ok (.value text) => text = name
    | _ => false

def own? (name : String) (entries : List (Yaml.Node × Yaml.Node)) : Option Yaml.Node :=
  (entries.find? fun entry => isKey name entry.1).map (·.2)

mutual

def inMapping (name : String) (entries : List (Yaml.Node × Yaml.Node)) : Option Yaml.Node :=
  (own? name entries).or (inMerges name entries)
  termination_by (sizeOf entries, 1)

def inMerges (name : String) : List (Yaml.Node × Yaml.Node) → Option Yaml.Node
  | [] => none
  | (key, value) :: rest =>
    if key.isMerge then (inMerge name value).or (inMerges name rest) else inMerges name rest
  termination_by entries => (sizeOf entries, 0)

def inMerge (name : String) : Yaml.Node → Option Yaml.Node
  | .sequence _ _ items => inEach name items
  | node => inOne name node
  termination_by node => (sizeOf node, 1)

def inOne (name : String) : Yaml.Node → Option Yaml.Node
  | .mapping _ _ entries => inMapping name entries
  | .reference _ _ (.mapping _ _ entries) => inMapping name entries
  | _ => none
  termination_by node => (sizeOf node, 0)

def inEach (name : String) : List Yaml.Node → Option Yaml.Node
  | [] => none
  | item :: rest => (inOne name item).or (inEach name rest)
  termination_by items => (sizeOf items, 0)

end

theorem own?_cons (name : String) (key value : Yaml.Node) (rest : List (Yaml.Node × Yaml.Node)) :
    own? name ((key, value) :: rest) = if isKey name key then some value else own? name rest := by
  rw [own?, List.find?_cons]
  by_cases is : isKey name key = true
  · simp [is]
  · simp [is, own?]

theorem isKey_eq {name text : String} {key : Yaml.Node} (plain : key.isMerge = false)
    (read : string key = .ok (.value text)) : isKey name key = decide (text = name) := by
  simp [isKey, plain, read]

/-! ## Steps of an overlay -/

theorem bind_eq_ok {ε α β : Type} {x : Except ε α} {k : α → Except ε β} {b : β} :
    (x >>= k) = .ok b ↔ ∃ a, x = .ok a ∧ k a = .ok b := by
  cases x with
  | ok a => simp [bind, Except.bind]
  | error e => simp [bind, Except.bind]

theorem ok_bind {ε α β : Type} (a : α) (k : α → Except ε β) : (.ok a >>= k) = k a := rfl

theorem error_bind {ε α β : Type} (e : ε) (k : α → Except ε β) : (.error e >>= k) = .error e := rfl

namespace Overlay

/-- The overlays differ in what was counted only. -/
structure Aside (o o' : Overlay) : Prop where
  settings : o'.settings = o.settings
  mismatches : o'.mismatches = o.mismatches
  taken : o'.taken = o.taken

theorem Aside.trans {o o₁ o₂ : Overlay} (first : Aside o o₁) (second : Aside o₁ o₂) : Aside o o₂ :=
  ⟨second.settings.trans first.settings, second.mismatches.trans first.mismatches, second.taken.trans first.taken⟩

theorem aside_count {o o' : Overlay} (counted : o.count = .ok o') : Aside o o' := by
  have either (reads : Reads)
      (counted : (if reads.tooManyReferred then Except.error Yaml.Cause.tooManyReferences else .ok { o with reads }) = .ok o') :
      Aside o o' := by
    split at counted
    · cases counted
    · cases counted
      exact ⟨rfl, rfl, rfl⟩
  exact either _ counted

theorem aside_follow {o o' : Overlay} (followed : o.follow = .ok o') : Aside o o' := by
  obtain ⟨o₁, first, second⟩ := bind_eq_ok.1 followed
  have behind := aside_count second
  exact (aside_count first).trans ⟨behind.settings, behind.mismatches, behind.taken⟩

theorem aside_countFor {o o' : Overlay} {node : Yaml.Node} (counted : o.countFor node = .ok o') : Aside o o' := by
  unfold countFor at counted
  split at counted
  · obtain ⟨o₁, followed, done⟩ := bind_eq_ok.1 counted
    cases done
    have aside := aside_follow followed
    exact ⟨aside.settings, aside.mismatches, aside.taken⟩
  · exact aside_count counted

theorem aside_countKeys {o o' : Overlay} {keys : List Yaml.Node} (counted : o.countKeys keys = .ok o') :
    Aside o o' := by
  have all {o : Overlay} {keys : List Yaml.Node} (counted : keys.foldlM countFor o = .ok o') : Aside o o' := by
    induction keys generalizing o with
    | nil =>
      cases counted
      exact ⟨rfl, rfl, rfl⟩
    | cons key keys ih =>
      obtain ⟨o₁, first, rest⟩ := bind_eq_ok.1 counted
      exact (aside_countFor first).trans (ih rest)
  unfold countKeys at counted
  split at counted
  · exact all counted
  · cases counted
    exact ⟨rfl, rfl, rfl⟩

theorem use_datum {α : Type} (o : Overlay) {set : α → Settings} {shown : α → Datum} {field : Field}
    (sets : ∀ value f, (set value).datum f = if f = field then shown value else o.settings.datum f)
    (result : Outcome α) :
    o.mismatches <+: (o.use set result).mismatches ∧ (o.use set result).taken = o.taken ∧
      ∀ f, (o.use set result).settings.datum f =
        if f = field then (result.value?.map shown).getD (o.settings.datum field) else o.settings.datum f := by
  cases result with
  | value value => exact ⟨List.prefix_rfl, rfl, sets value⟩
  | absent => exact ⟨List.prefix_rfl, rfl, fun f => by split <;> simp_all [Outcome.value?, use]⟩
  | mismatch more => exact ⟨List.prefix_append .., rfl, fun f => by split <;> simp_all [Outcome.value?, use, report]⟩

/-- A node for a setting changes no other setting. -/
theorem apply_datum {o o' : Overlay} {field : Field} {node : Yaml.Node} (applied : o.apply field node = .ok o') :
    o.mismatches <+: o'.mismatches ∧ o'.taken = o.taken ∧
      ∀ f, o'.settings.datum f =
        if f = field then (field.said? node).getD (o.settings.datum field) else o.settings.datum f := by
  obtain ⟨o₁, counted, applied⟩ := bind_eq_ok.1 applied
  have aside := aside_countFor counted
  rw [← aside.settings, ← aside.mismatches, ← aside.taken]
  cases field with
  | logLevel | shortCircuit | encoding | historyFile =>
    obtain ⟨result, read, done⟩ := bind_eq_ok.1 applied
    cases done
    rw [Field.said?, read]
    exact o₁.use_datum (fun value f => by cases f <;> rfl) result

/-! ## Runs of an overlay -/

/-- How an overlay changes when values are found for settings: a setting that is done or that a merge cannot set any
more stays, and what is found is taken from then on. -/
structure Applied (done : List Field) (found : Field → Option Yaml.Node) (o o' : Overlay) : Prop where
  merging : o'.taken.isSome = o.taken.isSome
  taken : ∀ f, o'.isTaken f.name = (o.isTaken f.name || (o.taken.isSome && (found f).isSome))
  kept : ∀ f, o.isTaken f.name = true ∨ f ∈ done → o'.settings.datum f = o.settings.datum f
  set : ∀ f, o.isTaken f.name = false → f ∉ done →
    o'.settings.datum f = ((found f).bind f.said?).getD (o.settings.datum f)

theorem isSome_of_isTaken {o : Overlay} {name : String} (taken : o.isTaken name = true) : o.taken.isSome = true := by
  unfold isTaken at taken
  cases is : o.taken with
  | none => simp [is] at taken
  | some keys => rfl

theorem Applied.refl (done : List Field) (o : Overlay) : Applied done (fun _ => none) o o where
  merging := rfl
  taken := by simp
  kept := fun _ _ => rfl
  set := fun _ _ _ => rfl

/-- What is found first wins, if it is taken or done from then on. -/
theorem Applied.trans {done done' : List Field} {found found' : Field → Option Yaml.Node} {o o₁ o₂ : Overlay}
    (first : Applied done found o o₁) (second : Applied done' found' o₁ o₂)
    (stays : ∀ f ∈ done, f ∈ done') (isNew : ∀ f ∈ done', f ∈ done ∨ (found f).isSome = true)
    (ends : ∀ f, (found f).isSome = true → o.taken.isSome = true ∨ f ∈ done') :
    Applied done (fun f => (found f).or (found' f)) o o₂ where
  merging := second.merging.trans first.merging
  taken f := by
    rw [second.taken, first.taken, first.merging, Option.isSome_or, Bool.and_or_distrib_left, Bool.or_assoc]
  kept f fixed := by
    rw [← first.kept f fixed]
    apply second.kept f
    rw [first.taken]
    rcases fixed with taken | isDone
    · exact .inl (by rw [taken, Bool.true_or])
    · exact .inr (stays f isDone)
  set f free notDone := by
    have taken := first.taken f
    rw [free, Bool.false_or] at taken
    have before := first.set f free notDone
    cases is : found f with
    | some node =>
      -- The second run leaves alone what the first one has found.
      have fixed : o₁.isTaken f.name = true ∨ f ∈ done' := by
        rw [taken, is, Option.isSome_some, Bool.and_true]
        exact ends f (by rw [is]; rfl)
      rw [second.kept f fixed, before, is, Option.some_or]
    | none =>
      rw [is, Option.isSome_none, Bool.and_false] at taken
      have notDone' : f ∉ done' := by
        intro isDone
        rcases isNew f isDone with was | found
        · exact notDone was
        · rw [is] at found
          cases found
      rw [second.set f taken notDone', before, is, Option.none_or]
      rfl

/-- Settings and keys are what an application is about. -/
theorem Applied.congr {done : List Field} {found : Field → Option Yaml.Node} {o o₁ o' o₁' : Overlay}
    (applied : Applied done found o₁ o₁') (settings : o₁.settings = o.settings) (taken : o₁.taken = o.taken)
    (settings' : o'.settings = o₁'.settings) (taken' : o'.taken = o₁'.taken) : Applied done found o o' := by
  obtain ⟨merging, takes, kept, set⟩ := applied
  simp only [isTaken, settings, taken, ← settings', ← taken'] at merging takes kept set
  exact ⟨merging, takes, kept, set⟩

/-! ## Entries -/

/-- Settings whose keys are no longer free. -/
theorem isTaken_add (o : Overlay) (text name : String) :
    isTaken { o with taken := o.taken.map (text :: ·) } name =
      (o.isTaken name || (o.taken.isSome && decide (text = name))) := by
  unfold isTaken
  cases o.taken with
  | none => rfl
  | some keys => simp [eq_comm, Bool.or_comm]

structure Entered (key value : Yaml.Node) (done done' : List Field) (o o' : Overlay) : Prop where
  mismatches : o.mismatches <+: o'.mismatches
  applied : Applied done (fun f => if isKey f.name key then some value else none) o o'
  stays : ∀ f ∈ done, f ∈ done'
  isNew : ∀ f ∈ done', f ∈ done ∨ isKey f.name key = true
  ends : ∀ f, isKey f.name key = true → o.taken.isSome = true ∨ f ∈ done'

/-- An entry that is for no setting. -/
theorem Entered.skip {key value : Yaml.Node} {done : List Field} {o o' : Overlay}
    (no : ∀ f : Field, isKey f.name key = false) (mismatches : o.mismatches <+: o'.mismatches)
    (settings : o'.settings = o.settings) (merging : o'.taken.isSome = o.taken.isSome)
    (taken : ∀ f : Field, o'.isTaken f.name = o.isTaken f.name) : Entered key value done done o o' where
  mismatches := mismatches
  applied := ⟨merging, by simp [no, taken], by simp [settings], by simp [no, settings]⟩
  stays _ := id
  isNew _ := .inl
  ends := by simp [no]

theorem Entered.aside {key value : Yaml.Node} {done done' : List Field} {o o₁ o' : Overlay} (aside : Aside o o₁)
    (entered : Entered key value done done' o₁ o') : Entered key value done done' o o' where
  mismatches := aside.mismatches ▸ entered.mismatches
  applied := entered.applied.congr aside.settings aside.taken rfl rfl
  stays := entered.stays
  isNew := entered.isNew
  ends := aside.taken ▸ entered.ends

/-- An entry for what cannot be set any more. -/
theorem Entered.refused {key value : Yaml.Node} {text : String} {done : List Field} {o : Overlay}
    (isKey : ∀ f : Field, isKey f.name key = decide (text = f.name)) (taken : o.isTaken text = true) :
    Entered key value done done o o where
  mismatches := List.prefix_rfl
  applied.merging := rfl
  applied.taken f := by
    rw [isKey]
    by_cases is : text = f.name
    · rw [← is, taken, Bool.true_or]
    · simp [is]
  applied.kept _ _ := rfl
  applied.set f free _ := by
    rw [isKey]
    by_cases is : text = f.name
    · simp [is, free] at taken
    · simp [is]
  stays _ := id
  isNew _ := .inl
  ends _ _ := .inl (isSome_of_isTaken taken)

/-- An entry for a setting, which is done from then on. -/
theorem Entered.setting {key value : Yaml.Node} {field : Field} {done done' : List Field} {o o' : Overlay}
    (isKey : ∀ f : Field, isKey f.name key = decide (field = f)) (mismatches : o.mismatches <+: o'.mismatches)
    (merging : o'.taken.isSome = o.taken.isSome)
    (taken : ∀ f : Field, o'.isTaken f.name = (o.isTaken f.name || (o.taken.isSome && decide (field = f))))
    (free : o.isTaken field.name = false) (isDone : ∀ f, f ∈ done' ↔ f = field ∨ f ∈ done)
    (settings : ∀ f, o'.settings.datum f =
      if f = field ∧ f ∉ done then (field.said? value).getD (o.settings.datum field) else o.settings.datum f) :
    Entered key value done done' o o' where
  mismatches := mismatches
  applied.merging := merging
  applied.taken f := by
    rw [taken, isKey]
    by_cases is : field = f <;> simp [is]
  applied.kept f fixed := by
    rw [settings, if_neg]
    rintro ⟨rfl, notDone⟩
    rcases fixed with taken | isDone
    · simp [free] at taken
    · exact notDone isDone
  applied.set f _ notDone := by
    rw [settings, isKey]
    by_cases is : field = f
    · subst is
      simp [notDone]
    · simp [is, Ne.symm is]
  stays f member := (isDone f).2 (.inr member)
  isNew f member := by
    rw [isKey, decide_eq_true_eq]
    exact ((isDone f).1 member).symm.imp_right Eq.symm
  ends f is := by
    rw [isKey, decide_eq_true_eq] at is
    exact .inr ((isDone f).2 (.inl is.symm))

/-- One entry is applied, and then the others. -/
theorem entries_cons {o o' : Overlay} {done : List Field} {key value : Yaml.Node} {rest : List (Yaml.Node × Yaml.Node)}
    (ran : o.entries done ((key, value) :: rest) = .ok o') :
    ∃ o₁ done', o₁.entries done' rest = .ok o' ∧ Entered key value done done' o o₁ := by
  rw [entries] at ran
  by_cases merge : key.isMerge = true
  · rw [if_pos merge] at ran
    exact ⟨o, done, ran, .skip (fun f => by simp [isKey, merge]) List.prefix_rfl rfl rfl fun _ => rfl⟩
  rw [if_neg merge] at ran
  obtain ⟨o₁, counted, ran⟩ := bind_eq_ok.1 ran
  obtain ⟨result, read, ran⟩ := bind_eq_ok.1 ran
  -- What was counted is of no account, so the rest is about the overlay after counting.
  suffices entered : ∃ o₂ done', o₂.entries done' rest = .ok o' ∧ Entered key value done done' o₁ o₂ by
    obtain ⟨o₂, done', others, entered⟩ := entered
    exact ⟨o₂, done', others, entered.aside (aside_countFor counted)⟩
  cases result with
  | absent => exact ⟨o₁, done, ran, .skip (fun f => by simp [isKey, read]) List.prefix_rfl rfl rfl fun _ => rfl⟩
  | mismatch more =>
    exact ⟨o₁.report more, done, ran,
      .skip (fun f => by simp [isKey, read]) (List.prefix_append ..) rfl rfl fun _ => rfl⟩
  | value text =>
    have isKey (f : Field) : isKey f.name key = decide (text = f.name) := isKey_eq (by simpa using merge) read
    dsimp only at ran
    by_cases taken : o₁.isTaken text = true
    · rw [if_pos taken] at ran
      exact ⟨o₁, done, ran, .refused isKey taken⟩
    rw [if_neg taken] at ran
    -- The key is free.  It is taken from now on, whatever its value is.
    have isTaken (f : Field) := isTaken_add o₁ text f.name
    have merging : (o₁.taken.map (text :: ·)).isSome = o₁.taken.isSome := Option.isSome_map
    cases known : Field.ofName? text with
    | none =>
      have other (f : Field) : text ≠ f.name := by
        intro is
        rw [is, Field.ofName?_name] at known
        cases known
      simp only [known] at ran
      refine ⟨_, done, ran, .skip (fun f => ?_) (List.prefix_append ..) rfl merging fun f => ?_⟩
      · rw [isKey, decide_eq_false (other f)]
      · refine (isTaken f).trans ?_
        simp [other f]
    | some field =>
      simp only [known] at ran
      obtain rfl := Field.eq_name_of_ofName? known
      have same (f : Field) : (field.name = f.name) = (field = f) := propext ⟨Field.name_inj, congrArg _⟩
      simp only [same] at isKey isTaken
      have free : o₁.isTaken field.name = false := by simpa using taken
      by_cases isDone : field ∈ done
      · rw [if_pos (List.contains_iff_mem.2 isDone)] at ran
        refine ⟨_, done, ran, .setting isKey (List.prefix_append ..) merging isTaken free (fun f => ?_) fun f => ?_⟩
        · exact ⟨.inr, Or.rec (fun is => is ▸ isDone) id⟩
        · rw [if_neg]
          · rfl
          · rintro ⟨rfl, notDone⟩
            exact notDone isDone
      · rw [if_neg (mt List.contains_iff_mem.1 isDone)] at ran
        obtain ⟨o₂, applied, ran⟩ := bind_eq_ok.1 ran
        obtain ⟨mismatches, taken₂, settings⟩ := apply_datum applied
        refine ⟨o₂, _, ran, .setting isKey mismatches ?_ (fun f => ?_) free (fun f => List.mem_cons) fun f => ?_⟩
        · rw [taken₂]
          exact merging
        · rw [← isTaken f, Overlay.isTaken, taken₂]
          rfl
        · rw [settings]
          by_cases is : f = field
          · subst is
            simp [isDone]
          · simp [is]

/-- Entries give each setting its first value. -/
theorem entries_applied {o o' : Overlay} {done : List Field} {list : List (Yaml.Node × Yaml.Node)}
    (ran : o.entries done list = .ok o') :
    o.mismatches <+: o'.mismatches ∧ Applied done (fun f => own? f.name list) o o' := by
  induction list generalizing o done with
  | nil =>
    cases ran
    exact ⟨List.prefix_rfl, .refl done _⟩
  | cons entry rest ih =>
    obtain ⟨key, value⟩ := entry
    obtain ⟨o₁, done', others, entered⟩ := entries_cons ran
    obtain ⟨mismatches, applied⟩ := ih others
    refine ⟨entered.mismatches.trans mismatches, ?_⟩
    have both := entered.applied.trans applied entered.stays
      (fun f member => (entered.isNew f member).imp_right fun is => by simp [is])
      (fun f found => entered.ends f (by simpa using found))
    have first (f : Field) : own? f.name ((key, value) :: rest) =
        (if isKey f.name key then some value else none).or (own? f.name rest) := by
      rw [own?_cons]
      cases isKey f.name key <;> rfl
    simpa only [first] using both

/-! ## Keys -/

/-- A scalar whose text is the name of a setting is a string, if anything. -/
theorem value_of_name {s : Yaml.Scalar} {value : Yaml.Value} (f : Field) (is : s.text = f.name)
    (read : s.value = .ok value) : ∃ text, value = .string text := by
  have looks (dates : Bool) : Yaml.tagOf dates f.name = .string := by cases f <;> cases dates <;> decide
  unfold Yaml.Scalar.value at read
  split at read
  · split at read
    · cases read
      exact ⟨_, rfl⟩
    · cases read
  · split at read
    next isChecked =>
      simp only [is, looks] at read
      split at read
      · cases read
        exact ⟨_, rfl⟩
      · simp at read
    next =>
      cases read
      exact ⟨_, rfl⟩

theorem keyText?_eq_some_iff (f : Field) (key : Yaml.Node) :
    keyText? key = some f.name ↔ string key = .ok (.value f.name) := by
  cases key with
  | scalar s =>
    rw [keyText?, string, outcome]
    cases read : s.value with
    | error cause => simp [bind, Except.bind]
    | ok value =>
      cases value with
      | null => simp [bind, Except.bind, pure, Except.pure]
      | string text => simp [bind, Except.bind, pure, Except.pure, textOf?]
      | boolean _ | other =>
        -- Such a scalar has its text for a string, but it cannot be the name of a setting.
        have other : s.text ≠ f.name := by
          intro is
          obtain ⟨_, is⟩ := value_of_name f is read
          cases is
        simp [bind, Except.bind, pure, Except.pure, textOf?, other]
  | sequence | mapping | loop => simp [keyText?, string, outcome, pure, Except.pure]
  | reference line name target =>
    rw [keyText?, string, outcome]
    exact keyText?_eq_some_iff f target

theorem not_isMerge_of_string {f : Field} {key : Yaml.Node} (read : string key = .ok (.value f.name)) :
    key.isMerge = false := by
  cases key with
  | scalar s =>
    rw [Yaml.Node.isMerge, Bool.eq_false_iff]
    intro isMerge
    obtain ⟨text, tag⟩ : s.text = "<<" ∧ s.tag = Yaml.Tag.merge.name := by simpa [Yaml.Scalar.isMerge] using isMerge
    have value : s.value = .ok (.string "<<") := by 
      simp [Yaml.Scalar.value, Yaml.Scalar.isChecked, text, tag, Yaml.Tag.name]
    have name : keyText? (.scalar s) = some "<<" := by rw [keyText?, value]
    rw [(keyText?_eq_some_iff f _).2 read] at name
    cases f <;> simp [Field.name] at name
  | sequence | mapping | reference | loop => rfl

theorem keyText?_eq_name_iff (f : Field) (key : Yaml.Node) : keyText? key = some f.name ↔ isKey f.name key = true := by
  rw [keyText?_eq_some_iff]
  constructor
  · intro read
    simp [isKey_eq (not_isMerge_of_string read) read]
  · intro is
    unfold isKey at is
    split at is <;> simp_all

/-- The keys of a mapping that are names of settings are those that it gives a value itself. -/
theorem contains_keyText? (f : Field) (all : List (Yaml.Node × Yaml.Node)) :
    (all.filterMap fun entry => keyText? entry.1).contains f.name = (own? f.name all).isSome := by
  rw [own?, Option.isSome_map, List.isSome_find?, Bool.eq_iff_iff]
  simp [keyText?_eq_name_iff]

/-! ## Mappings -/

/-- A run reports mismatches, or it gives the settings the values that it finds. -/
structure Ran (found : Field → Option Yaml.Node) (o o' : Overlay) : Prop where
  mismatches : o.mismatches <+: o'.mismatches
  merging : o'.taken.isSome = o.taken.isSome
  applied : o'.mismatches = [] → Applied [] found o o'

theorem Ran.refl (o : Overlay) : Ran (fun _ => none) o o :=
  ⟨List.prefix_rfl, rfl, fun _ => .refl [] o⟩

/-- What is merged first wins. -/
theorem Ran.trans {found found' : Field → Option Yaml.Node} {o o₁ o₂ : Overlay} (merging : o.taken.isSome = true)
    (first : Ran found o o₁) (second : Ran found' o₁ o₂) : Ran (fun f => (found f).or (found' f)) o o₂ where
  mismatches := first.mismatches.trans second.mismatches
  merging := second.merging.trans first.merging
  applied clean := by
    have clean' : o₁.mismatches = [] := List.prefix_nil.1 (clean ▸ second.mismatches)
    exact (first.applied clean').trans (second.applied clean) (fun _ => id) (fun _ => .inl) fun _ _ => .inl merging

theorem Ran.aside {found : Field → Option Yaml.Node} {o o₁ o' o₁' : Overlay} (before : Aside o o₁)
    (ran : Ran found o₁ o₁') (after : Aside o₁' o') : Ran found o o' where
  mismatches := by
    rw [← before.mismatches, after.mismatches]
    exact ran.mismatches
  merging := by
    rw [after.taken, ran.merging, before.taken]
  applied clean :=
    (ran.applied (after.mismatches ▸ clean)).congr before.settings before.taken after.settings after.taken

/-- Entries, and then what is merged for the keys that are still free. -/
theorem Applied.merged {own more : Field → Option Yaml.Node} {keys : List String} {o o₁ o₂ : Overlay}
    (first : Applied [] own o o₁) (has : ∀ f, keys.contains f.name = (own f).isSome)
    (second : Applied [] more { o₁ with taken := o₁.taken.or (some keys) } o₂) :
    Applied [] (fun f => (own f).or (more f)) o { o₂ with taken := o₁.taken.bind fun _ => o₂.taken } := by
  cases is : o₁.taken with
  | some taken =>
    -- A mapping that is merged itself goes on with its keys.
    rw [is] at second
    have merging : o.taken.isSome = true := by
      rw [← first.merging, is]
      rfl
    have both := first.trans (second.congr rfl is.symm rfl rfl) (fun _ => id) (fun _ => .inl) fun _ _ => .inl merging
    exact both.congr rfl rfl rfl rfl
  | none =>
    -- Nothing is taken at the outside, but the merges run as if the keys of the mapping were.
    have outer : o.taken = none := by
      have merging := first.merging
      rw [is] at merging
      exact Option.isNone_iff_eq_none.1 (by simpa using merging.symm)
    have free (f : Field) : o.isTaken f.name = false := by rw [isTaken, outer]; rfl
    rw [is] at second
    refine ⟨by rw [outer]; rfl, fun f => by simp [isTaken, outer], fun f fixed => ?_, fun f _ notDone => ?_⟩
    · simp [free] at fixed
    · have keys : isTaken { o₁ with taken := some keys } f.name = (own f).isSome := by
        rw [← has]
        simp [isTaken]
      have before := first.set f (free f) notDone
      cases found : own f with
      | some node =>
        rw [found] at keys before
        exact (second.kept f (.inl keys)).trans before
      | none =>
        rw [found] at keys before
        refine (second.set f keys notDone).trans ?_
        rw [show o₁.settings.datum f = o.settings.datum f from before]
        rfl

-- The inductions are those of the functions: what is merged into a mapping is a part of it.
mutual

/-- A mapping gives the settings their values. -/
theorem mapping_ran {o o' : Overlay} {all : List (Yaml.Node × Yaml.Node)} (ran : o.mapping all = .ok o') :
    Ran (fun f => inMapping f.name all) o o' := by
  rw [mapping] at ran
  split at ran
  next =>
    obtain ⟨o₁, entered, ran⟩ := bind_eq_ok.1 ran
    obtain ⟨o₂, counted, ran⟩ := bind_eq_ok.1 ran
    obtain ⟨merged, merges, done⟩ := bind_eq_ok.1 ran
    cases done
    obtain ⟨mismatches, applied⟩ := entries_applied entered
    have aside := aside_countKeys counted
    have more := merges_ran (by simp) merges
    constructor
    · refine mismatches.trans ?_
      rw [← aside.mismatches]
      exact more.mismatches
    · have merging : merged.taken.isSome = true := more.merging.trans (by simp)
      rw [← applied.merging, ← aside.taken]
      cases o₂.taken with
      | none => rfl
      | some taken => exact merging
    · -- Without mismatches in the end there were none before, so the merges have done what they say.
      intro clean
      have both := (applied.congr rfl rfl aside.settings aside.taken).merged (contains_keyText? · all) (more.applied clean)
      simpa only [inMapping] using both
  next isRepeated =>
    cases ran
    refine ⟨List.prefix_append .., rfl, fun clean => absurd ?_ isRepeated⟩
    exact List.isEmpty_iff.2 (List.append_eq_nil_iff.1 clean).2
  termination_by (sizeOf all, 1)

theorem merges_ran {o o' : Overlay} {all : List (Yaml.Node × Yaml.Node)} (merging : o.taken.isSome = true)
    (ran : o.merges all = .ok o') : Ran (fun f => inMerges f.name all) o o' := by
  cases all with
  | nil =>
    rw [merges] at ran
    cases ran
    simpa only [inMerges] using Ran.refl _
  | cons entry rest =>
    cases entry with
    | mk key value =>
      rw [merges] at ran
      by_cases isMerge : key.isMerge = true
      · rw [if_pos isMerge] at ran
        obtain ⟨o₁, merged, ran⟩ := bind_eq_ok.1 ran
        have first := merge_ran merging merged
        have both := first.trans merging (merges_ran (first.merging.trans merging) ran)
        simpa only [inMerges, isMerge, if_true] using both
      · rw [if_neg isMerge] at ran
        simpa only [inMerges, if_neg isMerge] using merges_ran merging ran
  termination_by (sizeOf all, 0)

theorem merge_ran {o o' : Overlay} {node : Yaml.Node} (merging : o.taken.isSome = true)
    (ran : o.merge node = .ok o') : Ran (fun f => inMerge f.name node) o o' := by
  have one (ran : o.mergeOne node = .ok o') : Ran (fun f => inOne f.name node) o o' := mergeOne_ran ran
  cases node with
  | sequence line tag items =>
    rw [merge] at ran
    simpa only [inMerge] using mergeEach_ran merging ran
  | scalar | mapping | reference | loop =>
    rw [merge.eq_def] at ran
    simpa only [inMerge] using one ran
  termination_by (sizeOf node, 1)

theorem mergeOne_ran {o o' : Overlay} {node : Yaml.Node} (ran : o.mergeOne node = .ok o') :
    Ran (fun f => inOne f.name node) o o' := by
  cases node with
  | mapping line tag entries =>
    rw [mergeOne] at ran
    obtain ⟨o₁, counted, ran⟩ := bind_eq_ok.1 ran
    simpa only [inOne] using (mapping_ran ran).aside (aside_count counted) ⟨rfl, rfl, rfl⟩
  | reference line name target =>
    cases target with
    | mapping line tag entries =>
      rw [mergeOne] at ran
      obtain ⟨o₁, followed, ran⟩ := bind_eq_ok.1 ran
      obtain ⟨o₂, mapped, done⟩ := bind_eq_ok.1 ran
      cases done
      simp only [inOne]
      exact (mapping_ran mapped).aside (aside_follow followed) ⟨rfl, rfl, rfl⟩
    | scalar | sequence | reference | loop =>
      rw [mergeOne.eq_def] at ran
      cases ran
  | loop line name isMapping =>
    rw [mergeOne.eq_def] at ran
    cases isMapping <;> cases ran
  -- Nothing but a mapping, or an alias of one, can be merged.
  | scalar | sequence =>
    rw [mergeOne.eq_def] at ran
    cases ran
  termination_by (sizeOf node, 0)

theorem mergeEach_ran {o o' : Overlay} {items : List Yaml.Node} (merging : o.taken.isSome = true)
    (ran : o.mergeEach items = .ok o') : Ran (fun f => inEach f.name items) o o' := by
  cases items with
  | nil =>
    rw [mergeEach] at ran
    cases ran
    simpa only [inEach] using Ran.refl _
  | cons item rest =>
    rw [mergeEach] at ran
    obtain ⟨o₁, merged, ran⟩ := bind_eq_ok.1 ran
    have first := mergeOne_ran merged
    have both := first.trans merging (mergeEach_ran (first.merging.trans merging) ran)
    simpa only [inEach] using both
  termination_by (sizeOf items, 0)

end

end Overlay

/-! ## Documents -/

def documentGives : Yaml.Node → Field → Option Datum
  | .mapping _ _ entries, f => (inMapping f.name entries).bind f.said?
  | _, _ => none

/-- A file without mismatches sets what it says and nothing else. -/
theorem applyDocument_datum {settings applied : Settings} {document : Yaml.Node}
    (ran : settings.applyDocument document = .ok (applied, [])) (f : Field) :
    applied.datum f = (documentGives document f).getD (settings.datum f) := by
  cases document with
  | mapping line tag entries =>
    rw [applyDocument] at ran
    obtain ⟨o, first, ran⟩ := bind_eq_ok.1 ran
    obtain ⟨o₁, second, ran⟩ := bind_eq_ok.1 ran
    obtain ⟨o₂, mapped, done⟩ := bind_eq_ok.1 ran
    obtain ⟨same, clean⟩ := Prod.mk.inj (Except.ok.inj done)
    have aside := (Overlay.aside_count first).trans (Overlay.aside_count second)
    have ran := (Overlay.mapping_ran mapped).aside aside ⟨rfl, rfl, rfl⟩
    rw [← same]
    refine (ran.applied clean).set f rfl List.not_mem_nil
  -- A document that is no mapping is empty or has a mismatch.
  | scalar | sequence | reference | loop =>
    rw [applyDocument.eq_def] at ran
    obtain ⟨result, -, done⟩ := bind_eq_ok.1 ran
    cases result <;> cases done <;> rfl

/-! ## Formats -/

/-- A file that is applied sets what it has keys for, and one without a document has none.  What the keys of a file
    stand for is up to the format. -/
structure Format.Overwrites (format : Format) (keys : List UInt8 → Field → Option Datum) : Prop where
  applied {bytes : List UInt8} {before after : Settings} (done : format bytes before = .ok after) (f : Field) :
    after.datum f = (keys bytes f).getD (before.datum f)
  nothing {bytes : List UInt8} {before : Settings} (empty : format bytes before = .error .noDocument) (f : Field) :
    keys bytes f = none

def yamlGives (bytes : List UInt8) (f : Field) : Option Datum :=
  match Yaml.read bytes with
  | .ok (some document) => documentGives document f
  | _ => none

theorem yaml_overwrites : yaml.Overwrites yamlGives where
  applied {bytes before after} done f := by
    unfold yaml at done
    unfold yamlGives
    split at done
    next => cases done
    next => cases done
    next document read =>
      rw [read]
      split at done
      next => cases done
      next settings mismatches ran =>
        split at done
        next clean =>
          cases done
          exact applyDocument_datum (List.isEmpty_iff.1 clean ▸ ran) f
        next => cases done
  nothing {bytes before} empty f := by
    unfold yaml at empty
    unfold yamlGives
    split at empty
    next => cases empty
    next read => rw [read]
    next document read =>
      split at empty
      next => cases empty
      next => split at empty <;> cases empty

end Settings

end ClassScript
