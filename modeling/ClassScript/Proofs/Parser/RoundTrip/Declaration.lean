import ClassScript.Proofs.Parser.RoundTrip.Statement

/-! # Reading back the tokens of a declaration

The keywords in front of a declaration are read back as its modifiers, whatever order they are written in, and
what follows them as the declaration itself.  The members of a class are read back in the order in which they
are sorted.
-/

namespace ClassScript

namespace Parser

open Cursor (At headKind)

variable {c c₁ c' : Cursor} {rest : List Token} {n : Node} {span : Span} {modifiers : Modifiers}

/-! ## Modifiers -/

/-- A cursor passes over the tokens that it is told to skip. -/
theorem at_skipWhile {skipped : Kind → Bool} {front : List Token}
    (skip : ∀ t ∈ front, skipped t.kind = true ∧ t.kind ≠ .endOfFile)
    (stop : skipped (headKind rest) = false) (here : At (front ++ rest) c) :
    At rest (c.skipWhile skipped) := by
  induction front generalizing c with
  | nil =>
    have here : At rest c := here
    rwa [Cursor.skipWhile_eq_self (by rwa [here.kind])]
  | cons t front ih =>
    obtain ⟨head, more⟩ := List.forall_mem_cons.1 skip
    have here : At (t :: (front ++ rest)) c := here
    have ahead : c.kind = t.kind := here.kind
    rw [Cursor.skipWhile_of_skipped (by rw [ahead]; exact head.2) (by rw [ahead]; exact head.1)]
    exact ih more here.advance

theorem isModifier_of_mem_tokens (m : Modifiers) :
    ∀ t ∈ m.tokens, t.kind.isModifier = true ∧ t.kind ≠ .endOfFile := by
  obtain ⟨access, inClass, isStatic, isFinal⟩ := m
  cases access <;> cases inClass <;> cases isStatic <;> cases isFinal <;> decide

theorem foldl_withModifier_tokens (m : Modifiers) :
    m.tokens.foldl (fun seen t => withModifier seen t.kind) { inClass := m.inClass } = m := by
  obtain ⟨access, inClass, isStatic, isFinal⟩ := m
  cases access <;> cases isStatic <;> cases isFinal <;> rfl

theorem modifiers_read {tokens : List Token} (stop : (headKind tokens).isModifier = false)
    (here : At (modifiers.tokens ++ tokens) c) :
    modifiersAhead c modifiers.inClass = modifiers ∧ At tokens c.pastModifiers := by
  refine ⟨?_, at_skipWhile (isModifier_of_mem_tokens modifiers) stop here⟩
  have taken : c.rest.takeWhile (fun t => t.kind.isModifier) = modifiers.tokens := by
    rw [here.rest, List.takeWhile_append_of_pos fun t member => (isModifier_of_mem_tokens modifiers t member).1]
    cases tokens with
    | nil => exact List.append_nil _
    | cons t tokens =>
      have stop : t.kind.isModifier = false := stop
      rw [List.takeWhile_cons_of_neg (by simp [stop]), List.append_nil]
  rw [modifiersAhead, taken, foldl_withModifier_tokens]

/-! ## Declarations -/

def declares (kind : Kind) : Bool := kind.isTypeWord || kind = .functionWord || kind = .classWord

/-- The tokens of a declaration are its modifiers and a core, and the core is read back as the declaration. -/
structure Declared (modifiers : Modifiers) (n : Node) (core : List Token) : Prop where
  present : n.isAbsent = false
  written : n.tokens = modifiers.tokens ++ core
  begins : declares (headKind core) = true
  reads : ∀ {rest : List Token} {c : Cursor}, At (core ++ rest) c → Closes rest →
    ∃ c', At rest c' ∧ Reads (.declaration .none modifiers) c (.node n.erase) c'

theorem of_declares {kind : Kind} (begins : declares kind = true) :
    beginsMember kind = true ∧ kind.isModifier = false := by
  revert begins
  cases kind with
  | other code => exact nofun
  | _ => decide

namespace Declared

variable {core : List Token}

theorem begins_tokens (declared : Declared modifiers n core) :
    beginsMember (headKind n.tokens) = true := by
  rw [declared.written]
  cases front : modifiers.tokens with
  | nil => exact (of_declares declared.begins).1
  | cons t tokens =>
    have modifier := (isModifier_of_mem_tokens modifiers t (by simp [front])).1
    simp [beginsMember, headKind, modifier]

/-- A declaration is read back behind its modifiers. -/
theorem reads_tokens (declared : Declared modifiers n core) (here : At (n.tokens ++ rest) c)
    (closes : Closes rest) : ∃ c', At rest c' ∧
      Reads (.declaration c.next.span.first (modifiersAhead c modifiers.inClass)) c.pastModifiers
        (.node n.erase) c' := by
  have stop : (headKind (core ++ rest)).isModifier = false := by
    have begins := declared.begins
    cases core with
    | nil => cases begins
    | cons t core => exact (of_declares begins).2
  rw [declared.written, List.append_assoc] at here
  obtain ⟨same, behind⟩ := modifiers_read stop here
  rw [same, here.next_span]
  exact declared.reads behind closes

theorem stated (declared : Declared modifiers n core) (outside : modifiers.inClass = false) :
    Stated n := by
  refine ⟨declared.present, opensStatement_of_beginsMember declared.begins_tokens,
    fun {rest c} here breaks => ?_⟩
  have begins := opens_append (fun _ => opensStatement_of_beginsMember) declared.begins_tokens rest
  obtain ⟨c', behind, read⟩ := declared.reads_tokens here breaks.1
  rw [outside] at read
  exact ⟨c', behind, .statementDeclaration (by rwa [here.kind]) read⟩

theorem membered (declared : Declared modifiers n core) (inside : modifiers.inClass = true) :
    Membered n := by
  refine ⟨declared.present, declared.begins_tokens, fun {rest c} here breaks => ?_⟩
  obtain ⟨c', behind, read⟩ := declared.reads_tokens here breaks.1
  rw [inside] at read
  exact ⟨c', behind, .member read⟩

end Declared

/-! ## Variables -/

variable {kind : Kind} {type : DeclaredType} {name : String}

theorem declaredType?_token (is : kind.declaredType? = some type) :
    type.token.declaredType? = some type := by
  have token : type.token = kind := by
    revert is
    cases kind with
    | other code => exact nofun
    | _ => rintro ⟨⟩ <;> rfl
  rwa [token]

theorem declares_token (is : kind.declaredType? = some type) : declares type.token = true := by
  simp [declares, Kind.isTypeWord, declaredType?_token is]

theorem declared_variablePlain (is : kind.declaredType? = some type) :
    Declared modifiers (.variableDeclaration span modifiers name type .absent)
      [.mark type.token, .name name] := by
  refine ⟨rfl, rfl, declares_token is, fun {rest c} here closes => ?_⟩
  have here : At (.mark type.token :: .name name :: rest) c := here
  have named := here.advance
  have behind := named.advance
  have typed : c.kind.declaredType? = some type := by
    rw [here.kind]
    exact declaredType?_token is
  have unset : c.advance.advance.kind ≠ .assign := by
    intro assigns
    have plain := closes.2
    rw [← behind.kind, assigns] at plain
    cases plain
  refine ⟨_, behind, ?_⟩
  have read {start : Position} : Reads (.declaration start modifiers) c _ c.advance.advance :=
    .variablePlain (by rw [Kind.isTypeWord, typed]; rfl) (by rw [named.kind]; rfl) unset
  rw [named.next_eq, behind.lastEnd_eq, typed] at read
  exact read

theorem declared_variableInitial {span' span'' : Span} {value : Node}
    (is : kind.declaredType? = some type) (expressed : Expressed value) :
    Declared modifiers (.variableDeclaration span modifiers name type
        (.assignment span' .assign (.identifier span'' .absent name) value))
      (.mark type.token :: .name name :: .mark .assign :: inParens value.tokens) := by
  refine ⟨rfl, ?_, declares_token is, fun {rest c} here closes => ?_⟩
  · have initial : (Node.assignment span' .assign (.identifier span'' .absent name) value).tokens =
        .name name :: .mark .assign :: inParens value.tokens := by
      rw [Node.tokens, expressed.present]
      rfl
    exact congrArg (fun tokens => modifiers.tokens ++ .mark type.token :: tokens) initial
  · have here : At (.mark type.token :: .name name :: .mark .assign :: (inParens value.tokens ++ rest)) c := here
    have named := here.advance
    have assigns := named.advance
    have opened := assigns.advance
    have same : c.advance.advance.advance.pastNewlines = c.advance.advance.advance :=
      opened.pastNewlines_eq (by rw [inParens_append]; rintro ⟨⟩)
    obtain ⟨c', behind, readValue⟩ := expressed.grouped opened closes
    have typed : c.kind.declaredType? = some type := by
      rw [here.kind]
      exact declaredType?_token is
    have read {start : Position} : Reads (.declaration start modifiers) c _ c' :=
      .variableInitial (by rw [Kind.isTypeWord, typed]; rfl) (by rw [named.kind]; rfl)
        (by rw [assigns.kind]; rfl) (by rwa [same]) (by rw [Node.isAbsent_erase]; exact expressed.present)
    rw [named.next_eq, behind.lastEnd_eq, typed] at read
    exact ⟨c', behind, read⟩

/-! ## Functions -/

theorem moreNames_read {names : List String}
    (here : At ((names.map fun name => [Token.name name]).flatMap (.mark .comma :: ·) ++
      .mark .rightParen :: rest) c) :
    ∃ c', At (.mark .rightParen :: rest) c' ∧ ReadsMoreNames c names c' := by
  induction names generalizing c with
  | nil => exact ⟨c, here, .done (by rw [here.kind]; exact nofun)⟩
  | cons name names ih =>
    have named := here.advance
    have same : c.advance.pastNewlines = c.advance := named.pastNewlines_eq nofun
    obtain ⟨c', closed, read⟩ := ih named.advance
    have read := ReadsMoreNames.next (by rw [here.kind]; rfl) (by rw [same, named.kind]; rfl)
      (by rwa [same])
    rw [same, named.next_eq] at read
    exact ⟨c', closed, read⟩

theorem params_read {names : List String}
    (here : At (inParens (separatedBy (.mark .comma) (names.map fun name => [.name name])) ++ rest) c) :
    ∃ c', At rest c' ∧ ReadsParams c names c' := by
  rw [inParens_append] at here
  have opened : c.kind = .leftParen := by rw [here.kind]; rfl
  have inside := here.advance
  cases names with
  | nil =>
    have same : c.advance.pastNewlines = c.advance := inside.pastNewlines_eq nofun
    have read := ReadsParams.none opened (by rw [same, inside.kind]; rfl)
    rw [same] at read
    exact ⟨_, inside.advance, read⟩
  | cons name names =>
    rw [List.map_cons, separatedBy_cons, List.append_assoc] at inside
    have same : c.advance.pastNewlines = c.advance := inside.pastNewlines_eq nofun
    obtain ⟨c₁, closed, readMore⟩ := moreNames_read inside.advance
    have sameEnd : c₁.pastNewlines = c₁ := closed.pastNewlines_eq nofun
    have read := ReadsParams.some opened (by rw [same, inside.kind]; rfl) (by rwa [same])
      (by rw [sameEnd, closed.kind]; rfl)
    rw [same, inside.next_eq, sameEnd] at read
    exact ⟨_, closed.advance, read⟩

theorem declared_function {params : List String} {body : Node} (bodied : Bodied body) :
    Declared modifiers (.functionDeclaration span modifiers name params body)
      (.mark .functionWord :: .name name ::
        (inParens (separatedBy (.mark .comma) (params.map fun param => [.name param])) ++ body.tokens)) := by
  refine ⟨rfl, rfl, rfl, fun {rest c} here _ => ?_⟩
  rw [List.cons_append, List.cons_append, List.append_assoc] at here
  have named := here.advance
  obtain ⟨c₁, behindParams, readParams⟩ := params_read named.advance
  obtain ⟨opened, c', behind, readBody⟩ := bodied.reads behindParams
  have same : c₁.pastNewlines = c₁ := Cursor.pastNewlines_eq_self (by rw [opened]; exact nofun)
  have read {start : Position} : Reads (.declaration start modifiers) c _ c' :=
    .function (by rw [here.kind]; rfl) (by rw [named.kind]; rfl) readParams (by rwa [same])
  rw [named.next_eq, behind.lastEnd_eq] at read
  exact ⟨c', behind, read⟩

/-! ## Classes -/

@[simp] theorem declared?_erase (n : Node) : declared? n.erase = declared? n := by
  cases n <;> rfl

/-- Sorting keeps the order of the members of a sort. -/
theorem sortMembers_eq (ns : List Node) :
    sortMembers ns =
      ⟨ns.filter (declared? · = some .variable), ns.filter (declared? · = some .function),
        ns.filter (declared? · = some .blueprint)⟩ := by
  have sorted (members : Members) : ns.foldl Members.add members =
      ⟨members.fields ++ ns.filter (declared? · = some .variable),
        members.methods ++ ns.filter (declared? · = some .function),
        members.classes ++ ns.filter (declared? · = some .blueprint)⟩ := by
    induction ns generalizing members with
    | nil => simp
    | cons n ns ih =>
      rw [List.foldl_cons, ih]
      cases n <;> simp only [List.filter_cons, declared?, Members.add, reduceCtorEq, Option.some.injEq, decide_true,
        decide_false, Bool.false_eq_true, ↓reduceIte, List.append_assoc, List.singleton_append]
  exact sorted {}

theorem filter_declared? {ns : List Node} {sort : Declares} (all : ∀ n ∈ ns, declared? n = some sort)
    (wanted : Declares) :
    ns.filter (declared? · = some wanted) = if sort = wanted then ns else [] := by
  split
  case isTrue same =>
    exact List.filter_eq_self.2 fun n member => by simp [all n member, same]
  case isFalse differs =>
    exact List.filter_eq_nil_iff.2 fun n member => by simp [all n member, differs]

theorem sortMembers_sorted {fields methods classes : List Node}
    (areFields : ∀ n ∈ fields, declared? n = some .variable)
    (areMethods : ∀ n ∈ methods, declared? n = some .function)
    (areClasses : ∀ n ∈ classes, declared? n = some .blueprint) :
    sortMembers (fields ++ methods ++ classes) = ⟨fields, methods, classes⟩ := by
  simp [sortMembers_eq, filter_declared? areFields, filter_declared? areMethods,
    filter_declared? areClasses]

/-- Class members are read back up to the closing brace. -/
theorem members_read {ns : List Node} (membered : ∀ n ∈ ns, Membered n)
    (here : At (separatedBy .lineBreak (ns.map Node.tokens) ++ .mark .rightBrace :: rest) c) :
    ∃ c', At (.mark .rightBrace :: rest) c' ∧
      Reads .members c.pastSeparators (.nodes (ns.map Node.erase)) c' := by
  refine lines_read (fun _ => opensStatement_of_beginsMember) membered
    (fun here => .membersDone ?_) (fun begins read _ more => .membersNext ?_ begins read more)
    breaks_rightBrace rfl here
  · rw [here.kind]
    rfl
  · exact (of_opensStatement (opensStatement_of_beginsMember begins)).2.1

def Sorted (sort : Declares) (n : Node) : Prop := declared? n = some sort ∧ Membered n

theorem declared_blueprint {fields methods classes : List Node}
    (areFields : ∀ n ∈ fields, Sorted .variable n) (areMethods : ∀ n ∈ methods, Sorted .function n)
    (areClasses : ∀ n ∈ classes, Sorted .blueprint n) :
    Declared modifiers (.classDeclaration span modifiers name fields methods classes)
      (.mark .classWord :: .name name ::
        inBraces (separatedBy .lineBreak ((fields ++ methods ++ classes).map Node.tokens))) := by
  have membered : ∀ n ∈ fields ++ methods ++ classes, Membered n := by
    intro n member
    rcases List.mem_append.1 member with front | aClass
    · rcases List.mem_append.1 front with aField | aMethod
      · exact (areFields n aField).2
      · exact (areMethods n aMethod).2
    · exact (areClasses n aClass).2
  refine ⟨rfl, by simp [Node.tokens], rfl, fun {rest c} here _ => ?_⟩
  rw [List.cons_append, List.cons_append, inBraces_append] at here
  have named := here.advance
  have opened := named.advance
  have same : c.advance.advance.pastNewlines = c.advance.advance := opened.pastNewlines_eq (by rintro ⟨⟩)
  obtain ⟨c₁, closed, readMembers⟩ := members_read membered opened.advance
  have read {start : Position} : Reads (.declaration start modifiers) c _ c₁.advance :=
    .blueprint (by rw [here.kind]; rfl) (by rw [named.kind]; rfl) (by rw [same, opened.kind]; rfl)
      (by rwa [same]) (by rw [closed.kind]; rfl)
  -- Members are written in the order that sorting gives them, so sorting them again changes nothing.
  have sorted : sortMembers ((fields ++ methods ++ classes).map Node.erase) =
      ⟨fields.map Node.erase, methods.map Node.erase, classes.map Node.erase⟩ := by
    rw [List.map_append, List.map_append]
    apply sortMembers_sorted
    all_goals simp_all [Sorted]
  rw [named.next_eq, closed.advance.lastEnd_eq, sorted] at read
  rw [Node.erase_classDeclaration]
  exact ⟨_, closed.advance, read⟩

end Parser

end ClassScript
