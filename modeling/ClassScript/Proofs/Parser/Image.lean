import ClassScript.Proofs.Parser.Completeness

/-! # The trees of accepted programs

`Fits numbers role n` says which trees the parser makes without complaint, by the role that they play in a
program.  An assignment goes to a name or a member and never to any other expression, a callee is never a
mere reading of a variable, a class is given by its dotted name, bodies are trees, and declarations carry the
modifiers in front of them.  What a program is read as fits its role (`fits_of_reads`).
-/

namespace ClassScript

namespace Parser

open Cursor (Onward)

/-- Which numbers may stand in a tree. -/
structure Numbers where
  integer : Int64 → Prop
  double : Float → Prop

inductive Declares
  | variable
  | function
  | blueprint
  deriving DecidableEq

def declared? : Node → Option Declares
  | .variableDeclaration .. => some .variable
  | .functionDeclaration .. => some .function
  | .classDeclaration .. => some .blueprint
  | _ => none

inductive Role
  /-- An expression. -/
  | expression
  /-- A name, or a member of what an expression yields. -/
  | target
  /-- The name of a class. -/
  | className
  /-- A part of a loop header, which may be empty. -/
  | slot
  /-- The first part of a loop header. -/
  | start
  /-- A declaration with its modifiers. -/
  | declaration (sort : Declares) (modifiers : Modifiers)
  /-- A declaration in a class body. -/
  | member (sort : Declares)
  /-- A statement. -/
  | statement
  /-- The body of a function, a loop or a branch. -/
  | body

def isUsage : Node → Bool
  | .usage .. => true
  | _ => false

inductive Fits (numbers : Numbers) : Role → Node → Prop
  -- Expressions.
  | integer {span : Span} {value : Int64} :
      numbers.integer value → Fits numbers .expression (.integer span value)
  | double {span : Span} {value : Float} :
      numbers.double value → Fits numbers .expression (.double span value)
  | boolean {span : Span} {value : Bool} : Fits numbers .expression (.boolean span value)
  | null {span : Span} : Fits numbers .expression (.null span)
  | usage {span : Span} {target : Node} :
      Fits numbers .target target → Fits numbers .expression (.usage span target)
  | binary {span : Span} {op : BinaryOp} {left right : Node} :
      op ≠ .unknown → Fits numbers .expression left → Fits numbers .expression right →
      Fits numbers .expression (.binary span op left right)
  | step {span : Span} {op : AssignOp} {target : Node} :
      op = .increase ∨ op = .decrease → Fits numbers .target target →
      Fits numbers .expression (.assignment span op target .absent)
  | assignment {span : Span} {op : AssignOp} {target value : Node} :
      op ≠ .increase → op ≠ .decrease → op ≠ .unknown →
      Fits numbers .target target → Fits numbers .expression value →
      Fits numbers .expression (.assignment span op target value)
  | callName {span : Span} {callee : Node} {arguments : List Node} :
      Fits numbers .target callee → (∀ n ∈ arguments, Fits numbers .expression n) →
      Fits numbers .expression (.call span callee arguments)
  | callValue {span : Span} {callee : Node} {arguments : List Node} :
      Fits numbers .expression callee → isUsage callee = false →
      (∀ n ∈ arguments, Fits numbers .expression n) →
      Fits numbers .expression (.call span callee arguments)
  | instantiation {span : Span} {blueprint : Node} {arguments : List Node} :
      Fits numbers .className blueprint → (∀ n ∈ arguments, Fits numbers .expression n) →
      Fits numbers .expression (.instantiation span blueprint arguments)
  -- Names and classes.
  | name {span : Span} {name : String} : Fits numbers .target (.identifier span .absent name)
  | member {span : Span} {receiver : Node} {name : String} :
      Fits numbers .expression receiver → Fits numbers .target (.identifier span receiver name)
  | plainName {span span' : Span} {name : String} :
      Fits numbers .className (.usage span (.identifier span' .absent name))
  | nestedName {span span' : Span} {outer : Node} {name : String} :
      Fits numbers .className outer →
      Fits numbers .className (.usage span (.identifier span' outer name))
  -- Declarations.
  | variablePlain {span : Span} {modifiers : Modifiers} {name : String} {kind : Kind}
      {type : DeclaredType} :
      kind.declaredType? = some type →
      Fits numbers (.declaration .variable modifiers)
        (.variableDeclaration span modifiers name type .absent)
  | variableInitial {span span' span'' : Span} {modifiers : Modifiers} {name : String} {kind : Kind}
      {type : DeclaredType} {value : Node} :
      kind.declaredType? = some type → Fits numbers .expression value →
      Fits numbers (.declaration .variable modifiers) (.variableDeclaration span modifiers name type
        (.assignment span' .assign (.identifier span'' .absent name) value))
  | function {span : Span} {modifiers : Modifiers} {name : String} {params : List String}
      {body : Node} :
      Fits numbers .body body →
      Fits numbers (.declaration .function modifiers)
        (.functionDeclaration span modifiers name params body)
  | blueprint {span : Span} {modifiers : Modifiers} {name : String}
      {fields methods classes : List Node} :
      (∀ n ∈ fields, Fits numbers (.member .variable) n) →
      (∀ n ∈ methods, Fits numbers (.member .function) n) →
      (∀ n ∈ classes, Fits numbers (.member .blueprint) n) →
      Fits numbers (.declaration .blueprint modifiers)
        (.classDeclaration span modifiers name fields methods classes)
  | inClass {sort : Declares} {modifiers : Modifiers} {n : Node} :
      modifiers.inClass = true → Fits numbers (.declaration sort modifiers) n →
      Fits numbers (.member sort) n
  -- Statements.
  | declared {sort : Declares} {modifiers : Modifiers} {n : Node} :
      modifiers.inClass = false → Fits numbers (.declaration sort modifiers) n →
      Fits numbers .statement n
  | evaluated {n : Node} : Fits numbers .expression n → Fits numbers .statement n
  | branch {span : Span} {test yes : Node} :
      Fits numbers .expression test → Fits numbers .body yes →
      Fits numbers .statement (.branch span test yes .absent)
  | branchElse {span : Span} {test yes no : Node} :
      Fits numbers .expression test → Fits numbers .body yes → Fits numbers .body no →
      Fits numbers .statement (.branch span test yes no)
  | whileLoop {span : Span} {test body : Node} :
      Fits numbers .expression test → Fits numbers .body body →
      Fits numbers .statement (.whileLoop span test body)
  | doWhileLoop {span : Span} {test body : Node} :
      Fits numbers .expression test → Fits numbers .body body →
      Fits numbers .statement (.doWhileLoop span test body)
  | forLoop {span : Span} {first test round body : Node} :
      Fits numbers .start first → Fits numbers .slot test → Fits numbers .slot round →
      Fits numbers .body body →
      Fits numbers .statement (.forLoop span first test round body)
  | body {span : Span} {children : List Node} :
      (∀ n ∈ children, Fits numbers .statement n) → Fits numbers .body (.tree span children)
  -- Parts of loop headers.
  | slotNone : Fits numbers .slot .absent
  | slotSome {n : Node} : Fits numbers .expression n → Fits numbers .slot n
  | startVariable {n : Node} : Fits numbers (.declaration .variable {}) n → Fits numbers .start n
  | startSlot {n : Node} : Fits numbers .slot n → Fits numbers .start n

/-! ## What is read fits -/

def Numbers.Admits (numbers : Numbers) (t : Token) : Prop :=
  (t.kind = .integer → (Number.readInteger t.lexeme).2 = true →
    numbers.integer (Number.readInteger t.lexeme).1) ∧
  (t.kind = .double → (Number.readDouble t.lexeme).2 = true →
    numbers.double (Number.readDouble t.lexeme).1)

structure Numbers.Symmetric (numbers : Numbers) : Prop where
  zero : numbers.integer 0
  integer : ∀ value, numbers.integer value → numbers.integer (-value)
  double : ∀ value, numbers.double value → numbers.double (-value)

def Phrase.Yields (numbers : Numbers) : Phrase → Yield → Prop
  | .goal .expression, .node n | .goal (.operand _), .node n | .atom, .node n =>
    n.isAbsent = false → Fits numbers .expression n
  | .goal .statement, .node n => Fits numbers .statement n
  | .goal .member, .node n => ∃ sort, Fits numbers (.member sort) n
  | .tail _ left, .node n => Fits numbers .expression left → Fits numbers .expression n
  | .dotted left, .node n => Fits numbers .className left → Fits numbers .className n
  | .arguments, .nodes ns | .moreArguments, .nodes ns => ∀ n ∈ ns, Fits numbers .expression n
  | .statements _, .nodes ns => ∀ n ∈ ns, Fits numbers .statement n
  | .block, .node n | .body, .node n => Fits numbers .body n
  | .condition, .node n => Fits numbers .expression n
  | .declaration _ modifiers, .node n => ∃ sort, Fits numbers (.declaration sort modifiers) n
  | .members, .nodes ns => ∀ n ∈ ns, ∃ sort, Fits numbers (.member sort) n
  | .forStart, .node n => Fits numbers .start n
  | .forPart _, .node n => Fits numbers .slot n
  | _, _ => False

section Reading

variable {numbers : Numbers}

theorem fits_of_literal? {t : Token} (admits : numbers.Admits t) {n : Node}
    (found : literal? t = some n) : Fits numbers .expression n := by
  cases isLiteral_of_literal? found with
  | integer kind fits => exact .integer (admits.1 kind fits)
  | double kind fits => exact .double (admits.2 kind fits)
  | yes | no => exact .boolean
  | null => exact .null
  | name => exact .usage .name

theorem fits_signed (symmetric : numbers.Symmetric) {t : Token} {n : Node}
    (fits : n.isAbsent = false → Fits numbers .expression n)
    (present : (signed t n).isAbsent = false) : Fits numbers .expression (signed t n) := by
  rw [signed] at present ⊢
  split at present
  case isTrue => cases present
  case isFalse operand =>
    have fits := fits (by simpa using operand)
    rw [if_neg operand]
    split
    · cases n with
      | integer _ value =>
        cases fits with
        | integer admitted => exact .integer (symmetric.integer value admitted)
      | double _ value =>
        cases fits with
        | double admitted => exact .double (symmetric.double value admitted)
      | _ => exact .binary (by simp) (.integer symmetric.zero) fits
    · exact fits

theorem fits_call {left : Node} (fits : Fits numbers .expression left) {arguments : List Node}
    (fitArguments : ∀ n ∈ arguments, Fits numbers .expression n) (span : Span) :
    Fits numbers .expression (.call span (calleeOf left) arguments) := by
  cases left with
  | usage _ target =>
    cases fits with
    | usage fitTarget => exact .callName fitTarget fitArguments
  | _ => exact .callValue fits rfl fitArguments

theorem binaryOp?_ne_unknown {kind : Kind} {op : BinaryOp} (is : kind.binaryOp? = some op) :
    op ≠ .unknown := by
  rintro rfl
  cases kind <;> cases is

theorem assignOp_of_isStep {t : Token} (step : isStep t.kind = true) :
    assignOp t = .increase ∨ assignOp t = .decrease := by
  rw [isStep, Bool.or_eq_true, decide_eq_true_eq, decide_eq_true_eq] at step
  rcases step with up | down
  · exact .inl (by rw [assignOp, up]; rfl)
  · exact .inr (by rw [assignOp, down]; rfl)

theorem assignOp_of_assignsValue {t : Token} (assigns : assignsValue t.kind = true) :
    assignOp t ≠ .increase ∧ assignOp t ≠ .decrease ∧ assignOp t ≠ .unknown := by
  rw [assignOp]
  revert assigns
  cases t.kind with
  | other code => exact nofun
  | _ => decide

theorem declaredType?_of_isTypeWord {kind : Kind} (typed : kind.isTypeWord = true) :
    kind.declaredType? = some (kind.declaredType?.getD .dynamic) := by
  rw [Kind.isTypeWord, Option.isSome_iff_exists] at typed
  obtain ⟨type, is⟩ := typed
  rw [is]
  rfl

structure Members.Fit (numbers : Numbers) (members : Members) : Prop where
  fields : ∀ n ∈ members.fields, Fits numbers (.member .variable) n
  methods : ∀ n ∈ members.methods, Fits numbers (.member .function) n
  classes : ∀ n ∈ members.classes, Fits numbers (.member .blueprint) n

theorem Members.Fit.add {members : Members} (fit : members.Fit numbers) {n : Node} {sort : Declares}
    (fits : Fits numbers (.member sort) n) : (members.add n).Fit numbers := by
  have put {ns : List Node} {sort : Declares} (all : ∀ n' ∈ ns, Fits numbers (.member sort) n')
      (one : Fits numbers (.member sort) n) : ∀ n' ∈ ns ++ [n], Fits numbers (.member sort) n' := by
    intro n' member
    rcases List.mem_append.1 member with old | new
    · exact all n' old
    · rwa [List.mem_singleton.1 new]
  cases fits with
  | inClass inside declared =>
    have fits := Fits.inClass inside declared
    cases declared with
    | variablePlain | variableInitial => exact ⟨put fit.fields fits, fit.methods, fit.classes⟩
    | function => exact ⟨fit.fields, put fit.methods fits, fit.classes⟩
    | blueprint => exact ⟨fit.fields, fit.methods, put fit.classes fits⟩

theorem fit_sortMembers {ns : List Node} (all : ∀ n ∈ ns, ∃ sort, Fits numbers (.member sort) n) :
    (sortMembers ns).Fit numbers := by
  refine List.foldlRecOn ns Members.add (motive := Members.Fit numbers) ⟨nofun, nofun, nofun⟩ ?_
  intro members fit n member
  obtain ⟨sort, fits⟩ := all n member
  exact fit.add fits

theorem inClass_modifiersAhead (c : Cursor) (inClass : Bool) :
    (modifiersAhead c inClass).inClass = inClass := by
  refine List.foldlRecOn _ _ (motive := fun seen : Modifiers => seen.inClass = inClass) rfl ?_
  intro seen same t _
  rw [withModifier.eq_def]
  split <;> exact same

theorem fits_slot {n : Node} (fits : n.isAbsent = false → Fits numbers .expression n) :
    Fits numbers .slot n := by
  cases present : n.isAbsent with
  | true =>
    rw [Node.isAbsent_iff.1 present]
    exact .slotNone
  | false => exact .slotSome (fits present)

/-! The tokens ahead of a cursor. -/

theorem admits_next {c : Cursor} (admitted : ∀ t ∈ c.rest, numbers.Admits t) :
    numbers.Admits c.next := by
  cases rest : c.rest with
  | nil => simp [Cursor.next, rest, Token.missing, Numbers.Admits]
  | cons t more =>
    rw [show c.next = t by simp [Cursor.next, rest]]
    exact admitted t (by simp [rest])

/-- What is read fits the role of its phrase. -/
theorem fits_of_reads (symmetric : numbers.Symmetric) {phrase : Phrase} {c c' : Cursor} {y : Yield}
    (read : Reads phrase c y c') (admitted : ∀ t ∈ c.rest, numbers.Admits t) :
    phrase.Yields numbers y := by
  -- The tokens further on are among the tokens ahead, so their numbers are admitted too.
  have onward {c c' : Cursor} (admitted : ∀ t ∈ c.rest, numbers.Admits t) (onward : Onward c c') :
      ∀ t ∈ c'.rest, numbers.Admits t := fun t member => admitted t (onward.rest.subset member)
  induction read with
  | literal found => exact fun _ => fits_of_literal? (admits_next admitted) found
  | group _ _ _ inner => exact inner (onward admitted (Onward.refl _).pastNewlines.advance)
  | sign _ _ operand =>
    exact fits_signed symmetric (operand (onward admitted (Onward.refl _).pastNewlines.advance))
  | stepNothing | nothing | operandNothing | expressionNothing => exact fun present => nomatch present
  | step ahead _ operand =>
    cases operand (onward admitted (Onward.refl _).advance) rfl with
    | usage target => exact fun _ => .step (assignOp_of_isStep ahead) target
  | instantiation _ _ readName _ blueprint arguments =>
    have behind := readName.onward.advance.advance
    exact fun _ => .instantiation
      (blueprint (onward admitted (Onward.refl _).advance.advance) .plainName)
      (arguments (onward admitted behind))
  | operand readAtom present _ atom tail =>
    exact fun _ => tail (onward admitted readAtom.onward) (atom admitted present)
  | tailDone | dottedDone => exact id
  | tailStep _ ahead _ tail =>
    intro fits
    cases fits with
    | usage target =>
      exact tail (onward admitted (Onward.refl _).advance) (.step (assignOp_of_isStep ahead) target)
  | tailCall _ _ readArguments _ arguments tail =>
    exact fun left => tail (onward admitted readArguments.onward) (fits_call left (arguments admitted) _)
  | tailMember _ _ _ _ tail =>
    exact fun left =>
      tail (onward admitted (Onward.refl _).advance.pastNewlines.advance) (.usage (.member left))
  | tailBinary _ operator readRight present _ right tail =>
    have ahead := onward admitted (Onward.refl _).pastNewlines.advance
    exact fun left => tail (onward ahead readRight.onward)
      (.binary (binaryOp?_ne_unknown operator) left (right ahead present))
  | dottedNext _ _ _ tail =>
    exact fun outer =>
      tail (onward admitted (Onward.refl _).advance.pastNewlines.advance) (.nestedName outer)
  | argumentsNone | argumentsDone | statementsDone | membersDone => exact nofun
  | argumentsSome _ _ readHead present _ _ head more =>
    have ahead := onward admitted (Onward.refl _).pastNewlines.advance
    exact List.forall_mem_cons.2 ⟨head ahead present, more (onward ahead readHead.onward)⟩
  | argumentsNext _ readHead present _ head more =>
    have ahead := onward admitted (Onward.refl _).pastNewlines.advance
    exact List.forall_mem_cons.2 ⟨head ahead present, more (onward ahead readHead.onward)⟩
  | expressionPlain _ _ _ operand => exact operand admitted
  | expressionAssign readTarget assigns _ present target value =>
    cases target admitted rfl with
    | usage fitTarget =>
      obtain ⟨notUp, notDown, known⟩ := assignOp_of_assignsValue assigns
      have ahead := onward admitted readTarget.onward.thenAdvance.thenPastNewlines
      exact fun _ => .assignment notUp notDown known fitTarget (value ahead present)
  | statementsNext _ readHead _ _ head more =>
    have behind := onward admitted readHead.onward.thenPastSeparators
    exact List.forall_mem_cons.2 ⟨head admitted, more behind⟩
  | block _ _ _ inner =>
    exact .body (inner (onward admitted (Onward.refl _).pastSeparators.advance))
  | bodyBlock _ _ inner => exact inner (onward admitted (Onward.refl _).pastNewlines)
  | bodySingle _ _ _ inner =>
    have statement := inner (onward admitted (Onward.refl _).pastNewlines)
    exact .body fun n member => List.mem_singleton.1 member ▸ statement
  | condition _ _ present _ test => exact test (onward admitted (Onward.refl _).pastNewlines.advance) present
  | variablePlain typed => exact ⟨_, .variablePlain (declaredType?_of_isTypeWord typed)⟩
  | variableInitial typed _ _ _ present value =>
    have ahead := onward admitted (Onward.refl _).pastNewlines.advance.advance.advance
    exact ⟨_, .variableInitial (declaredType?_of_isTypeWord typed) (value ahead present)⟩
  | function _ _ readParams _ body =>
    exact ⟨_, .function (body (onward admitted readParams.onward.thenPastNewlines.advance.advance))⟩
  | blueprint _ _ _ _ _ members =>
    have ahead := onward admitted (Onward.refl _).pastSeparators.advance.pastNewlines.advance.advance
    have fit := fit_sortMembers (members ahead)
    exact ⟨_, .blueprint fit.fields fit.methods fit.classes⟩
  | membersNext _ _ readHead _ head more =>
    have behind := onward admitted readHead.onward.thenPastSeparators
    exact List.forall_mem_cons.2 ⟨head admitted, more behind⟩
  | member _ declared =>
    obtain ⟨sort, fits⟩ := declared (onward admitted (Onward.refl _).pastModifiers)
    exact ⟨sort, .inClass (inClass_modifiersAhead _ true) fits⟩
  | statementDeclaration _ _ declared =>
    obtain ⟨sort, fits⟩ := declared (onward admitted (Onward.refl _).pastModifiers)
    exact .declared (inClass_modifiersAhead _ false) fits
  | statementExpression _ _ present expression => exact .evaluated (expression admitted present)
  | branchPlain _ readTest _ _ test yes =>
    have ahead := onward admitted (Onward.refl _).advance
    exact .branch (test ahead) (yes (onward ahead readTest.onward))
  | branchElse _ readTest readYes _ _ _ test yes no =>
    have ahead := onward admitted (Onward.refl _).advance
    have behindTest := onward ahead readTest.onward
    have otherwise := readYes.onward.thenPastNewlines.thenAdvance.thenPastNewlines
    exact .branchElse (test ahead) (yes behindTest) (no (onward behindTest otherwise))
  | branchElseIf _ readTest readYes _ _ _ test yes inner =>
    have ahead := onward admitted (Onward.refl _).advance
    have behindTest := onward ahead readTest.onward
    have otherwise := readYes.onward.thenPastNewlines.thenAdvance.thenPastNewlines
    have statement := inner (onward behindTest otherwise)
    exact .branchElse (test ahead) (yes behindTest)
      (.body fun n member => List.mem_singleton.1 member ▸ statement)
  | whileLoop _ readTest _ test inner =>
    have ahead := onward admitted (Onward.refl _).advance
    exact .whileLoop (test ahead) (inner (onward ahead readTest.onward))
  | doWhileLoop _ readInner _ _ inner test =>
    have ahead := onward admitted (Onward.refl _).advance
    have behind := readInner.onward.thenPastNewlines.thenAdvance
    exact .doWhileLoop (test (onward ahead behind)) (inner ahead)
  | forLoop _ _ readFirst _ readTest _ readRound _ _ first test round inner =>
    have atFirst := onward admitted (Onward.refl _).pastNewlines.advance.advance
    have atTest := onward atFirst readFirst.onward.thenAdvance.thenPastNewlines
    have atRound := onward atTest readTest.onward.thenAdvance.thenPastNewlines
    have atBody := onward atRound readRound.onward.thenPastNewlines.thenAdvance
    exact .forLoop (first atFirst) (test atTest) (round atRound) (inner atBody)
  | forStartNone => exact .startSlot .slotNone
  | forStartVariable typed readDeclared declared =>
    obtain ⟨sort, fits⟩ := declared admitted
    -- What a type word leads is a variable, so the last two cases do not arise.
    cases readDeclared with
    | variablePlain =>
      cases fits with
      | variablePlain type => exact .startVariable (.variablePlain type)
    | variableInitial =>
      cases fits with
      | variableInitial type value => exact .startVariable (.variableInitial type value)
    | function ahead | blueprint ahead =>
      rw [ahead] at typed
      cases typed
  | @forStartExpression _ _ n _ _ _ expression =>
    exact .startSlot (fits_slot (expression admitted))
  | forPartNone => exact .slotNone
  | forPartSome _ _ expression => exact fits_slot (expression admitted)

end Reading

end Parser

end ClassScript
