import ClassScript.Proofs.Parser.Image
import ClassScript.Proofs.Syntax.Spans
import ClassScript.Proofs.Syntax.Unparse

/-! # Reading back the tokens of an expression

For each rule of `Fits` that makes an expression, a name or a class, the tokens of the tree are read back as
that tree without its places.  Parentheses delimit themselves, so the only thing an expression has to know
about what follows is that it does not go on there (`Closes`).
-/

namespace ClassScript

/-! ## Cursors before tokens without places -/

namespace Cursor

def headKind (tokens : List Token) : Kind := (tokens.head?.getD .missing).kind

/-- The cursor stands before the given tokens, and neither they nor what was taken last has a place. -/
structure At (tokens : List Token) (c : Cursor) : Prop where
  rest : c.rest = tokens
  bare : ∀ t ∈ tokens, t.span = .none
  last : ∀ t ∈ c.last, t.span = .none

variable {c : Cursor} {t : Token} {tokens : List Token}

namespace At

theorem kind (here : At tokens c) : c.kind = headKind tokens := by
  rw [Cursor.kind, next, here.rest, headKind]

theorem next_eq (here : At (t :: tokens) c) : c.next = t := by
  rw [next, here.rest]
  rfl

theorem next_span (here : At tokens c) : c.next.span = .none := by
  rw [next, here.rest]
  cases tokens with
  | nil => rfl
  | cons t tokens => exact here.bare t List.mem_cons_self

theorem lastEnd_eq (here : At tokens c) : c.lastEnd = .none := by
  rw [lastEnd]
  cases taken : c.last with
  | none => exact congrArg Span.first here.next_span
  | some t => exact congrArg Span.last (here.last t taken)

theorem advance (here : At (t :: tokens) c) : At tokens c.advance := by
  obtain ⟨rest, last, diagnostics⟩ := c
  obtain rfl : rest = t :: tokens := here.rest
  refine ⟨rfl, fun u member => here.bare u (List.mem_cons_of_mem t member), fun u taken => ?_⟩
  cases taken
  exact here.bare t List.mem_cons_self

theorem pastNewlines_eq (here : At tokens c) (ahead : headKind tokens ≠ .newline) :
    c.pastNewlines = c :=
  pastNewlines_eq_self (by rwa [here.kind])

theorem pastSeparators_eq (here : At tokens c) (ahead : Parser.isSeparator (headKind tokens) = false) :
    c.pastSeparators = c :=
  skipWhile_eq_self (by rwa [here.kind])

end At

end Cursor

@[simp] theorem Span.cover_none : Span.cover .none .none = .none := rfl

@[simp] theorem Span.none_eq : (⟨.none, .none⟩ : Span) = .none := rfl

namespace Parser

open Cursor (At headKind)

variable {c c₁ c' : Cursor} {rest : List Token} {n left : Node}

/-! ## Operands -/

def Closes (rest : List Token) : Prop :=
  (headKind rest).power = 0 ∧ assignsValue (headKind rest) = false

def Heads (c : Cursor) (n : Node) (c' : Cursor) : Prop :=
  ∀ ⦃m : Node⦄ ⦃c'' : Cursor⦄, Reads (.tail 0 n) c' (.node m) c'' →
    Reads (.goal (.operand 0)) c (.node m) c''

theorem heads_of_atom (read : Reads .atom c (.node n) c') (present : n.isAbsent = false) :
    Heads c n c' := fun _ _ tail => .operand read present tail

theorem Heads.operand (heads : Heads c n c') (here : At rest c') (stop : (headKind rest).power = 0) :
    Reads (.goal (.operand 0)) c (.node n) c' :=
  heads (.tailDone (by rw [here.kind, stop]; exact Nat.lt_irrefl 0))

theorem Heads.expression (heads : Heads c n c') (present : n.isAbsent = false) (here : At rest c')
    (closes : Closes rest) : Reads (.goal .expression) c (.node n) c' :=
  .expressionPlain (heads.operand here closes.1) present (by rw [here.kind]; exact closes.2)

/-- An operand on its own is an expression. -/
theorem expression_of_atom (read : Reads .atom c (.node n) c') (present : n.isAbsent = false)
    (here : At rest c') (closes : Closes rest) : Reads (.goal .expression) c (.node n) c' :=
  (heads_of_atom read present).expression present here closes

theorem Heads.member (heads : Heads c left c₁) (bare : left.span = .none) {name : String}
    (here : At (.mark .dot :: .name name :: rest) c₁) :
    ∃ c', At rest c' ∧ Heads c (.usage .none (.identifier .none left name)) c' := by
  have named := here.advance
  have same : c₁.advance.pastNewlines = c₁.advance := named.pastNewlines_eq nofun
  refine ⟨c₁.advance.advance, named.advance, fun _ _ tail => heads (.tailMember ?_ ?_ ?_ ?_)⟩
  · rw [here.kind]
    exact Nat.zero_lt_succ _
  · rw [here.kind]
    rfl
  · rw [same, named.kind]
    rfl
  · rw [same, named.next_eq, memberOf, bare]
    exact tail

theorem Heads.call (heads : Heads c left c₁) (bare : left.span = .none) {args : List Node}
    (read : Reads .arguments c₁ (.nodes args) c') (opened : c₁.kind = .leftParen) (here : At rest c') :
    Heads c (.call .none (calleeOf left) args) c' := by
  intro m c'' tail
  refine heads (.tailCall (by rw [opened]; exact Nat.zero_lt_succ _) opened read ?_)
  rw [bare, here.lastEnd_eq]
  exact tail

/-! ## Groups -/

theorem inParens_append (tokens : List Token) :
    inParens tokens ++ rest = .mark .leftParen :: (tokens ++ .mark .rightParen :: rest) := by
  simp [inParens]

theorem inBraces_append (tokens : List Token) :
    inBraces tokens ++ rest = .mark .leftBrace :: (tokens ++ .mark .rightBrace :: rest) := by
  simp [inBraces]

theorem separatedBy_cons (separator : Token) (tokens : List Token) (more : List (List Token)) :
    separatedBy separator (tokens :: more) = tokens ++ more.flatMap (separator :: ·) := by
  induction more generalizing tokens with
  | nil => simp [separatedBy]
  | cons next more ih => simp [separatedBy, ih]

theorem closes_mark {kind : Kind} (stop : kind.power = 0) (plain : assignsValue kind = false) :
    Closes (.mark kind :: rest) := ⟨stop, plain⟩

theorem begins_append {tokens : List Token} (begins : beginsOperand (headKind tokens) = true)
    (rest : List Token) : beginsOperand (headKind (tokens ++ rest)) = true := by
  cases tokens with
  | nil => cases begins
  | cons t tokens => exact begins

structure Expressed (n : Node) : Prop where
  present : n.isAbsent = false
  begins : beginsOperand (headKind n.tokens) = true
  reads : ∀ {rest : List Token} {c : Cursor}, At (n.tokens ++ rest) c → Closes rest →
    ∃ c', At rest c' ∧ Reads (.goal .expression) c (.node n.erase) c'

namespace Expressed

theorem pastNewlines_eq (expressed : Expressed n) (here : At (n.tokens ++ rest) c) :
    c.pastNewlines = c := by
  refine here.pastNewlines_eq fun newline => ?_
  have begins := begins_append expressed.begins rest
  rw [newline] at begins
  cases begins

/-- In parentheses an expression is an operand. -/
theorem group (expressed : Expressed n) (here : At (inParens n.tokens ++ rest) c) :
    ∃ c', At rest c' ∧ Reads .atom c (.node n.erase) c' := by
  rw [inParens_append] at here
  have inside := here.advance
  obtain ⟨c₁, closed, read⟩ := expressed.reads inside (closes_mark rfl rfl)
  have same : c₁.pastNewlines = c₁ := closed.pastNewlines_eq nofun
  refine ⟨c₁.advance, closed.advance, ?_⟩
  have group := Reads.group (c := c) (by rw [here.kind]; rfl)
    (by rw [expressed.pastNewlines_eq inside]; exact read) (by rw [same, closed.kind]; rfl)
  rwa [same] at group

theorem heads_group (expressed : Expressed n) (here : At (inParens n.tokens ++ rest) c) :
    ∃ c', At rest c' ∧ Heads c n.erase c' := by
  obtain ⟨c', behind, read⟩ := expressed.group here
  exact ⟨c', behind, heads_of_atom read (by rw [Node.isAbsent_erase]; exact expressed.present)⟩

/-- In parentheses an expression is an expression. -/
theorem grouped (expressed : Expressed n) (here : At (inParens n.tokens ++ rest) c)
    (closes : Closes rest) : ∃ c', At rest c' ∧ Reads (.goal .expression) c (.node n.erase) c' := by
  obtain ⟨c', behind, heads⟩ := expressed.heads_group here
  exact ⟨c', behind, heads.expression (by rw [Node.isAbsent_erase]; exact expressed.present) behind closes⟩

end Expressed

/-! ## Arguments -/

/-- Behind an argument comes a comma or the end of the arguments. -/
theorem closes_arguments (args : List (List Token)) :
    Closes (args.flatMap (.mark .comma :: ·) ++ .mark .rightParen :: rest) := by
  cases args with
  | nil => exact closes_mark rfl rfl
  | cons => exact closes_mark rfl rfl

theorem moreArguments_read {args : List Node} (expressed : ∀ n ∈ args, Expressed n)
    (here : At ((args.map Node.tokens).flatMap (.mark .comma :: ·) ++ .mark .rightParen :: rest) c) :
    ∃ c', At (.mark .rightParen :: rest) c' ∧
      Reads .moreArguments c (.nodes (args.map Node.erase)) c' := by
  induction args generalizing c with
  | nil => exact ⟨c, here, .argumentsDone (by rw [here.kind]; exact nofun)⟩
  | cons n args ih =>
    obtain ⟨head, more⟩ := List.forall_mem_cons.1 expressed
    simp only [List.map_cons, List.flatMap_cons, List.cons_append, List.append_assoc] at here
    have inside := here.advance
    obtain ⟨c₁, behind, read⟩ := head.reads inside (closes_arguments _)
    obtain ⟨c', closed, readMore⟩ := ih more behind
    refine ⟨c', closed, .argumentsNext (by rw [here.kind]; rfl) ?_ ?_ readMore⟩
    · rw [head.pastNewlines_eq inside]
      exact read
    · rw [Node.isAbsent_erase]
      exact head.present

theorem arguments_read {args : List Node} (expressed : ∀ n ∈ args, Expressed n)
    (here : At (inParens (separatedBy (.mark .comma) (args.map Node.tokens)) ++ rest) c) :
    ∃ c', At rest c' ∧ Reads .arguments c (.nodes (args.map Node.erase)) c' := by
  rw [inParens_append] at here
  have opened : c.kind = .leftParen := by rw [here.kind]; rfl
  have inside := here.advance
  cases args with
  | nil =>
    have same : c.advance.pastNewlines = c.advance := inside.pastNewlines_eq nofun
    have read := Reads.argumentsNone opened (by rw [same, inside.kind]; rfl)
    rw [same] at read
    exact ⟨c.advance.advance, inside.advance, read⟩
  | cons n args =>
    obtain ⟨head, more⟩ := List.forall_mem_cons.1 expressed
    rw [List.map_cons, separatedBy_cons, List.append_assoc] at inside
    obtain ⟨c₁, behind, readHead⟩ := head.reads inside (closes_arguments _)
    obtain ⟨c₂, closed, readMore⟩ := moreArguments_read more behind
    have sameHead := head.pastNewlines_eq inside
    have sameEnd : c₂.pastNewlines = c₂ := closed.pastNewlines_eq nofun
    -- An argument begins with an operand, and a closing parenthesis begins none.
    have notClosed : c.advance.kind ≠ .rightParen := by
      intro is
      have begins := begins_append head.begins
        ((args.map Node.tokens).flatMap (.mark .comma :: ·) ++ .mark .rightParen :: rest)
      rw [← inside.kind, is] at begins
      cases begins
    have read := Reads.argumentsSome opened (by rwa [sameHead]) (by rwa [sameHead])
      (by rw [Node.isAbsent_erase]; exact head.present) readMore (by rw [sameEnd, closed.kind]; rfl)
    rw [sameEnd] at read
    exact ⟨c₂.advance, closed.advance, read⟩

/-! ## Numbers -/

theorem beginsOperand_numeral {negative : Bool} {kind : Kind} {size : String} {lit : Node}
    (found : literal? ⟨kind, size, .none⟩ = some lit) :
    beginsOperand (headKind (numeral negative kind size)) = true := by
  cases negative with
  | true => rfl
  | false => exact beginsOperand_of_literal? found

/-- A number is read with the minus sign in front of it. -/
theorem numeral_read {negative : Bool} {kind : Kind} {size : String} {lit value : Node}
    (found : literal? ⟨kind, size, .none⟩ = some lit) (bare : lit.span = .none)
    (present : lit.isAbsent = false) (is : (if negative then negate .none lit else lit) = value)
    (kept : value.isAbsent = false)
    (here : At (numeral negative kind size ++ rest) c) (closes : Closes rest) :
    ∃ c', At rest c' ∧ Reads (.goal .expression) c (.node value) c' := by
  cases negative with
  | false =>
    obtain rfl : lit = value := is
    have atom : Reads .atom c (.node lit) c.advance := .literal (by rw [here.next_eq]; exact found)
    exact ⟨c.advance, here.advance, expression_of_atom atom present here.advance closes⟩
  | true =>
    have here : At (.mark .minus :: ⟨kind, size, .none⟩ :: rest) c := here
    have digits := here.advance
    have same : c.advance.pastNewlines = c.advance := by
      refine digits.pastNewlines_eq fun newline => ?_
      have begins := beginsOperand_of_literal? found
      rw [show kind = .newline from newline] at begins
      cases begins
    have behind := digits.advance
    -- The sign takes the literal alone, for what follows does not bind.
    have operand : Reads (.goal (.operand signPower)) c.advance (.node lit) c.advance.advance :=
      .operand (.literal (by rw [digits.next_eq]; exact found)) present
        (.tailDone (by rw [behind.kind, closes.1]; exact Nat.not_lt_zero _))
    have atom : Reads .atom c (.node (signed c.next lit)) c.advance.advance :=
      .sign (by rw [here.kind]; rfl) (by rwa [same])
    have made : signed c.next lit = value := by
      rw [signed, present, here.next_eq, bare, ← is]
      rfl
    rw [made] at atom
    exact ⟨_, behind, expression_of_atom atom kept behind closes⟩

structure Numbers.Readable (numbers : Numbers) : Prop where
  integer : ∀ value, numbers.integer value → ∃ size,
    Number.readInteger (toString value.toInt.natAbs) = (size, true) ∧
      (if value < 0 then -size else size) = value
  double : ∀ value, numbers.double value → ∃ size,
    Number.readDouble (Number.Layout.value.text (if Number.isNegative value then -value else value)) =
      (size, true) ∧ (if Number.isNegative value then -size else size) = value

variable {numbers : Numbers} {span : Span}

theorem expressed_integer (readable : numbers.Readable) {value : Int64}
    (admitted : numbers.integer value) : Expressed (.integer span value) := by
  obtain ⟨size, read, is⟩ := readable.integer value admitted
  have found : literal? ⟨.integer, toString value.toInt.natAbs, .none⟩ = some (.integer .none size) := by
    simp only [literal?, read, if_true]
  refine ⟨rfl, beginsOperand_numeral found, fun here closes => numeral_read found rfl rfl ?_ rfl here closes⟩
  by_cases negative : value < 0
  · rw [if_pos negative] at is
    rw [if_pos (decide_eq_true negative), negate, is]
    rfl
  · rw [if_neg negative] at is
    rw [if_neg (by simpa using negative), is]
    rfl

theorem expressed_double (readable : numbers.Readable) {value : Float}
    (admitted : numbers.double value) : Expressed (.double span value) := by
  obtain ⟨size, read, is⟩ := readable.double value admitted
  have found : literal? ⟨.double,
      Number.Layout.value.text (if Number.isNegative value then -value else value), .none⟩ =
      some (.double .none size) := by
    simp only [literal?, read, if_true]
  refine ⟨rfl, beginsOperand_numeral found, fun here closes => numeral_read found rfl rfl ?_ rfl here closes⟩
  cases negative : Number.isNegative value <;> simp_all [negate, Node.erase, Node.mapSpans]

theorem expressed_word {kind : Kind} {node : Node} (written : node.tokens = [.mark kind])
    (found : literal? (.mark kind) = some node.erase) (present : node.isAbsent = false) :
    Expressed node := by
  refine ⟨present, ?_, fun {rest c} here closes => ?_⟩
  · rw [written]
    exact beginsOperand_of_literal? found
  · rw [written] at here
    have atom : Reads .atom c (.node node.erase) c.advance :=
      .literal (by rw [here.next_eq]; exact found)
    exact ⟨c.advance, here.advance,
      expression_of_atom atom (by rwa [Node.isAbsent_erase]) here.advance closes⟩

/-! ## Names and members -/

structure Targeted (n : Node) : Prop where
  named : n.isName = true
  begins : beginsOperand (headKind n.tokens) = true
  reads : ∀ {rest : List Token} {c : Cursor}, At (n.tokens ++ rest) c →
    ∃ c', At rest c' ∧ Heads c (.usage .none n.erase) c'

theorem targeted_name {name : String} : Targeted (.identifier span .absent name) := by
  refine ⟨rfl, rfl, fun {rest c} here => ?_⟩
  have atom : Reads .atom c (.node (plainName (.name name))) c.advance :=
    .literal (by rw [here.next_eq]; rfl)
  exact ⟨c.advance, here.advance, heads_of_atom atom rfl⟩

theorem targeted_member {receiver : Node} {name : String} (expressed : Expressed receiver) :
    Targeted (.identifier span receiver name) := by
  have written : (Node.identifier span receiver name).tokens =
      inParens receiver.tokens ++ [.mark .dot, .name name] := by
    simp [Node.tokens, expressed.present]
  refine ⟨rfl, by rw [written]; rfl, fun {rest c} here => ?_⟩
  rw [written, List.append_assoc] at here
  obtain ⟨c₁, behind, heads⟩ := expressed.heads_group here
  exact heads.member (by rw [Node.span_erase]) behind

theorem Targeted.expressed {target : Node} (targeted : Targeted target) :
    Expressed (.usage span target) := by
  refine ⟨rfl, targeted.begins, fun here closes => ?_⟩
  obtain ⟨c', behind, heads⟩ := targeted.reads here
  exact ⟨c', behind, heads.expression rfl behind closes⟩

/-! ## Operators -/

theorem power_token {op : BinaryOp} (known : op ≠ .unknown) : 0 < op.token.power := by
  cases op with
  | unknown => exact absurd rfl known
  | _ => decide

theorem binaryOp?_token {op : BinaryOp} (known : op ≠ .unknown) : op.token.binaryOp? = some op := by
  cases op with
  | unknown => exact absurd rfl known
  | _ => rfl

theorem expressed_binary {op : BinaryOp} {right : Node} (known : op ≠ .unknown)
    (expressedLeft : Expressed left) (expressedRight : Expressed right) :
    Expressed (.binary span op left right) := by
  have present : right.erase.isAbsent = false := by
    rw [Node.isAbsent_erase]
    exact expressedRight.present
  refine ⟨rfl, rfl, fun {rest c} here closes => ?_⟩
  rw [Node.tokens, List.append_assoc] at here
  obtain ⟨c₁, between, heads⟩ := expressedLeft.heads_group here
  have opened := between.advance
  have same : c₁.advance.pastNewlines = c₁.advance := opened.pastNewlines_eq (by rintro ⟨⟩)
  obtain ⟨c', behind, read⟩ := expressedRight.group opened
  have operator : c₁.kind = op.token := between.kind
  have stop (power : Nat) : ¬ power < c'.kind.power := by
    rw [behind.kind, closes.1]
    exact Nat.not_lt_zero power
  -- The right operand is a group, so its power does not matter.
  have tail : Reads (.tail 0 left.erase) c₁
      (.node (.binary (left.erase.span.cover right.erase.span) op left.erase right.erase)) c' := by
    refine .tailBinary ?_ ?_ ?_ present (.tailDone (stop 0))
    · rw [operator]
      exact power_token known
    · rw [operator]
      exact binaryOp?_token known
    · rw [same]
      exact .operand read present (.tailDone (stop _))
  rw [Node.span_erase, Node.span_erase, Span.cover_none] at tail
  exact ⟨c', behind, .expressionPlain (heads tail) rfl (by rw [behind.kind]; exact closes.2)⟩

theorem assignOp_token {op : AssignOp} (known : op ≠ .unknown) : assignOp (.mark op.token) = op := by
  cases op with
  | unknown => exact absurd rfl known
  | _ => rfl

theorem expressed_step {op : AssignOp} {target : Node} (steps : op = .increase ∨ op = .decrease)
    (targeted : Targeted target) : Expressed (.assignment span op target .absent) := by
  have known : op ≠ .unknown := by rcases steps with rfl | rfl <;> exact nofun
  refine ⟨rfl, begins_append targeted.begins _, fun {rest c} here closes => ?_⟩
  rw [Node.tokens, List.append_assoc] at here
  obtain ⟨c₁, ahead, heads⟩ := targeted.reads here
  have ahead : At (.mark op.token :: rest) c₁ := ahead
  have behind := ahead.advance
  have step : isStep c₁.kind = true ∧ 0 < c₁.kind.power := by
    rw [ahead.kind]
    rcases steps with rfl | rfl <;> exact ⟨rfl, Nat.zero_lt_succ _⟩
  have tail : Reads (.tail 0 (.usage .none target.erase)) c₁
      (.node (.assignment (Span.none.cover c₁.next.span) (assignOp c₁.next) target.erase .absent))
      c₁.advance :=
    .tailStep step.2 step.1 (.tailDone (by rw [behind.kind, closes.1]; exact Nat.lt_irrefl 0))
  rw [ahead.next_eq, assignOp_token known] at tail
  exact ⟨_, behind, .expressionPlain (heads tail) rfl (by rw [behind.kind]; exact closes.2)⟩

theorem assignsValue_token {op : AssignOp} (notUp : op ≠ .increase) (notDown : op ≠ .decrease)
    (known : op ≠ .unknown) : assignsValue op.token = true ∧ op.token.power = 0 := by
  revert notUp notDown known
  cases op <;> decide

theorem expressed_assignment {op : AssignOp} {target value : Node} (notUp : op ≠ .increase)
    (notDown : op ≠ .decrease) (known : op ≠ .unknown) (targeted : Targeted target)
    (expressed : Expressed value) : Expressed (.assignment span op target value) := by
  refine ⟨rfl, begins_append targeted.begins _, fun {rest c} here closes => ?_⟩
  rw [Node.tokens, expressed.present, if_neg Bool.false_ne_true, List.append_assoc] at here
  obtain ⟨c₁, ahead, heads⟩ := targeted.reads here
  obtain ⟨assigns, stop⟩ := assignsValue_token notUp notDown known
  have opened := ahead.advance
  have same : c₁.advance.pastNewlines = c₁.advance := opened.pastNewlines_eq (by rintro ⟨⟩)
  obtain ⟨c', behind, read⟩ := expressed.grouped opened closes
  have read := Reads.expressionAssign (heads.operand ahead stop) (by rw [ahead.kind]; exact assigns)
    (by rwa [same]) (by rw [Node.isAbsent_erase]; exact expressed.present)
  rw [ahead.next_eq, assignOp_token known, Node.span_erase] at read
  exact ⟨c', behind, read⟩

/-! ## Calls -/

theorem call_read {callee : Node} {arguments : List Node} (expressed : ∀ n ∈ arguments, Expressed n)
    (heads : Heads c left c₁) (bare : left.span = .none) (named : calleeOf left = callee)
    (here : At (inParens (separatedBy (.mark .comma) (arguments.map Node.tokens)) ++ rest) c₁)
    (closes : Closes rest) :
    ∃ c', At rest c' ∧
      Reads (.goal .expression) c (.node (.call .none callee (arguments.map Node.erase))) c' := by
  obtain ⟨c', behind, read⟩ := arguments_read expressed here
  have opened : c₁.kind = .leftParen := by
    rw [here.kind, inParens_append]
    rfl
  have heads := heads.call bare read opened behind
  rw [named] at heads
  exact ⟨c', behind, heads.expression rfl behind closes⟩

theorem expressed_callName {callee : Node} {arguments : List Node} (targeted : Targeted callee)
    (expressed : ∀ n ∈ arguments, Expressed n) : Expressed (.call span callee arguments) := by
  have written : (Node.call span callee arguments).tokens =
      callee.tokens ++ inParens (separatedBy (.mark .comma) (arguments.map Node.tokens)) := by
    simp [Node.tokens, targeted.named]
  refine ⟨rfl, by rw [written]; exact begins_append targeted.begins _, fun {rest c} here closes => ?_⟩
  rw [written, List.append_assoc] at here
  obtain ⟨c₁, ahead, heads⟩ := targeted.reads here
  rw [Node.erase_call]
  exact call_read expressed heads rfl rfl ahead closes

theorem expressed_callValue {callee : Node} {arguments : List Node} (expressedCallee : Expressed callee)
    (unnamed : callee.isName = false) (unread : isUsage callee = false)
    (expressed : ∀ n ∈ arguments, Expressed n) : Expressed (.call span callee arguments) := by
  have written : (Node.call span callee arguments).tokens =
      inParens callee.tokens ++ inParens (separatedBy (.mark .comma) (arguments.map Node.tokens)) := by
    simp [Node.tokens, unnamed]
  refine ⟨rfl, by rw [written]; rfl, fun {rest c} here closes => ?_⟩
  rw [written, List.append_assoc] at here
  obtain ⟨c₁, ahead, heads⟩ := expressedCallee.heads_group here
  have named : calleeOf callee.erase = callee.erase := by
    cases callee with
    | usage => cases unread
    | _ => rfl
  rw [Node.erase_call]
  exact call_read expressed heads (by rw [Node.span_erase]) named ahead closes

/-! ## New objects -/

/-- The dotted name of a class is read back as the class, with what follows it. -/
structure Classed (n : Node) : Prop where
  present : n.isAbsent = false
  reads : ∀ {rest : List Token} {c : Cursor}, At (n.dottedName ++ rest) c → c.kind = .identifier ∧
    ∃ c', At rest c' ∧ ∀ ⦃m : Node⦄ ⦃c'' : Cursor⦄, Reads (.dotted n.erase) c' (.node m) c'' →
      Reads (.dotted (plainName c.next)) c.advance (.node m) c''

theorem classed_plainName {span' : Span} {name : String} :
    Classed (.usage span (.identifier span' .absent name)) := by
  refine ⟨rfl, fun {rest c} here => ?_⟩
  have here : At (.name name :: rest) c := here
  refine ⟨here.kind, c.advance, here.advance, fun m c'' tail => ?_⟩
  rw [here.next_eq]
  exact tail

theorem classed_nestedName {span' : Span} {outer : Node} {name : String} (classed : Classed outer) :
    Classed (.usage span (.identifier span' outer name)) := by
  have written : (Node.usage span (.identifier span' outer name)).dottedName =
      outer.dottedName ++ [.mark .dot, .name name] := by
    cases outer with
    | absent => cases classed.present
    | _ => simp only [Node.dottedName]
  refine ⟨rfl, fun {rest c} here => ?_⟩
  rw [written, List.append_assoc] at here
  obtain ⟨named, c₁, dot, dotted⟩ := classed.reads here
  have dot : At (.mark .dot :: .name name :: rest) c₁ := dot
  have last := dot.advance
  have same : c₁.advance.pastNewlines = c₁.advance := last.pastNewlines_eq nofun
  refine ⟨named, c₁.advance.advance, last.advance, fun m c'' tail => dotted (.dottedNext ?_ ?_ ?_)⟩
  · rw [dot.kind]
    rfl
  · rw [same, last.kind]
    rfl
  · rw [same, last.next_eq, memberOf, Node.span_erase]
    exact tail

theorem expressed_instantiation {blueprint : Node} {arguments : List Node} (classed : Classed blueprint)
    (expressed : ∀ n ∈ arguments, Expressed n) :
    Expressed (.instantiation span blueprint arguments) := by
  refine ⟨rfl, rfl, fun {rest c} here closes => ?_⟩
  rw [Node.tokens, Node.allTokens_eq_map, List.cons_append, List.append_assoc] at here
  obtain ⟨named, c₁, opened, dotted⟩ := classed.reads here.advance
  obtain ⟨c', behind, read⟩ := arguments_read expressed opened
  have noDot : c₁.kind ≠ .dot := by
    rw [opened.kind, inParens_append]
    rintro ⟨⟩
  have atom := Reads.instantiation (by rw [here.kind]; rfl) named (dotted (.dottedDone noDot)) read
  rw [here.next_eq, behind.lastEnd_eq] at atom
  rw [Node.erase_instantiation]
  exact ⟨c', behind, expression_of_atom atom rfl behind closes⟩

end Parser

end ClassScript
