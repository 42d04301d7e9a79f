import ClassScript.Proofs.Parser.Join
import ClassScript.Proofs.Parser.Places
import ClassScript.Proofs.Parser.RoundTrip.Declaration
import ClassScript.Proofs.Syntax.Complete
import Mathlib.Data.List.Basic

/-! # Spans of accepted programs

In the tree of a program without diagnostics the span of every node holds the spans of its parts, and statements,
arguments and members stand one behind another (`spans_orderly`).  What a phrase yields lies between the token
ahead of it and the last token that was taken for it (`Reads.laid`).
-/

namespace ClassScript

def Span.Within (s other : Span) : Prop :=
  other.first.offset ≤ s.first.offset ∧ s.last.offset ≤ other.last.offset

theorem Span.offset_first_cover (s other : Span) :
    (s.cover other).first.offset = min s.first.offset other.first.offset := by
  simp only [Span.cover]
  split <;> omega

theorem Span.offset_last_cover (s other : Span) :
    (s.cover other).last.offset = max s.last.offset other.last.offset := by
  simp only [Span.cover]
  split <;> omega

variable {source : List UInt8}

namespace Node

def sequences : Node → List (List Node)
  | .tree _ children => [children]
  | .call _ _ arguments | .instantiation _ _ arguments => [arguments]
  | .classDeclaration _ _ _ fields methods classes => [fields, methods, classes]
  | _ => []

def InOrder (nodes : List Node) : Prop := nodes.Pairwise fun n m => n.span.last.offset ≤ m.span.first.offset

/-- A node that stands in the source, with its parts within it and its lists in order. -/
structure Orderly (source : List UInt8) (n : Node) : Prop where
  place : n.span.In source
  lines : 1 ≤ n.span.first.line ∧ 1 ≤ n.span.last.line
  within : ∀ part ∈ n.parts, part.isAbsent = false → part.span.Within n.span
  inOrder : ∀ nodes ∈ n.sequences, InOrder nodes

def Nested (source : List UInt8) (t : Node) : Prop :=
  t.Throughout fun n => n.isAbsent = false → n.Orderly source

/-! ## Nodes between two offsets -/

structure Laid (source : List UInt8) (lower upper : Int) (n : Node) : Prop where
  present : n.isAbsent = false
  nested : n.Nested source
  lower_le : lower ≤ n.span.first.offset
  le_upper : n.span.last.offset ≤ upper

def Slot (source : List UInt8) (lower upper : Int) (n : Node) : Prop :=
  n.isAbsent = false → n.Laid source lower upper

structure AllLaid (source : List UInt8) (lower upper : Int) (ns : List Node) : Prop where
  each : ∀ n ∈ ns, n.Laid source lower upper
  inOrder : InOrder ns

variable {lower lower' upper upper' : Int} {n : Node} {ns : List Node}

theorem slot_absent : absent.Slot source lower upper := by
  intro present
  cases present

theorem nested_absent : absent.Nested source := by
  refine throughout_iff.2 ⟨?_, by simp [parts]⟩
  intro present
  cases present

namespace Laid

theorem slot (laid : n.Laid source lower upper) : n.Slot source lower upper := fun _ => laid

theorem orderly (laid : n.Laid source lower upper) : n.Orderly source := laid.nested.own laid.present

theorem place (laid : n.Laid source lower upper) : n.span.In source := laid.orderly.place

theorem own (laid : n.Laid source lower upper) : n.Laid source n.span.first.offset n.span.last.offset :=
  ⟨laid.present, laid.nested, Int.le_refl _, Int.le_refl _⟩

theorem lower_le_upper (laid : n.Laid source lower upper) : lower ≤ upper :=
  Int.le_trans laid.lower_le (Int.le_trans laid.place.ordered laid.le_upper)

theorem mono (laid : n.Laid source lower upper) (before : lower' ≤ lower) (behind : upper ≤ upper') :
    n.Laid source lower' upper' := by
  have first := laid.lower_le
  have last := laid.le_upper
  exact ⟨laid.present, laid.nested, by omega, by omega⟩

end Laid

theorem Slot.mono (slot : n.Slot source lower upper) (before : lower' ≤ lower) (behind : upper ≤ upper') :
    n.Slot source lower' upper' := fun present => (slot present).mono before behind

theorem Slot.nested (slot : n.Slot source lower upper) : n.Nested source := by
  cases is : n.isAbsent with
  | true =>
    rw [isAbsent_iff.1 is]
    exact nested_absent
  | false => exact (slot is).nested

/-- A node is nested if its parts are and lie within it. -/
theorem laid_of_parts {span : Span} (place : span.In source) (own : n.span = span)
    (present : n.isAbsent = false) (within : n.parts.Forall (Slot source span.first.offset span.last.offset))
    (inOrder : n.sequences.Forall InOrder) : n.Laid source span.first.offset span.last.offset := by
  subst own
  rw [List.forall_iff_forall_mem] at within inOrder
  refine ⟨present, throughout_iff.2 ⟨fun _ => ?_, fun part below => (within part below).nested⟩,
    Int.le_refl _, Int.le_refl _⟩
  refine ⟨place, ⟨place.first.one_le_line, place.last.one_le_line⟩, fun part below is => ?_, inOrder⟩
  exact ⟨(within part below is).lower_le, (within part below is).le_upper⟩

namespace AllLaid

theorem nil : AllLaid source lower upper [] := ⟨by simp, List.Pairwise.nil⟩

theorem mono (all : AllLaid source lower upper ns) (before : lower' ≤ lower) (behind : upper ≤ upper') :
    AllLaid source lower' upper' ns :=
  ⟨fun n member => (all.each n member).mono before behind, all.inOrder⟩

theorem cons {middle : Int} (head : n.Laid source lower middle) (tail : AllLaid source middle upper ns)
    (behind : middle ≤ upper) : AllLaid source lower upper (n :: ns) := by
  have begins := head.lower_le
  have ends := head.le_upper
  have ordered := head.place.ordered
  constructor
  · refine List.forall_mem_cons.2 ⟨head.mono (Int.le_refl _) behind, fun m member => ?_⟩
    exact (tail.each m member).mono (by omega) (Int.le_refl _)
  · refine List.pairwise_cons.2 ⟨fun m member => ?_, tail.inOrder⟩
    exact Int.le_trans ends (tail.each m member).lower_le

theorem sublist {ns' : List Node} (all : AllLaid source lower upper ns) (sublist : ns'.Sublist ns) :
    AllLaid source lower upper ns' :=
  ⟨fun n member => all.each n (sublist.subset member), all.inOrder.sublist sublist⟩

theorem slots (all : AllLaid source lower upper ns) : ∀ n ∈ ns, n.Slot source lower upper :=
  fun n member => (all.each n member).slot

end AllLaid

end Node

namespace Parser

open Node
open Cursor (Walk)

variable {lower upper : Int} {c c' : Cursor}

/-! ## Nodes that are made of tokens and nodes -/

theorem laid_name {t : Token} (place : t.span.In source) :
    (identifier t.span .absent t.lexeme).Laid source t.span.first.offset t.span.last.offset :=
  laid_of_parts place rfl rfl slot_absent trivial

theorem laid_plainName {t : Token} (place : t.span.In source) :
    (plainName t).Laid source t.span.first.offset t.span.last.offset :=
  laid_of_parts place rfl rfl (laid_name place).slot trivial

theorem laid_literal {t : Token} {n : Node} (found : literal? t = some n) (place : t.span.In source) :
    n.Laid source t.span.first.offset t.span.last.offset := by
  cases isLiteral_of_literal? found with
  | name => exact laid_plainName place
  | integer | double | yes | no | null => exact laid_of_parts place rfl rfl trivial trivial

/-- What is called lies where the callee does. -/
theorem slot_calleeOf {left : Node} (laid : left.Laid source lower upper) :
    (calleeOf left).Slot source lower upper := by
  cases left with
  | usage span target =>
    -- A call drops the node for the use of a name, so the name itself has to lie within its bounds.
    intro present
    have below : target ∈ (Node.usage span target).parts := List.mem_singleton_self target
    obtain ⟨begins, ends⟩ := laid.orderly.within target below present
    exact ⟨present, laid.nested.part below, Int.le_trans laid.lower_le begins, Int.le_trans ends laid.le_upper⟩
  | _ => exact laid.slot

/-- A node over two spans of which one lies behind the other. -/
theorem laid_covering {one two : Span} {n : Node} (first : one.In source) (second : two.In source)
    (behind : one.last.offset ≤ two.first.offset) (own : n.span = one.cover two) (present : n.isAbsent = false)
    (within : n.parts.Forall (Slot source one.first.offset two.last.offset))
    (inOrder : n.sequences.Forall InOrder) : n.Laid source one.first.offset two.last.offset := by
  have ordered₁ := first.ordered
  have ordered₂ := second.ordered
  have begins : (one.cover two).first.offset = one.first.offset := by
    rw [Span.offset_first_cover]
    omega
  have ends : (one.cover two).last.offset = two.last.offset := by
    rw [Span.offset_last_cover]
    omega
  rw [← begins, ← ends] at within ⊢
  exact laid_of_parts (first.cover second) own present within inOrder

theorem laid_memberOf {left : Node} {t : Token} (laid : left.Laid source lower upper)
    (place : t.span.In source) (behind : upper ≤ t.span.first.offset) :
    (memberOf left t).Laid source lower t.span.last.offset := by
  have meets := Int.le_trans laid.le_upper behind
  have ends := Int.le_trans meets place.ordered
  have name : (identifier (left.span.cover t.span) left t.lexeme).Laid source left.span.first.offset
      t.span.last.offset :=
    laid_covering laid.place place meets rfl rfl (laid.own.mono (Int.le_refl _) ends).slot trivial
  have read : (memberOf left t).Laid source left.span.first.offset t.span.last.offset :=
    laid_covering laid.place place meets rfl rfl name.slot trivial
  exact read.mono laid.lower_le (Int.le_refl _)

theorem laid_binary {left right : Node} {middle : Int} (op : BinaryOp) (one : left.Laid source lower middle)
    (two : right.Laid source middle upper) :
    (Node.binary (left.span.cover right.span) op left right).Laid source lower upper := by
  have meets := Int.le_trans one.le_upper two.lower_le
  have inner := (one.own.mono (Int.le_refl _) (Int.le_trans meets two.place.ordered)).slot
  have inner' := (two.own.mono (Int.le_trans one.place.ordered meets) (Int.le_refl _)).slot
  have node : (Node.binary (left.span.cover right.span) op left right).Laid source left.span.first.offset
      right.span.last.offset := laid_covering one.place two.place meets rfl rfl ⟨inner, inner'⟩ trivial
  exact node.mono one.lower_le two.le_upper

theorem laid_assignment {span : Span} {target value : Node} {middle : Int} (op : AssignOp)
    (one : (Node.usage span target).Laid source lower middle) (two : value.Laid source middle upper) :
    (Node.assignment (span.cover value.span) op target value).Laid source lower upper := by
  have meets := Int.le_trans one.le_upper two.lower_le
  have inner := slot_calleeOf (one.own.mono (Int.le_refl _) (Int.le_trans meets two.place.ordered))
  have inner' := (two.own.mono (Int.le_trans one.place.ordered meets) (Int.le_refl _)).slot
  have node : (Node.assignment (span.cover value.span) op target value).Laid source span.first.offset
      value.span.last.offset := laid_covering one.place two.place meets rfl rfl ⟨inner, inner'⟩ trivial
  exact node.mono one.lower_le two.le_upper

/-- A step behind a name. -/
theorem laid_stepBehind {span : Span} {target : Node} {t : Token} (op : AssignOp)
    (laid : (Node.usage span target).Laid source lower upper) (place : t.span.In source)
    (behind : upper ≤ t.span.first.offset) :
    (Node.assignment (span.cover t.span) op target .absent).Laid source lower t.span.last.offset := by
  have meets := Int.le_trans laid.le_upper behind
  have inner := slot_calleeOf (laid.own.mono (Int.le_refl _) (Int.le_trans meets place.ordered))
  have node : (Node.assignment (span.cover t.span) op target .absent).Laid source span.first.offset
      t.span.last.offset := laid_covering laid.place place meets rfl rfl ⟨inner, slot_absent⟩ trivial
  exact node.mono laid.lower_le (Int.le_refl _)

/-- A step in front of a name. -/
theorem laid_stepFront {span : Span} {target : Node} {t : Token} (op : AssignOp) (place : t.span.In source)
    (laid : (Node.usage span target).Laid source lower upper) (before : t.span.last.offset ≤ lower) :
    (Node.assignment (t.span.cover span) op target .absent).Laid source t.span.first.offset upper := by
  have meets := Int.le_trans before laid.lower_le
  have inner := slot_calleeOf (laid.own.mono (Int.le_trans place.ordered meets) (Int.le_refl _))
  have node : (Node.assignment (t.span.cover span) op target .absent).Laid source t.span.first.offset
      span.last.offset := laid_covering place laid.place meets rfl rfl ⟨inner, slot_absent⟩ trivial
  exact node.mono (Int.le_refl _) laid.le_upper

theorem laid_negate {t : Token} {n : Node} (place : t.span.In source) (laid : n.Laid source lower upper)
    (before : t.span.last.offset ≤ lower) :
    (negate (t.span.cover n.span) n).Laid source t.span.first.offset upper := by
  have meets := Int.le_trans before laid.lower_le
  have zero : (Node.integer (t.span.cover n.span) 0).Laid source t.span.first.offset n.span.last.offset :=
    laid_covering place laid.place meets rfl rfl trivial trivial
  have inner := laid.own.mono (Int.le_trans place.ordered meets) (Int.le_refl _)
  have node : (negate (t.span.cover n.span) n).Laid source t.span.first.offset n.span.last.offset := by
    cases n with
    | integer | double => exact laid_covering place laid.place meets rfl rfl trivial trivial
    | _ => exact laid_covering place laid.place meets rfl rfl ⟨zero.slot, inner.slot⟩ trivial
  exact node.mono (Int.le_refl _) laid.le_upper

/-- A sign in front of an operand belongs to the node that is made of both. -/
theorem slot_signed {t : Token} {n : Node} (place : t.span.In source) (slot : n.Slot source lower upper)
    (before : t.span.last.offset ≤ lower) : (signed t n).Slot source t.span.first.offset upper := by
  cases isAbsent : n.isAbsent with
  | true =>
    rw [signed, if_pos isAbsent]
    exact slot_absent
  | false =>
    have laid := slot isAbsent
    rw [signed, isAbsent, if_neg Bool.false_ne_true]
    split
    · exact (laid_negate place laid before).slot
    · exact (laid.mono (Int.le_trans place.ordered before) (Int.le_refl _)).slot

/-- A call is as long as its callee and its arguments together. -/
theorem laid_call {left : Node} {args : List Node} {middle : Int} {last : Position}
    (laid : left.Laid source lower middle) (all : AllLaid source middle last.offset args)
    (place : last.In source) (behind : middle ≤ last.offset) :
    (Node.call ⟨left.span.first, last⟩ (calleeOf left) args).Laid source lower last.offset := by
  have begins := Int.le_trans laid.place.ordered laid.le_upper
  have whole : (⟨left.span.first, last⟩ : Span).In source :=
    ⟨laid.place.first, place, Int.le_trans begins behind⟩
  have callee := slot_calleeOf (laid.own.mono (Int.le_refl _) (Int.le_trans laid.le_upper behind))
  have node := laid_of_parts (n := .call ⟨left.span.first, last⟩ (calleeOf left) args) whole rfl rfl
    ((List.forall_cons ..).2 ⟨callee, List.forall_iff_forall_mem.2 (all.mono begins (Int.le_refl _)).slots⟩)
    all.inOrder
  exact node.mono laid.lower_le (Int.le_refl _)

theorem laid_sortMembers {ns : List Node} (all : AllLaid source lower upper ns) :
    AllLaid source lower upper (sortMembers ns).fields ∧ AllLaid source lower upper (sortMembers ns).methods ∧
      AllLaid source lower upper (sortMembers ns).classes := by
  rw [sortMembers_eq]
  exact ⟨all.sublist List.filter_sublist, all.sublist List.filter_sublist, all.sublist List.filter_sublist⟩

/-! ## Phrases -/

theorem ReadsMoreNames.walk {names : List String} (read : ReadsMoreNames c names c') (here : c.Among source) :
    Walk source c c' := by
  induction read with
  | done => exact here.stay
  | next comma named _ ih =>
    have walk := (here.stay.advance (by simp [comma])).pastNewlines.advance (by simp [named])
    exact walk.trans (ih walk.here)

theorem ReadsParams.walk {names : List String} (read : ReadsParams c names c') (here : c.Among source) :
    Walk source c c' := by
  cases read with
  | none opened closed =>
    exact (here.stay.advance (by simp [opened])).pastNewlines.advance (by simp [closed])
  | some opened named more closed =>
    have walk := (here.stay.advance (by simp [opened])).pastNewlines.advance (by simp [named])
    exact (walk.trans (more.walk walk.here)).pastNewlines.advance (by simp [closed])

def NodeLaid (source : List UInt8) (c c' : Cursor) (n : Node) : Phrase → Prop
  | .tail _ left | .dotted left => ∀ lower, left.Laid source lower c.back → n.Laid source lower c'.back
  | .declaration start _ => start.In source → start.offset ≤ c.ahead → n.Laid source start.offset c'.back
  | .goal (.operand _) | .goal .expression | .atom | .forStart | .forPart _ => n.Slot source c.ahead c'.back
  | _ => n.Laid source c.ahead c'.back

def Yield.Laid (source : List UInt8) (phrase : Phrase) (c c' : Cursor) : Yield → Prop
  | .node n => NodeLaid source c c' n phrase
  | .nodes ns => AllLaid source c.ahead c'.back ns

theorem laid_member {c₁ : Cursor} {left : Node} (laid : left.Laid source lower c.back)
    (walk : Walk source c c₁) : (memberOf left c₁.next).Laid source lower c₁.advance.back := by
  rw [walk.here.back_advance]
  exact laid_memberOf laid walk.here.next_in walk.back_le_ahead

/-- A node from a place on to the token taken last. -/
theorem laid_upTo {start : Position} {n : Node} (place : start.In source) (here : c'.Among source)
    (before : start.offset ≤ c'.back) (own : n.span = ⟨start, c'.lastEnd⟩) (present : n.isAbsent = false)
    (within : n.parts.Forall (Slot source start.offset c'.back)) (inOrder : n.sequences.Forall InOrder) :
    n.Laid source start.offset c'.back :=
  laid_of_parts ⟨place, here.lastEnd_in, before⟩ own present within inOrder

/-- A node from the next token on to the token taken last. -/
theorem laid_fromNext {n : Node} (here : c.Among source) (behind : Walk source c.advance c')
    (own : n.span = ⟨c.next.span.first, c'.lastEnd⟩) (present : n.isAbsent = false)
    (within : n.parts.Forall (Slot source c.ahead c'.back)) (inOrder : n.sequences.Forall InOrder) :
    n.Laid source c.ahead c'.back :=
  laid_upTo here.next_in.first behind.here (here.ahead_le_back behind) own present within inOrder

/-- What a phrase yields lies between the token ahead and the token taken last. -/
theorem Reads.laid {phrase : Phrase} {y : Yield} (read : Reads phrase c y c') (here : c.Among source) :
    Walk source c c' ∧ y.Laid source phrase c c' := by
  -- In each case the walks over tokens and parts make up the way from `c` to `c'`.  The way up to a part lowers the
  -- lower bound of that part to the one of the whole, and the way behind it raises the upper one.
  induction read with
  | literal found =>
    refine ⟨here.stay.advance (kind_ne_endOfFile (by decide) (beginsOperand_of_literal? found)), ?_⟩
    have laid := laid_literal found here.next_in
    rw [← here.back_advance] at laid
    exact laid.slot
  | group opened _ closed inner =>
    -- No node stands for the parentheses, so what is inside only gets more room.
    have opening := (here.stay.advance (by simp [opened])).pastNewlines
    obtain ⟨walk, slot⟩ := inner opening.here
    have closing := walk.here.stay.pastNewlines.advance (by simp [closed])
    exact ⟨(opening.trans walk).trans closing, slot.mono opening.ahead closing.back⟩
  | sign isSign _ operand =>
    have taken := here.stay.advance (kind_ne_endOfFile (by decide) isSign)
    have lines := taken.here.stay.pastNewlines
    obtain ⟨walk, slot⟩ := operand lines.here
    exact ⟨(taken.trans lines).trans walk, slot_signed here.next_in slot (here.last_le_ahead lines)⟩
  | stepNothing isStep _ operand =>
    have taken := here.stay.advance (kind_ne_endOfFile (by decide) isStep)
    obtain ⟨walk, _⟩ := operand taken.here
    exact ⟨taken.trans walk, slot_absent⟩
  | step isStep _ operand =>
    have taken := here.stay.advance (kind_ne_endOfFile (by decide) isStep)
    obtain ⟨walk, slot⟩ := operand taken.here
    exact ⟨taken.trans walk,
      (laid_stepFront _ here.next_in (slot rfl) (here.last_le_ahead taken.here.stay)).slot⟩
  | instantiation isNew named _ _ name args =>
    have taken := here.stay.advance (by simp [isNew])
    have plain := taken.here.stay.advance (by simp [named])
    obtain ⟨walk, laid⟩ := name plain.here
    obtain ⟨walk', all⟩ := args walk.here
    have name := laid_plainName taken.here.next_in
    rw [← taken.here.back_advance] at name
    have blueprint := (laid _ name).mono taken.ahead walk'.back
    have list := all.mono ((taken.trans plain).trans walk).ahead (Int.le_refl _)
    have behind := (plain.trans walk).trans walk'
    refine ⟨taken.trans behind, Laid.slot ?_⟩
    refine laid_fromNext here behind rfl rfl ?_ all.inOrder
    exact (List.forall_cons ..).2 ⟨blueprint.slot, List.forall_iff_forall_mem.2 list.slots⟩
  | nothing => exact ⟨here.stay, slot_absent⟩
  | operandNothing _ atom =>
    obtain ⟨walk, _⟩ := atom here
    exact ⟨walk, slot_absent⟩
  | operand _ present _ atom tail =>
    obtain ⟨walk, slot⟩ := atom here
    obtain ⟨walk', laid⟩ := tail walk.here
    exact ⟨walk.trans walk', (laid _ (slot present)).slot⟩
  | tailDone => exact ⟨here.stay, fun _ laid => laid⟩
  | tailStep _ isStep _ tail =>
    have taken := here.stay.advance (kind_ne_endOfFile (by decide) isStep)
    obtain ⟨walk, laid⟩ := tail taken.here
    refine ⟨taken.trans walk, fun lower left => laid lower ?_⟩
    rw [here.back_advance]
    exact laid_stepBehind _ left here.next_in here.back_le_ahead
  | tailCall _ _ _ _ args tail =>
    -- The call is the left node of what follows, and it ends with the parenthesis that was taken last.
    obtain ⟨walk, all⟩ := args here
    obtain ⟨walk', laid⟩ := tail walk.here
    refine ⟨walk.trans walk', fun lower left => laid lower ?_⟩
    exact laid_call left (all.mono here.back_le_ahead (Int.le_refl _)) walk.here.lastEnd_in walk.back
  | tailMember _ dot named _ tail | dottedNext dot named _ tail =>
    have point := (here.stay.advance (by simp [dot])).pastNewlines
    have taken := point.advance (by simp [named])
    obtain ⟨walk, laid⟩ := tail taken.here
    exact ⟨taken.trans walk, fun lower left => laid lower (laid_member left point)⟩
  | @tailBinary c _ _ _ _ _ _ _ binds isOp _ present _ right tail =>
    have notEnd : c.kind ≠ .endOfFile := by
      intro atEnd
      rw [atEnd] at isOp
      cases isOp
    have operator := (here.stay.advance notEnd).pastNewlines
    obtain ⟨walk, slot⟩ := right operator.here
    obtain ⟨walk', laid⟩ := tail walk.here
    refine ⟨(operator.trans walk).trans walk', fun lower left => laid lower ?_⟩
    exact laid_binary _ left ((slot present).mono operator.back_le_ahead (Int.le_refl _))
  | dottedDone => exact ⟨here.stay, fun _ laid => laid⟩
  | argumentsNone opened closed =>
    exact ⟨(here.stay.advance (by simp [opened])).pastNewlines.advance (by simp [closed]), .nil⟩
  | argumentsSome opened _ _ present _ closed head more =>
    have opening := (here.stay.advance (by simp [opened])).pastNewlines
    obtain ⟨walk, slot⟩ := head opening.here
    obtain ⟨walk', all⟩ := more walk.here
    have closing := walk'.here.stay.pastNewlines.advance (by simp [closed])
    have list := AllLaid.cons (slot present) (all.mono walk.here.back_le_ahead (Int.le_refl _)) walk'.back
    exact ⟨((opening.trans walk).trans walk').trans closing, list.mono opening.ahead closing.back⟩
  | argumentsDone => exact ⟨here.stay, .nil⟩
  | argumentsNext comma _ present _ head more =>
    have next := (here.stay.advance (by simp [comma])).pastNewlines
    obtain ⟨walk, slot⟩ := head next.here
    obtain ⟨walk', all⟩ := more walk.here
    have list := AllLaid.cons (slot present) (all.mono walk.here.back_le_ahead (Int.le_refl _)) walk'.back
    exact ⟨(next.trans walk).trans walk', list.mono next.ahead (Int.le_refl _)⟩
  | expressionNothing _ operand =>
    obtain ⟨walk, _⟩ := operand here
    exact ⟨walk, slot_absent⟩
  | expressionPlain _ _ _ operand => exact operand here
  | expressionAssign _ assigns _ present target value =>
    obtain ⟨walk, name⟩ := target here
    have operator := (walk.here.stay.advance (kind_ne_endOfFile (by decide) assigns)).pastNewlines
    obtain ⟨walk', assigned⟩ := value operator.here
    have behind := (assigned present).mono operator.back_le_ahead (Int.le_refl _)
    exact ⟨(walk.trans operator).trans walk', (laid_assignment _ (name rfl) behind).slot⟩
  | statementsDone | membersDone => exact ⟨here.stay, .nil⟩
  | statementsNext _ _ _ _ head more | membersNext _ _ _ _ head more =>
    obtain ⟨walk, laid⟩ := head here
    have next := walk.here.stay.pastSeparators
    obtain ⟨walk', all⟩ := more next.here
    have behind := next.trans walk'
    exact ⟨walk.trans behind, .cons laid (all.mono next.back_le_ahead (Int.le_refl _)) behind.back⟩
  | block opened _ closed inner =>
    have taken := here.stay.advance (by simp [opened])
    have inside := taken.here.stay.pastSeparators
    obtain ⟨walk, all⟩ := inner inside.here
    have closing := walk.here.stay.advance (by simp [closed])
    have behind := (inside.trans walk).trans closing
    have list := all.mono (taken.trans inside).ahead closing.back
    exact ⟨taken.trans behind, laid_fromNext here behind rfl rfl
      (List.forall_iff_forall_mem.2 list.slots) all.inOrder⟩
  | bodyBlock _ _ inner =>
    have lines := here.stay.pastNewlines
    obtain ⟨walk, laid⟩ := inner lines.here
    exact ⟨lines.trans walk, laid.mono lines.ahead (Int.le_refl _)⟩
  | bodySingle _ _ _ inner =>
    have lines := here.stay.pastNewlines
    obtain ⟨walk, laid⟩ := inner lines.here
    refine ⟨lines.trans walk, Laid.mono ?_ lines.ahead (Int.le_refl _)⟩
    exact laid_upTo lines.here.next_in.first walk.here laid.lower_le_upper rfl rfl laid.slot
      (List.pairwise_singleton _ _)
  | condition opened _ present closed inner =>
    have opening := (here.stay.advance (by simp [opened])).pastNewlines
    obtain ⟨walk, slot⟩ := inner opening.here
    have closing := walk.here.stay.pastNewlines.advance (by simp [closed])
    exact ⟨(opening.trans walk).trans closing, (slot present).mono opening.ahead closing.back⟩
  | variablePlain typed named _ =>
    have taken := here.stay.advance (kind_ne_endOfFile (by decide) typed)
    have name := taken.here.stay.advance (by simp [named])
    refine ⟨taken.trans name, fun placed before => ?_⟩
    exact laid_upTo placed name.here (Int.le_trans before (here.ahead_le_back name)) rfl rfl
      slot_absent trivial
  | variableInitial typed named assigned _ present value =>
    -- The initial value makes an assignment of its own, which begins at the name.
    have taken := here.stay.advance (kind_ne_endOfFile (by decide) typed)
    have name := taken.here.stay.advance (by simp [named])
    have equals := (name.here.stay.advance (by simp [assigned])).pastNewlines
    obtain ⟨walk, slot⟩ := value equals.here
    have rest := equals.trans walk
    have behind := name.trans rest
    refine ⟨taken.trans behind, fun placed before => ?_⟩
    have target := laid_name taken.here.next_in
    rw [← taken.here.back_advance] at target
    have assigned := (slot present).mono (name.trans equals).ahead (Int.le_refl _)
    refine laid_upTo placed rest.here (Int.le_trans before (here.ahead_le_back behind)) rfl rfl
      (Laid.slot (Laid.mono ?_ (Int.le_trans before taken.ahead) (Int.le_refl _))) trivial
    exact laid_fromNext taken.here rest rfl rfl
      ⟨(target.mono (Int.le_refl _) rest.back).slot, assigned.slot⟩ trivial
  | function isFunction named params _ body =>
    have taken := here.stay.advance (by simp [isFunction])
    have name := taken.here.stay.advance (by simp [named])
    have names := (params.walk name.here).pastNewlines
    obtain ⟨walk, laid⟩ := body names.here
    have behind := (name.trans names).trans walk
    refine ⟨taken.trans behind, fun placed before => ?_⟩
    have block := laid.mono (Int.le_trans before ((taken.trans name).trans names).ahead) (Int.le_refl _)
    exact laid_upTo placed walk.here (Int.le_trans before (here.ahead_le_back behind)) rfl rfl
      block.slot trivial
  | blueprint isClass named opened _ closed members =>
    have taken := here.stay.advance (by simp [isClass])
    have name := taken.here.stay.advance (by simp [named])
    have opening := (name.here.stay.pastNewlines.advance (by simp [opened])).pastSeparators
    obtain ⟨walk, all⟩ := members opening.here
    have closing := walk.here.stay.advance (by simp [closed])
    have behind := ((name.trans opening).trans walk).trans closing
    refine ⟨taken.trans behind, fun placed before => ?_⟩
    have within := Int.le_trans before ((taken.trans name).trans opening).ahead
    obtain ⟨fields, methods, classes⟩ := laid_sortMembers (all.mono within closing.back)
    refine laid_upTo placed closing.here (Int.le_trans before (here.ahead_le_back behind)) rfl rfl
      (List.forall_iff_forall_mem.2 ?_) ⟨fields.inOrder, methods.inOrder, classes.inOrder⟩
    exact List.forall_mem_append.2 ⟨List.forall_mem_append.2 ⟨fields.slots, methods.slots⟩, classes.slots⟩
  | member _ declared | statementDeclaration _ _ declared =>
    -- A declaration begins at its first modifier.
    have modifiers := here.stay.pastModifiers
    obtain ⟨walk, laid⟩ := declared modifiers.here
    exact ⟨modifiers.trans walk, laid here.next_in.first modifiers.ahead⟩
  | statementExpression _ _ present expression =>
    obtain ⟨walk, slot⟩ := expression here
    exact ⟨walk, slot present⟩
  | branchPlain isIf _ _ _ test yes =>
    have taken := here.stay.advance (by simp [isIf])
    obtain ⟨walk, laidTest⟩ := test taken.here
    obtain ⟨walk', laidYes⟩ := yes walk.here
    have behind := walk.trans walk'
    have first := laidTest.mono taken.ahead walk'.back
    have second := laidYes.mono (taken.trans walk).ahead (Int.le_refl _)
    exact ⟨taken.trans behind, laid_fromNext here behind rfl rfl
      ⟨first.slot, second.slot, slot_absent⟩ trivial⟩
  | branchElse isIf _ _ isElse _ _ test yes no =>
    have taken := here.stay.advance (by simp [isIf])
    obtain ⟨walk, laidTest⟩ := test taken.here
    obtain ⟨walk', laidYes⟩ := yes walk.here
    have other := (walk'.here.stay.pastNewlines.advance (by simp [isElse])).pastNewlines
    obtain ⟨walk'', laidNo⟩ := no other.here
    have rest := other.trans walk''
    have behind := (walk.trans walk').trans rest
    have first := laidTest.mono taken.ahead (walk'.trans rest).back
    have second := laidYes.mono (taken.trans walk).ahead rest.back
    have third := laidNo.mono (((taken.trans walk).trans walk').trans other).ahead (Int.le_refl _)
    exact ⟨taken.trans behind, laid_fromNext here behind rfl rfl
      ⟨first.slot, second.slot, third.slot⟩ trivial⟩
  | branchElseIf isIf _ _ isElse _ _ test yes inner =>
    have taken := here.stay.advance (by simp [isIf])
    obtain ⟨walk, laidTest⟩ := test taken.here
    obtain ⟨walk', laidYes⟩ := yes walk.here
    have lines := walk'.here.stay.pastNewlines
    have word := lines.here.stay.advance (by simp [isElse])
    have other := word.here.stay.pastNewlines
    obtain ⟨walk'', laidNo⟩ := inner other.here
    have only := other.trans walk''
    have rest := (lines.trans word).trans only
    have behind := (walk.trans walk').trans rest
    have first := laidTest.mono taken.ahead (walk'.trans rest).back
    have second := laidYes.mono (taken.trans walk).ahead rest.back
    -- The statement behind `else` is wrapped in a tree that begins at that word.
    have wrapped := laid_fromNext (n := .tree _ [_]) lines.here only rfl rfl
      (laidNo.mono (word.trans other).ahead (Int.le_refl _)).slot
      (List.pairwise_singleton _ _)
    have third := wrapped.mono (((taken.trans walk).trans walk').trans lines).ahead (Int.le_refl _)
    exact ⟨taken.trans behind, laid_fromNext here behind rfl rfl
      ⟨first.slot, second.slot, third.slot⟩ trivial⟩
  | whileLoop isWhile _ _ test inner =>
    have taken := here.stay.advance (by simp [isWhile])
    obtain ⟨walk, laidTest⟩ := test taken.here
    obtain ⟨walk', laidBody⟩ := inner walk.here
    have behind := walk.trans walk'
    have first := laidTest.mono taken.ahead walk'.back
    have second := laidBody.mono (taken.trans walk).ahead (Int.le_refl _)
    exact ⟨taken.trans behind, laid_fromNext here behind rfl rfl ⟨first.slot, second.slot⟩ trivial⟩
  | doWhileLoop isDo _ isWhile _ inner test =>
    have taken := here.stay.advance (by simp [isDo])
    obtain ⟨walk, laidBody⟩ := inner taken.here
    have word := walk.here.stay.pastNewlines.advance (by simp [isWhile])
    obtain ⟨walk', laidTest⟩ := test word.here
    have rest := word.trans walk'
    have behind := walk.trans rest
    have first := laidTest.mono ((taken.trans walk).trans word).ahead (Int.le_refl _)
    have second := laidBody.mono taken.ahead rest.back
    exact ⟨taken.trans behind, laid_fromNext here behind rfl rfl ⟨first.slot, second.slot⟩ trivial⟩
  | forLoop isFor opened _ semicolon _ semicolon' _ closed _ first test round inner =>
    have taken := here.stay.advance (by simp [isFor])
    have opening := (taken.here.stay.advance (by simp [opened])).pastNewlines
    obtain ⟨walk₁, slot₁⟩ := first opening.here
    have header₁ := (walk₁.here.stay.advance (by simp [semicolon])).pastNewlines
    obtain ⟨walk₂, slot₂⟩ := test header₁.here
    have header₂ := (walk₂.here.stay.advance (by simp [semicolon'])).pastNewlines
    obtain ⟨walk₃, slot₃⟩ := round header₂.here
    have closing := walk₃.here.stay.pastNewlines.advance (by simp [closed])
    obtain ⟨walk₄, laid⟩ := inner closing.here
    -- The way from each part on to the end, and from the beginning up to each part.
    have after₃ := closing.trans walk₄
    have after₂ := (header₂.trans walk₃).trans after₃
    have after₁ := (header₁.trans walk₂).trans after₂
    have before₁ := taken.trans opening
    have before₂ := (before₁.trans walk₁).trans header₁
    have before₃ := (before₂.trans walk₂).trans header₂
    have before₄ := (before₃.trans walk₃).trans closing
    have behind := (opening.trans walk₁).trans after₁
    exact ⟨taken.trans behind, laid_fromNext here behind rfl rfl
      ⟨slot₁.mono before₁.ahead after₁.back, slot₂.mono before₂.ahead after₂.back,
        slot₃.mono before₃.ahead after₃.back, (laid.mono before₄.ahead (Int.le_refl _)).slot⟩ trivial⟩
  | forStartNone | forPartNone => exact ⟨here.stay, slot_absent⟩
  | forStartVariable _ _ declared =>
    obtain ⟨walk, laid⟩ := declared here
    exact ⟨walk, (laid here.next_in.first (Int.le_refl _)).slot⟩
  | forStartExpression _ _ _ expression => exact expression here
  | forPartSome _ _ expression => exact expression here

/-- Statements end where no more are asked for. -/
theorem Reads.statements_stop {more : Kind → Bool} {y : Yield} (read : Reads (.statements more) c y c') :
    more c'.kind = false := by
  generalize is : Phrase.statements more = phrase at read
  induction read with
  | statementsDone stops =>
    cases is
    exact stops
  | statementsNext _ _ _ _ _ ih => exact ih is
  | _ => cases is

end Parser

/-- In the tree of a source without diagnostics, every node has a span in the source that holds the spans of its
    parts, the nodes of a list stand one behind another, and the whole reaches from the first token up to the
    end of the source. -/
theorem spans_orderly {source : List UInt8} (accepted : (parseSource source).2 = []) :
    let tree := (parseSource source).1
    tree.isAbsent = false ∧ tree.Throughout (fun n => n.isAbsent = false → n.Orderly source) ∧
      (∃ t, (tokenize source).1.head? = some t ∧ tree.span.first = t.span.first) ∧
      tree.span.last.offset = source.length := by
  obtain ⟨_, tree, parsed, is⟩ := parseSource_clean accepted
  obtain ⟨c', ns, read, rfl⟩ := parseTokens_eq_iff.1 parsed
  have here := Cursor.among_start source
  have lines := here.stay.pastSeparators
  obtain ⟨walk, all⟩ := read.laid lines.here
  have atEnd : c'.kind = .endOfFile := by simpa using read.statements_stop
  have final : c'.next.span.last = Position.behind source := by
    rw [walk.here.next_eq_endToken atEnd]
    exact Position.advance_behind [] source
  have begins := (lines.trans walk).ahead
  have ends := walk.here.next_in.ordered
  have behind : c'.back ≤ c'.next.span.last.offset := Int.le_trans walk.here.back_le_ahead ends
  have whole : Span.In source ⟨(Cursor.mk (tokenize source).1 none []).next.span.first, c'.next.span.last⟩ :=
    ⟨here.next_in.first, walk.here.next_in.last, Int.le_trans begins ends⟩
  have laid := Node.laid_of_parts (n := .tree _ ns) whole rfl rfl
    (List.forall_iff_forall_mem.2 (all.mono lines.ahead behind).slots) all.inOrder
  rw [is]
  refine ⟨rfl, laid.nested, ⟨_, congrArg List.head? here.rest_eq, rfl⟩, ?_⟩
  exact (congrArg Position.offset final).trans (Position.offset_behind source)

def nestedText : List UInt8 :=
  "\nclass A \x7b\n int x = -(1)\n function f(a) \x7b a.x = -a \x7d\n".toUTF8.data.toList ++
    "class B \x7b \x7d\n var y \x7d\n".toUTF8.data.toList ++
    "if ((1)) 2 else if (new A(1, +2).f((3)) < 4) \x7b for (;;) (x)++ \x7d\n".toUTF8.data.toList

theorem spans_orderly_nestedText :
    (parseSource nestedText).2 = [] ∧
      (parseSource nestedText).1.Throughout (fun n => n.isAbsent = false → n.Orderly nestedText) ∧
      (parseSource nestedText).1.span.last.offset = nestedText.length := by
  have accepted : (parseSource nestedText).2 = [] := by decide +kernel
  obtain ⟨_, orderly, _, last⟩ := spans_orderly accepted
  exact ⟨accepted, orderly, last⟩

end ClassScript
