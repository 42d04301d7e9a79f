import Mathlib.Data.List.TakeWhile
import ClassScript.Proofs.Parser.Graft
import ClassScript.Proofs.Parser.Nesting
import ClassScript.Proofs.Parser.Parts

/-! # Headers of counting loops

A loop header is cut at its semicolons and at the parenthesis that closes it: the tokens of its three slots hold
no other semicolon, and their own parentheses pair up (`Paired`).  What stands in a slot is dropped exactly if
the slot is hollow: it holds line ends, signs, steps and parentheses, and no token that an operand is made of.  The
parser makes an empty slot of it and does not complain, so that `for (; -; ) f()` runs for ever.

The way there is in three inductions over readings: `Reads.pairs` for the parentheses of an expression,
`Reads.made` for what an empty expression is made of, and `Reads.loops`, which finds for every `for` that a
program is read over the loop that begins there.
-/

namespace ClassScript

namespace Parser

/-! ## Tokens between two cursors -/

def Across (P : List Token → Prop) (c c' : Cursor) : Prop := ∃ tokens, c.rest = tokens ++ c'.rest ∧ P tokens

section Across

variable {P Q : List Token → Prop} {c c₁ c₂ : Cursor}

theorem rest_eq_cons (ahead : c.kind ≠ .endOfFile) : c.rest = c.next :: c.advance.rest := by
  cases tokens : c.rest with
  | nil => exact absurd (Cursor.kind_of_rest_nil tokens) ahead
  | cons t rest => simp [Cursor.next, Cursor.advance, tokens]

theorem across_advance (ahead : c.kind ≠ .endOfFile) (holds : P [c.next]) : Across P c c.advance :=
  ⟨[c.next], rest_eq_cons ahead, holds⟩

theorem across_pastNewlines (holds : ∀ tokens, (∀ t ∈ tokens, t.kind = .newline) → P tokens) :
    Across P c c.pastNewlines := by
  refine ⟨c.rest.takeWhile fun t => t.kind = .newline, ?_, holds _ fun t member => ?_⟩
  · exact (List.takeWhile_append_dropWhile).symm
  · simpa using List.mem_takeWhile_imp member

theorem Across.join {R : List Token → Prop} (first : Across P c c₁) (second : Across Q c₁ c₂)
    (both : ∀ xs ys, P xs → Q ys → R (xs ++ ys)) : Across R c c₂ := by
  obtain ⟨xs, front, holds⟩ := first
  obtain ⟨ys, back, holds'⟩ := second
  exact ⟨xs ++ ys, by rw [front, back, List.append_assoc], both xs ys holds holds'⟩

theorem Across.mono (across : Across P c c₁) (weaker : ∀ tokens, P tokens → Q tokens) : Across Q c c₁ := by
  obtain ⟨tokens, parts, holds⟩ := across
  exact ⟨tokens, parts, weaker tokens holds⟩

/-- There is only one list of tokens between two cursors. -/
theorem Across.and (one : Across P c c₁) (other : Across Q c c₁) :
    Across (fun tokens => P tokens ∧ Q tokens) c c₁ := by
  obtain ⟨tokens, parts, holds⟩ := one
  obtain ⟨tokens', parts', holds'⟩ := other
  obtain rfl : tokens = tokens' := List.append_cancel_right (parts.symm.trans parts')
  exact ⟨tokens, parts, holds, holds'⟩

theorem across_of_onward (onward : Cursor.Onward c c₁) : Across (fun _ => True) c c₁ := by
  obtain ⟨tokens, parts⟩ := onward.rest
  exact ⟨tokens, parts.symm, trivial⟩

end Across

/-! ## Parentheses in pairs -/

/-- Whether a token is neither a parenthesis nor a semicolon, and begins or ends no statement of its own. -/
def isPlain : Kind → Bool
  | .leftParen | .rightParen | .semicolon | .forWord | .endOfFile => false
  | _ => true

inductive Paired : List Token → Prop
  | nil : Paired []
  | plain {t : Token} {rest : List Token} : isPlain t.kind = true → Paired rest → Paired (t :: rest)
  | group {opening closing : Token} {inner rest : List Token} :
      opening.kind = .leftParen → Paired inner → closing.kind = .rightParen → Paired rest →
      Paired (opening :: (inner ++ closing :: rest))

theorem Paired.append {xs ys : List Token} (first : Paired xs) (second : Paired ys) : Paired (xs ++ ys) := by
  induction first with
  | nil => exact second
  | plain isPlain _ ih => exact .plain isPlain ih
  | group opened inner closed _ _ ih =>
    rw [List.cons_append, List.append_assoc, List.cons_append]
    exact .group opened inner closed ih

theorem paired_of_plain {tokens : List Token} (all : ∀ t ∈ tokens, isPlain t.kind = true) : Paired tokens := by
  induction tokens with
  | nil => exact .nil
  | cons t rest ih =>
    obtain ⟨first, others⟩ := List.forall_mem_cons.1 all
    exact .plain first (ih others)

theorem Paired.ne_forWord {tokens : List Token} (paired : Paired tokens) : ∀ t ∈ tokens, t.kind ≠ .forWord := by
  induction paired with
  | nil => simp
  | plain isPlain _ others =>
    refine List.forall_mem_cons.2 ⟨fun is => ?_, others⟩
    simp [is, Parser.isPlain] at isPlain
  | group opened _ closed _ inner others =>
    refine List.forall_mem_cons.2 ⟨by simp [opened], List.forall_mem_append.2 ⟨inner, ?_⟩⟩
    exact List.forall_mem_cons.2 ⟨by simp [closed], others⟩

def isStop (kind : Kind) : Bool := kind = .semicolon || kind = .rightParen

theorem isStop_plain {kind : Kind} (stop : isStop kind = true) : isPlain kind = false ∧ kind ≠ .leftParen := by
  rw [isStop, Bool.or_eq_true, decide_eq_true_eq, decide_eq_true_eq] at stop
  rcases stop with rfl | rfl <;> exact ⟨rfl, by simp⟩

theorem not_isPlain_leftParen {t : Token} (opened : t.kind = .leftParen) : isPlain t.kind = false := by
  rw [opened]
  rfl

/-- Tokens that pair up reach to the first token that cannot be one of them, and no further. -/
theorem Paired.unique {xs ys : List Token} (first : Paired xs) (second : Paired ys) {s t : Token}
    {front back : List Token} (stop : isStop s.kind = true) (stop' : isStop t.kind = true)
    (same : xs ++ s :: front = ys ++ t :: back) : xs = ys ∧ front = back := by
  induction first generalizing ys s t front back with
  | nil =>
    obtain ⟨notPlain, notOpen⟩ := isStop_plain stop
    cases second with
    | nil => exact ⟨rfl, (List.cons.inj same).2⟩
    | plain plain _ =>
      obtain ⟨rfl, -⟩ := List.cons.inj same
      simp [notPlain] at plain
    | group opened _ _ _ =>
      obtain ⟨rfl, -⟩ := List.cons.inj same
      exact absurd opened notOpen
  | plain plain _ ih =>
    cases second with
    | nil =>
      obtain ⟨rfl, -⟩ := List.cons.inj same
      simp [isStop_plain stop'] at plain
    | plain _ others =>
      rw [List.cons_append, List.cons_append, List.cons.injEq] at same
      obtain ⟨rfl, same⟩ := same
      obtain ⟨rfl, rfl⟩ := ih others stop stop' same
      exact ⟨rfl, rfl⟩
    | group opened _ _ _ =>
      obtain ⟨rfl, -⟩ := List.cons.inj same
      simp [not_isPlain_leftParen opened] at plain
  | group opened _ closed _ innerSame othersSame =>
    cases second with
    | nil =>
      obtain ⟨rfl, -⟩ := List.cons.inj same
      exact absurd opened (isStop_plain stop').2
    | plain plain _ =>
      obtain ⟨rfl, -⟩ := List.cons.inj same
      simp [not_isPlain_leftParen opened] at plain
    | group _ inner closed' others =>
      -- The two inner lists end at the same parenthesis, hence so do the lists behind it.
      simp only [List.cons_append, List.append_assoc, List.cons.injEq] at same
      obtain ⟨rfl, same⟩ := same
      have cut := innerSame inner (by simp [isStop, closed]) (by simp [isStop, closed']) same
      obtain ⟨rfl, behind⟩ := cut
      obtain ⟨rfl, rfl⟩ := othersSame others stop stop' behind
      obtain ⟨rfl, -⟩ := List.cons.inj (List.append_cancel_left same)
      exact ⟨rfl, rfl⟩

abbrev Pairs : Cursor → Cursor → Prop := Across Paired

namespace Pairs

variable {c c₁ c₂ : Cursor}

theorem refl (c : Cursor) : Pairs c c := ⟨[], rfl, .nil⟩

theorem trans (first : Pairs c c₁) (second : Pairs c₁ c₂) : Pairs c c₂ :=
  first.join second fun _ _ => Paired.append

theorem pastNewlines (rest : Pairs c.pastNewlines c₁) : Pairs c c₁ := by
  refine trans (across_pastNewlines fun tokens newlines => paired_of_plain fun t member => ?_) rest
  rw [newlines t member]
  rfl

theorem advance (plain : isPlain c.kind = true) (rest : Pairs c.advance c₁) : Pairs c c₁ :=
  trans (across_advance (kind_ne_endOfFile rfl plain) (.plain plain .nil)) rest

theorem thenPastNewlines (first : Pairs c c₁) : Pairs c c₁.pastNewlines :=
  first.trans (pastNewlines (refl _))

theorem group (opened : c.kind = .leftParen) (inner : Pairs c.advance c₁) (closed : c₁.kind = .rightParen) :
    Pairs c c₁.advance := by
  have notEnd : c.kind ≠ .endOfFile := by simp [opened]
  have notEnd' : c₁.kind ≠ .endOfFile := by simp [closed]
  obtain ⟨tokens, parts, paired⟩ := inner
  refine ⟨c.next :: (tokens ++ [c₁.next]), ?_, .group opened paired closed .nil⟩
  rw [rest_eq_cons notEnd, parts, rest_eq_cons notEnd']
  simp

end Pairs

def Phrase.isInner : Phrase → Bool
  | .goal .expression | .goal (.operand _) | .atom | .tail .. | .dotted _ | .arguments | .moreArguments
  | .condition => true
  | _ => false

theorem isPlain_of_literal? {t : Token} {n : Node} (literal : literal? t = some n) :
    isPlain t.kind = true := by
  cases isLiteral_of_literal? literal <;> simp [*, isPlain]

theorem isPlain_of_isSign {kind : Kind} (sign : isSign kind = true) : isPlain kind = true := by
  obtain rfl | rfl := isSign_iff.1 sign <;> rfl

theorem isPlain_of_isStep {kind : Kind} (step : isStep kind = true) : isPlain kind = true := by
  obtain rfl | rfl := isStep_iff.1 step <;> rfl

theorem isPlain_of_binaryOp? {kind : Kind} {op : BinaryOp} (binary : kind.binaryOp? = some op) :
    isPlain kind = true := by
  revert binary
  cases kind <;> simp [isPlain, Kind.binaryOp?]

theorem isPlain_of_assignsValue {kind : Kind} (assigns : assignsValue kind = true) : isPlain kind = true := by
  revert assigns
  cases kind <;> simp [isPlain, assignsValue, Kind.isAssignment, Kind.assignOp?]

theorem isPlain_of_isTypeWord {kind : Kind} (typed : kind.isTypeWord = true) : isPlain kind = true := by
  revert typed
  cases kind <;> simp [isPlain, Kind.isTypeWord, Kind.declaredType?]

/-- An expression is made of tokens whose parentheses pair up. -/
theorem Reads.pairs {phrase : Phrase} {c c' : Cursor} {y : Yield} (read : Reads phrase c y c')
    (isInner : phrase.isInner = true) : Pairs c c' := by
  have plain {c : Cursor} {kind : Kind} (is : c.kind = kind) (plain : Parser.isPlain kind = true) :
      Parser.isPlain c.kind = true := is ▸ plain
  -- Of the rules, only those of expressions yield an inner phrase; the last line is about all others.
  induction read with
  | literal ahead => exact .advance (isPlain_of_literal? ahead) (.refl _)
  | nothing | tailDone | dottedDone | argumentsDone => exact .refl _
  | group opened _ closed inner => exact .group opened (inner rfl).thenPastNewlines.pastNewlines closed
  | sign ahead _ operand => exact .advance (isPlain_of_isSign ahead) (operand rfl).pastNewlines
  | stepNothing ahead _ operand | step ahead _ operand =>
    exact .advance (isPlain_of_isStep ahead) (operand rfl)
  | instantiation ahead named _ _ blueprint args =>
    exact .advance (plain ahead rfl) (.advance (plain named rfl) ((blueprint rfl).trans (args rfl)))
  | operandNothing _ atom => exact atom rfl
  | operand _ _ _ atom tail => exact (atom rfl).trans (tail rfl)
  | tailStep _ ahead _ tail => exact .advance (isPlain_of_isStep ahead) (tail rfl)
  | tailCall _ _ _ _ args tail => exact (args rfl).trans (tail rfl)
  | tailMember _ ahead named _ tail | dottedNext ahead named _ tail =>
    exact .advance (plain ahead rfl) (Pairs.advance (plain named rfl) (tail rfl)).pastNewlines
  | tailBinary _ ahead _ _ _ right tail =>
    exact .advance (isPlain_of_binaryOp? ahead) ((right rfl).trans (tail rfl)).pastNewlines
  | argumentsNone opened closed => exact .group opened (Pairs.refl _).pastNewlines closed
  | argumentsSome opened _ _ _ _ closed head more =>
    exact .group opened ((head rfl).trans (more rfl)).thenPastNewlines.pastNewlines closed
  | argumentsNext ahead _ _ _ head more =>
    exact .advance (plain ahead rfl) ((head rfl).trans (more rfl)).pastNewlines
  | expressionNothing _ operand | expressionPlain _ _ _ operand => exact operand rfl
  | expressionAssign _ ahead _ _ target value =>
    exact (target rfl).trans (.advance (isPlain_of_assignsValue ahead) (value rfl).pastNewlines)
  | condition opened _ _ closed test => exact .group opened (test rfl).thenPastNewlines.pastNewlines closed
  | _ => cases isInner

/-! ## What an empty expression is made of -/

def isHollow : Kind → Bool
  | .newline | .plus | .minus | .increment | .decrement | .leftParen | .rightParen => true
  | _ => false

def Hollow (tokens : List Token) : Prop := ∀ t ∈ tokens, isHollow t.kind = true

instance (tokens : List Token) : Decidable (Hollow tokens) := inferInstanceAs (Decidable (∀ t ∈ tokens, _))

theorem hollow_append {xs ys : List Token} : Hollow (xs ++ ys) ↔ Hollow xs ∧ Hollow ys :=
  List.forall_mem_append

theorem hollow_of_newlines {tokens : List Token} (newlines : ∀ t ∈ tokens, t.kind = .newline) : Hollow tokens := by
  intro t member
  rw [newlines t member]
  rfl

/-- The tokens between two cursors make up the node: they are hollow exactly if it is missing. -/
abbrev Makes (n : Node) : Cursor → Cursor → Prop := Across fun tokens => n.isAbsent = true ↔ Hollow tokens

namespace Makes

variable {n m : Node} {c c₁ c₂ : Cursor}

theorem nothing (c : Cursor) : Makes .absent c c := ⟨[], rfl, by simp [Hollow, Node.isAbsent]⟩

theorem congr (same : m.isAbsent = n.isAbsent) (makes : Makes m c c₁) : Makes n c c₁ :=
  makes.mono fun _ makes => same ▸ makes

/-! Hollow tokens around an expression do not matter. -/

theorem behind (front : Across Hollow c c₁) (makes : Makes n c₁ c₂) : Makes n c c₂ := by
  refine front.join makes fun xs ys hollow makes => makes.trans ?_
  rw [hollow_append, and_iff_right hollow]

theorem before (makes : Makes n c c₁) (back : Across Hollow c₁ c₂) : Makes n c c₂ := by
  refine makes.join back fun xs ys makes hollow => makes.trans ?_
  rw [hollow_append, and_iff_left hollow]

theorem pastNewlines (makes : Makes n c.pastNewlines c₁) : Makes n c c₁ :=
  behind (across_pastNewlines fun _ => hollow_of_newlines) makes

theorem thenPastNewlines (makes : Makes n c c₁) : Makes n c c₁.pastNewlines :=
  makes.before (across_pastNewlines fun _ => hollow_of_newlines)

theorem across_hollow (hollow : isHollow c.kind = true) : Across Hollow c c.advance :=
  across_advance (kind_ne_endOfFile rfl hollow) (List.forall_mem_singleton.2 hollow)

/-- A node that is there goes on behind a node that is there. -/
theorem extend (makes : Makes m c c₁) (was : m.isAbsent = false) (present : n.isAbsent = false)
    (onward : Cursor.Onward c₁ c₂) : Makes n c c₂ := by
  refine makes.join (across_of_onward onward) fun xs ys makes _ => ?_
  have solid : ¬ Hollow xs := fun hollow => by simp [makes.2 hollow] at was
  simp [present, hollow_append, solid]

/-- A node that is there begins with a token that is not hollow. -/
theorem ofToken (present : n.isAbsent = false) (ahead : c.kind ≠ .endOfFile) (solid : isHollow c.kind = false)
    {P : List Token → Prop} (rest : Across P c.advance c₁) : Makes n c c₁ := by
  obtain ⟨tokens, parts, -⟩ := rest
  refine ⟨c.next :: tokens, by rw [rest_eq_cons ahead, parts, List.cons_append], ?_⟩
  simp [Hollow, present, Cursor.next_kind, solid]

end Makes

theorem solid_of_literal? {t : Token} {n : Node} (literal : literal? t = some n) :
    n.isAbsent = false ∧ isHollow t.kind = false ∧ t.kind ≠ .endOfFile := by
  refine ⟨present_of_literal? literal, ?_⟩
  cases isLiteral_of_literal? literal <;> simp [*, isHollow]

def Phrase.Made : Phrase → Yield → Cursor → Cursor → Prop
  | .atom, .node n, c, c' | .goal (.operand _), .node n, c, c' | .goal .expression, .node n, c, c' => Makes n c c'
  | .tail _ left, .node n, _, _ => left.isAbsent = false → n.isAbsent = false
  | _, _, _, _ => True

/-- An expression yields nothing exactly if the tokens it is made of are hollow. -/
theorem Reads.made {phrase : Phrase} {c c' : Cursor} {y : Yield} (read : Reads phrase c y c') :
    phrase.Made y c c' := by
  induction read with
  | literal ahead =>
    obtain ⟨present, solid, notEnd⟩ := solid_of_literal? ahead
    exact .ofToken present notEnd solid (Pairs.refl _)
  | nothing => exact .nothing _
  | group opened _ closed inner =>
    -- Parentheses are hollow themselves, so a group is made of whatever its inside is made of.
    apply Makes.behind (Makes.across_hollow (by simp [opened, isHollow]))
    apply Makes.before (Makes.thenPastNewlines (Makes.pastNewlines inner))
    exact Makes.across_hollow (by simp [closed, isHollow])
  | sign ahead _ operand =>
    apply Makes.behind (Makes.across_hollow (by obtain is | is := isSign_iff.1 ahead <;> simp [is, isHollow]))
    exact .congr (isAbsent_signed _ _).symm (.pastNewlines operand)
  | stepNothing ahead _ operand =>
    exact .behind (Makes.across_hollow (by obtain is | is := isStep_iff.1 ahead <;> simp [is, isHollow])) operand
  | step ahead _ operand =>
    apply Makes.behind (Makes.across_hollow (by obtain is | is := isStep_iff.1 ahead <;> simp [is, isHollow]))
    exact .congr rfl operand
  | instantiation ahead _ blueprint args =>
    have onward := (blueprint.onward.trans args.onward).advance
    exact .ofToken rfl (by simp [ahead]) (by simp [ahead, isHollow]) (across_of_onward onward)
  | operandNothing _ atom => exact atom
  | operand _ present tail atom present' => exact Makes.extend atom present (present' present) tail.onward
  | tailDone => exact id
  | tailStep _ _ _ tail | tailCall _ _ _ _ _ tail | tailMember _ _ _ _ tail | tailBinary _ _ _ _ _ _ tail =>
    exact fun _ => tail rfl
  | expressionNothing _ operand => exact operand
  | expressionPlain _ _ _ operand => exact operand
  | expressionAssign _ _ value _ target _ =>
    exact Makes.extend target rfl rfl value.onward.pastNewlines.advance
  | _ => trivial

/-! ## The loops of a program -/

/-- Every `for` between two cursors begins a loop that is read there, and the loop is one of those wanted. -/
structure Loops (wanted : Node → Prop) (c c' : Cursor) : Prop where
  rest : c'.rest <:+ c.rest
  begins : ∀ t rest, t :: rest <:+ c.rest → c'.rest <:+ rest → t.kind = .forWord →
    ∃ loop d d', wanted loop ∧ d.rest = t :: rest ∧ Reads (.goal .statement) d (.node loop) d'

namespace Loops

variable {wanted wider : Node → Prop} {c c₁ c₂ : Cursor} {kind : Kind}

theorem mono (loops : Loops wanted c c₁) (wide : ∀ n, wanted n → wider n) : Loops wider c c₁ := by
  refine ⟨loops.rest, fun t rest inside behind isFor => ?_⟩
  obtain ⟨loop, d, d', isWanted, here, read⟩ := loops.begins t rest inside behind isFor
  exact ⟨loop, d, d', wide loop isWanted, here, read⟩

/-- Without a `for` there is no loop. -/
theorem none (across : Across (fun tokens => ∀ t ∈ tokens, t.kind ≠ .forWord) c c₁) : Loops wanted c c₁ := by
  obtain ⟨tokens, parts, noFor⟩ := across
  refine ⟨⟨tokens, parts.symm⟩, ?_⟩
  rintro t rest ⟨front, inside⟩ ⟨between, rfl⟩ isFor
  rw [parts, ← List.cons_append, ← List.append_assoc] at inside
  have member : t ∈ tokens := by
    rw [← List.append_cancel_right inside]
    simp
  exact absurd isFor (noFor t member)

theorem refl (c : Cursor) : Loops wanted c c := none ⟨[], rfl, by simp⟩

theorem trans (first : Loops wanted c c₁) (second : Loops wanted c₁ c₂) : Loops wanted c c₂ := by
  refine ⟨second.rest.trans first.rest, fun t rest inside behind isFor => ?_⟩
  -- The token stands before the middle cursor or behind it.
  rcases List.suffix_or_suffix_of_suffix inside first.rest with later | earlier
  · exact second.begins t rest later behind isFor
  · rcases List.suffix_cons_iff.1 earlier with same | earlier
    · exact second.begins t rest (same ▸ List.suffix_rfl) behind isFor
    · exact first.begins t rest inside earlier isFor

theorem skip {skipped : Kind → Bool} (notFor : skipped .forWord = false) (rest : Loops wanted (c.skipWhile skipped) c₁) :
    Loops wanted c c₁ := by
  refine trans (none ⟨c.rest.takeWhile fun t => skipped t.kind, ?_, fun t member isFor => ?_⟩) rest
  · exact (List.takeWhile_append_dropWhile).symm
  · have isSkipped := List.mem_takeWhile_imp member
    simp [isFor, notFor] at isSkipped

theorem pastNewlines (rest : Loops wanted c.pastNewlines c₁) : Loops wanted c c₁ := skip (by decide) rest

theorem pastSeparators (rest : Loops wanted c.pastSeparators c₁) : Loops wanted c c₁ := skip (by decide) rest

theorem pastModifiers (rest : Loops wanted c.pastModifiers c₁) : Loops wanted c c₁ := skip (by decide) rest

theorem ofPairs (pairs : Pairs c c₁) : Loops wanted c c₁ := none (pairs.mono fun _ => Paired.ne_forWord)

theorem step (is : c.kind = kind) (plain : kind ≠ .endOfFile ∧ kind ≠ .forWord) : Loops wanted c c.advance := by
  subst is
  exact none (across_advance plain.1 (List.forall_mem_singleton.2 plain.2))

theorem advance (is : c.kind = kind) (plain : kind ≠ .endOfFile ∧ kind ≠ .forWord)
    (rest : Loops wanted c.advance c₁) : Loops wanted c c₁ := (step is plain).trans rest

/-- A loop begins at the first cursor itself. -/
theorem here {loop : Node} (is : c.kind = .forWord) (isWanted : wanted loop) {c' : Cursor}
    (read : Reads (.goal .statement) c (.node loop) c') (rest : Loops wanted c.advance c₁) : Loops wanted c c₁ := by
  have parts := rest_eq_cons (c := c) (by simp [is])
  refine ⟨rest.rest.trans (parts ▸ List.suffix_cons _ _), fun t others inside behind isFor => ?_⟩
  rw [parts] at inside
  rcases List.suffix_cons_iff.1 inside with same | inside
  · exact ⟨loop, c, c', isWanted, parts.trans same.symm, read⟩
  · exact rest.begins t others inside behind isFor

end Loops

def Yield.Holds : Yield → Node → Prop
  | .node whole, n => n.Inside whole
  | .nodes wholes, n => ∃ whole ∈ wholes, n.Inside whole

theorem Loops.inPart {part whole : Node} {c c' : Cursor} (loops : Loops (Yield.node part).Holds c c')
    (isPart : part ∈ whole.parts) : Loops (Yield.node whole).Holds c c' :=
  loops.mono fun _ inside => .deeper isPart inside

theorem Loops.inParts {parts : List Node} {whole : Node} {c c' : Cursor} (loops : Loops (Yield.nodes parts).Holds c c')
    (areParts : ∀ part ∈ parts, part ∈ whole.parts) : Loops (Yield.node whole).Holds c c' := by
  apply loops.mono
  rintro n ⟨part, member, inside⟩
  exact .deeper (areParts part member) inside

theorem Loops.cons {n : Node} {ns : List Node} {c c₁ c₂ : Cursor} (head : Loops (Yield.node n).Holds c c₁)
    (more : Loops (Yield.nodes ns).Holds c₁ c₂) : Loops (Yield.nodes (n :: ns)).Holds c c₂ := by
  apply (head.mono fun loop inside => ⟨n, List.mem_cons_self, inside⟩).trans
  apply more.mono
  rintro loop ⟨m, member, inside⟩
  exact ⟨m, List.mem_cons_of_mem n member, inside⟩

theorem ReadsMoreNames.pairs {names : List String} {c c' : Cursor} (read : ReadsMoreNames c names c') : Pairs c c' := by
  induction read with
  | done => exact .refl _
  | next comma named _ rest =>
    exact .advance (by rw [comma]; rfl) (.pastNewlines (.advance (by rw [named]; rfl) rest))

theorem ReadsParams.pairs {names : List String} {c c' : Cursor} (read : ReadsParams c names c') : Pairs c c' := by
  cases read with
  | none opened closed => exact .group opened (Pairs.refl _).pastNewlines closed
  | some opened named more closed =>
    apply Pairs.group opened _ closed
    exact .pastNewlines (.advance (by rw [named]; rfl) more.pairs.thenPastNewlines)

/-- What follows the type of a variable is made of tokens whose parentheses pair up. -/
theorem Reads.variable_pairs {start : Position} {modifiers : Modifiers} {c c' : Cursor} {n : Node}
    (read : Reads (.declaration start modifiers) c (.node n) c') (typed : c.kind.isTypeWord = true) :
    Pairs c.advance c' ∧ n.isAbsent = false := by
  cases read with
  | variablePlain _ named _ => exact ⟨.advance (by rw [named]; rfl) (.refl _), rfl⟩
  | variableInitial _ named assigned value _ =>
    refine ⟨.advance (by rw [named]; rfl) (.advance (by rw [assigned]; rfl) ?_), rfl⟩
    exact (value.pairs rfl).pastNewlines
  | function ahead _ _ _ => simp [ahead, isTypeWord_functionWord] at typed
  | blueprint ahead _ _ _ _ => simp [ahead, isTypeWord_classWord] at typed

/-- Class members are declarations. -/
theorem Reads.declared?_of_member {c c' : Cursor} {n : Node} (read : Reads (.goal .member) c (.node n) c') :
    ∃ sort, declared? n = some sort := by
  cases read with
  | member declared => cases declared <;> exact ⟨_, rfl⟩

theorem Reads.declared?_of_members {c c' : Cursor} {ns : List Node} (read : Reads .members c (.nodes ns) c') :
    ∀ n ∈ ns, ∃ sort, declared? n = some sort := by
  generalize phraseIs : Phrase.members = phrase at read
  generalize yieldIs : Yield.nodes ns = y at read
  induction read generalizing ns with
  | membersDone =>
    cases yieldIs
    simp
  | membersNext _ _ head _ _ more =>
    cases yieldIs
    exact List.forall_mem_cons.2 ⟨head.declared?_of_member, more rfl rfl⟩
  | _ => cases phraseIs

theorem mem_sortMembers {n : Node} {ns : List Node} (member : n ∈ ns) {sort : Declares}
    (is : declared? n = some sort) :
    n ∈ (sortMembers ns).fields ++ (sortMembers ns).methods ++ (sortMembers ns).classes := by
  rw [sortMembers_eq]
  cases sort <;> simp [member, is]

/-- Every `for` that a phrase is read over begins a loop in what the phrase yields. -/
theorem Reads.loops {phrase : Phrase} {c c' : Cursor} {y : Yield} (read : Reads phrase c y c')
    (notInner : phrase.isInner = false) : Loops y.Holds c c' := by
  induction read with
  | statementsDone | membersDone | forStartNone | forPartNone => exact .refl _
  | statementsNext _ _ _ _ head more => exact (head rfl).cons (more rfl).pastSeparators
  | block opened _ closed inner =>
    apply Loops.advance opened (by decide)
    apply Loops.pastSeparators
    apply Loops.trans _ (.step closed (by decide))
    exact (inner rfl).inParts fun _ member => member
  | bodyBlock _ _ inner => exact (inner rfl).pastNewlines
  | bodySingle _ _ _ inner => exact ((inner rfl).inPart (by simp [Node.parts])).pastNewlines
  | variablePlain typed named _ =>
    apply Loops.ofPairs
    exact .advance (isPlain_of_isTypeWord typed) (.advance (by rw [named]; rfl) (.refl _))
  | variableInitial typed named assigned value _ =>
    apply Loops.ofPairs
    apply Pairs.advance (isPlain_of_isTypeWord typed)
    apply Pairs.advance (by rw [named]; rfl)
    exact .advance (by rw [assigned]; rfl) (value.pairs rfl).pastNewlines
  | function ahead named params _ body =>
    apply Loops.advance ahead (by decide)
    apply Loops.advance named (by decide)
    exact (Loops.ofPairs params.pairs).trans ((body rfl).inPart (by simp [Node.parts])).pastNewlines
  | blueprint ahead named opened read closed members =>
    apply Loops.advance ahead (by decide)
    apply Loops.advance named (by decide)
    apply Loops.pastNewlines
    apply Loops.advance opened (by decide)
    apply Loops.pastSeparators
    apply Loops.trans _ (.step closed (by decide))
    -- Sorting the members of a class loses none of them, for each of them declares something.
    refine (members rfl).inParts fun n member => ?_
    obtain ⟨sort, is⟩ := read.declared?_of_members n member
    exact mem_sortMembers member is
  | membersNext _ _ _ _ head more => exact (head rfl).cons (more rfl).pastSeparators
  | member _ declared | statementDeclaration _ _ declared => exact (declared rfl).pastModifiers
  | statementExpression _ expression _ | forStartExpression _ _ expression | forPartSome _ expression =>
    exact .ofPairs (expression.pairs rfl)
  | branchPlain ahead test _ _ _ yes =>
    apply Loops.advance ahead (by decide)
    exact (Loops.ofPairs (test.pairs rfl)).trans ((yes rfl).inPart (by simp [Node.parts]))
  | branchElse ahead test _ otherwise _ _ _ yes no =>
    apply Loops.advance ahead (by decide)
    apply (Loops.ofPairs (test.pairs rfl)).trans
    apply ((yes rfl).inPart (by simp [Node.parts])).trans
    apply Loops.pastNewlines
    apply Loops.advance otherwise (by decide)
    exact ((no rfl).inPart (by simp [Node.parts])).pastNewlines
  | branchElseIf ahead test _ otherwise _ _ _ yes inner =>
    apply Loops.advance ahead (by decide)
    apply (Loops.ofPairs (test.pairs rfl)).trans
    apply ((yes rfl).inPart (by simp [Node.parts])).trans
    apply Loops.pastNewlines
    apply Loops.advance otherwise (by decide)
    apply Loops.pastNewlines
    -- The inner branch is wrapped in a tree, so its loops are two steps down.
    apply (inner rfl).mono
    intro loop inside
    apply Node.Inside.deeper (List.mem_cons_of_mem _ (List.mem_cons_of_mem _ List.mem_cons_self))
    exact .deeper List.mem_cons_self inside
  | whileLoop ahead test _ _ inner =>
    apply Loops.advance ahead (by decide)
    exact (Loops.ofPairs (test.pairs rfl)).trans ((inner rfl).inPart (by simp [Node.parts]))
  | doWhileLoop ahead _ again test inner _ =>
    apply Loops.advance ahead (by decide)
    apply ((inner rfl).inPart (by simp [Node.parts])).trans
    apply Loops.pastNewlines
    apply Loops.advance again (by decide)
    exact .ofPairs (test.pairs rfl)
  | forLoop ahead opened first parted test parted' round closed inner firsts tests rounds loops =>
    apply Loops.here ahead .self (.forLoop ahead opened first parted test parted' round closed inner)
    apply Loops.advance opened (by decide)
    apply Loops.pastNewlines
    apply ((firsts rfl).inPart (by simp [Node.parts])).trans
    apply Loops.advance parted (by decide)
    apply Loops.pastNewlines
    apply ((tests rfl).inPart (by simp [Node.parts])).trans
    apply Loops.advance parted' (by decide)
    apply Loops.pastNewlines
    apply ((rounds rfl).inPart (by simp [Node.parts])).trans
    apply Loops.pastNewlines
    apply Loops.advance closed (by decide)
    exact (loops rfl).inPart (by simp [Node.parts])
  | forStartVariable _ _ declared => exact declared rfl
  | _ => cases notInner

/-! ## The slots of a header -/

/-- The header of a counting loop: what stands in its slots, and what behind it. -/
structure Header (tokens : List Token) where
  opening : Token
  start : List Token
  parting : Token
  test : List Token
  parting' : Token
  round : List Token
  closing : Token
  after : List Token
  spelled : tokens = opening :: (start ++ parting :: (test ++ parting' :: (round ++ closing :: after)))
  opened : opening.kind = .leftParen
  parted : parting.kind = .semicolon
  parted' : parting'.kind = .semicolon
  closed : closing.kind = .rightParen
  paired : Paired start ∧ Paired test ∧ Paired round

/-- Tokens begin with at most one header. -/
theorem Header.unique {tokens : List Token} (h h' : Header tokens) :
    h.start = h'.start ∧ h.test = h'.test ∧ h.round = h'.round := by
  obtain ⟨start, test, round⟩ := h.paired
  obtain ⟨start', test', round'⟩ := h'.paired
  have stops {t : Token} (is : t.kind = .semicolon ∨ t.kind = .rightParen) : isStop t.kind = true := by
    simpa [isStop] using is
  have same := (List.cons.inj (h.spelled.symm.trans h'.spelled)).2
  obtain ⟨sameStart, same⟩ := start.unique start' (stops (.inl h.parted)) (stops (.inl h'.parted)) same
  obtain ⟨sameTest, same⟩ := test.unique test' (stops (.inl h.parted')) (stops (.inl h'.parted')) same
  obtain ⟨sameRound, -⟩ := round.unique round' (stops (.inr h.closed)) (stops (.inr h'.closed)) same
  exact ⟨sameStart, sameTest, sameRound⟩

/-- The nodes are those that the slots of a header are read as: a slot is dropped exactly if it is hollow. -/
structure Header.Fills {tokens : List Token} (header : Header tokens) (first test round : Node) : Prop where
  start : first.isAbsent = true ↔ Hollow header.start
  test : test.isAbsent = true ↔ Hollow header.test
  round : round.isAbsent = true ↔ Hollow header.round

theorem solid_of_isTypeWord {kind : Kind} (typed : kind.isTypeWord = true) :
    kind ≠ .endOfFile ∧ isHollow kind = false := by
  revert typed
  cases kind <;> simp [Kind.isTypeWord, Kind.declaredType?, isHollow]

/-- What a slot is read as, and that it is cut off where its parentheses pair up. -/
abbrev Filled (n : Node) : Cursor → Cursor → Prop :=
  Across fun tokens => Paired tokens ∧ (n.isAbsent = true ↔ Hollow tokens)

theorem Reads.forStart_slot {c c' : Cursor} {n : Node} (read : Reads .forStart c.pastNewlines (.node n) c') :
    Filled n c c' := by
  apply Across.and
  · apply Pairs.pastNewlines
    cases read with
    | forStartNone => exact .refl _
    | forStartVariable typed declared =>
      exact .advance (isPlain_of_isTypeWord typed) (declared.variable_pairs typed).1
    | forStartExpression _ _ expression => exact expression.pairs rfl
  · apply Makes.pastNewlines
    cases read with
    | forStartNone => exact .nothing _
    | forStartVariable typed declared =>
      obtain ⟨pairs, present⟩ := declared.variable_pairs typed
      obtain ⟨notEnd, solid⟩ := solid_of_isTypeWord typed
      exact .ofToken present notEnd solid pairs
    | forStartExpression _ _ expression => exact expression.made

theorem Reads.forPart_slot {c c' : Cursor} {closing : Kind} {n : Node}
    (read : Reads (.forPart closing) c.pastNewlines (.node n) c') : Filled n c c' := by
  apply Across.and
  · apply Pairs.pastNewlines
    cases read with
    | forPartNone => exact .refl _
    | forPartSome _ expression => exact expression.pairs rfl
  · apply Makes.pastNewlines
    cases read with
    | forPartNone => exact .nothing _
    | forPartSome _ expression => exact expression.made

theorem Filled.thenPastNewlines {c c' : Cursor} {n : Node} (slot : Filled n c c') : Filled n c c'.pastNewlines :=
  Across.and (Pairs.thenPastNewlines (slot.mono fun _ => And.left))
    (Makes.thenPastNewlines (slot.mono fun _ => And.right))

/-- A statement that begins with `for` is a loop with a header. -/
theorem Reads.header {c c' : Cursor} {n : Node} (read : Reads (.goal .statement) c (.node n) c')
    (isFor : c.kind = .forWord) :
    ∃ span first test round body, n = .forLoop span first test round body ∧
      ∃ header : Header c.advance.rest, header.Fills first test round := by
  cases read with
  | statementDeclaration begins _ => exact absurd begins (by rw [isFor]; decide)
  | statementExpression plain _ _ => simp [isFor, leadsStatement] at plain
  | branchPlain ahead _ _ _ | branchElse ahead _ _ _ _ _ | branchElseIf ahead _ _ _ _ _
    | whileLoop ahead _ _ | doWhileLoop ahead _ _ _ => simp [isFor] at ahead
  | forLoop _ opened first parted test parted' round closed _ =>
    have split {d : Cursor} {kind : Kind} (is : d.kind = kind) (notEnd : kind ≠ .endOfFile) :
        d.rest = d.next :: d.advance.rest := rest_eq_cons (is ▸ notEnd)
    obtain ⟨start, startIs, startPaired, startMakes⟩ := first.forStart_slot
    obtain ⟨test, testIs, testPaired, testMakes⟩ := test.forPart_slot
    obtain ⟨round, roundIs, roundPaired, roundMakes⟩ := round.forPart_slot.thenPastNewlines
    have spelled := split opened (by decide)
    rw [startIs, split parted (by decide), testIs, split parted' (by decide), roundIs,
      split closed (by decide)] at spelled
    exact ⟨_, _, _, _, _, rfl, ⟨_, start, _, test, _, round, _, _, spelled, opened, parted, parted', closed,
      startPaired, testPaired, roundPaired⟩, startMakes, testMakes, roundMakes⟩

/-- A token before the end stands before every token list that begins with the end. -/
theorem suffix_of_reached {before rest back : List Token} {t : Token} (isFor : t.kind = .forWord)
    (reached : ∀ s ∈ before, s.kind ≠ .endOfFile) (atEnd : ∀ s ∈ back.head?, s.kind = .endOfFile)
    (inside : back <:+ before ++ t :: rest) : back <:+ rest := by
  cases back with
  | nil => exact List.nil_suffix
  | cons s more =>
    have ends : s.kind = .endOfFile := atEnd s rfl
    have differs : s ≠ t := by
      rintro rfl
      simp [ends] at isFor
    obtain ⟨front, parts⟩ := inside
    rcases List.append_eq_append_iff.1 parts with ⟨between, beforeIs, same⟩ | ⟨between, -, same⟩
    · cases between with
      | nil => exact absurd (List.cons.inj same).1 differs
      | cons first others =>
        obtain ⟨rfl, -⟩ := List.cons.inj same
        exact absurd ends (reached s (by simp [beforeIs]))
    · cases between with
      | nil => exact absurd (List.cons.inj same).1.symm differs
      | cons first others => exact ⟨others, (List.cons.inj same).2.symm⟩

/-- Every `for` before the end of a program begins one of its loops. -/
theorem ReadsProgram.loop {tokens before rest : List Token} {t : Token} {tree : Node} {c' : Cursor}
    (read : ReadsProgram tokens tree c') (place : tokens = before ++ t :: rest) (isFor : t.kind = .forWord)
    (reached : ∀ s ∈ before, s.kind ≠ .endOfFile) :
    ∃ loop d d', loop.Inside tree ∧ d.rest = t :: rest ∧ Reads (.goal .statement) d (.node loop) d' := by
  obtain ⟨ns, read, rfl⟩ := read
  have loops := (read.loops rfl).pastSeparators
  have stop : ∀ s ∈ c'.rest.head?, s.kind = .endOfFile := by
    intro s first
    obtain ⟨more, parts⟩ := List.head?_eq_some_iff.1 first
    have stopped := read.statements_stop
    rw [Cursor.kind_of_rest_cons parts] at stopped
    simpa using stopped
  have behind := suffix_of_reached isFor reached stop (place ▸ loops.rest)
  obtain ⟨loop, d, d', ⟨n, member, inside⟩, here, read⟩ := loops.begins t rest ⟨before, place.symm⟩ behind isFor
  exact ⟨loop, d, d', .deeper member inside, here, read⟩

/-- Each `for` of an accepted program begins a loop of the program with a header of three slots, and the parser
drops what stands in a slot exactly if the slot is hollow. -/
theorem parseTokens_forLoop {tokens before rest : List Token} {t : Token} (clean : (parseTokens tokens).2 = [])
    (place : tokens = before ++ t :: rest) (isFor : t.kind = .forWord)
    (reached : ∀ s ∈ before, s.kind ≠ .endOfFile) :
    ∃ span first test round body, (Node.forLoop span first test round body).Inside (parseTokens tokens).1 ∧
      (∃ c c', c.rest = t :: rest ∧ c'.diagnostics = c.diagnostics ∧
        parse (depthFor c.rest) .statement c = some (.forLoop span first test round body, c')) ∧
      Nonempty (Header rest) ∧ ∀ header : Header rest, header.Fills first test round := by
  obtain ⟨c', read⟩ := parseTokens_eq_iff.1 (Prod.ext rfl clean)
  obtain ⟨loop, d, d', inside, here, read⟩ := read.loop place isFor reached
  have ahead : d.kind = .forWord := (Cursor.kind_of_rest_cons here).trans isFor
  obtain ⟨span, first, test, round, body, rfl, header⟩ := read.header ahead
  have found := found_of_reads read (depthFor d.rest) (by simp only [Phrase.weight, Goal.rank, depthFor]; omega)
  have behind : d.advance.rest = rest := by
    have parts := rest_eq_cons (c := d) (by simp [ahead])
    exact (List.cons.inj (parts.symm.trans here)).2
  rw [behind] at header
  obtain ⟨header, fills⟩ := header
  refine ⟨span, first, test, round, body, inside, ⟨d, d', here, read.onward.diagnostics, found⟩, ⟨header⟩, ?_⟩
  intro other
  obtain ⟨sameStart, sameTest, sameRound⟩ := other.unique header
  exact ⟨sameStart ▸ fills.start, sameTest ▸ fills.test, sameRound ▸ fills.round⟩

def steppedHeader : List Token :=
  [.mark .leftParen, .name "i", .mark .assign, .mark .leftParen, ⟨.integer, "1", .none⟩, .mark .rightParen,
    .mark .semicolon, .mark .increment, .mark .semicolon, .mark .rightParen, .name "f", .mark .leftParen,
    .mark .rightParen, .ending]

theorem parseTokens_forLoop_steppedHeader :
    (parseTokens ([.name "i", .mark .semicolon] ++ .mark .forWord :: steppedHeader)).2 = [] ∧
      ∃ span first test round body,
        (Node.forLoop span first test round body).Inside
          (parseTokens ([.name "i", .mark .semicolon] ++ .mark .forWord :: steppedHeader)).1 ∧
        (∃ c c', c.rest = .mark .forWord :: steppedHeader ∧ c'.diagnostics = c.diagnostics ∧
          parse (depthFor c.rest) .statement c = some (.forLoop span first test round body, c')) ∧
        Nonempty (Header steppedHeader) ∧
        ∀ header : Header steppedHeader, header.Fills first test round :=
  ⟨by decide +kernel, parseTokens_forLoop (by decide +kernel) rfl rfl (by decide)⟩

def signTest : List UInt8 := "for (;-;) f()".toUTF8.data.toList

/-- The sign between the semicolons is dropped without a complaint: of the four parts of the loop only its body is
there, so that it runs for ever. -/
theorem parseSource_signTest :
    (tokenize signTest).1.map (·.kind) = [.forWord, .leftParen, .semicolon, .minus, .semicolon, .rightParen,
      .identifier, .leftParen, .rightParen, .endOfFile] ∧
    (parseSource signTest).2 = [] ∧
    (parseSource signTest).1.parts.map (·.parts.map Node.isAbsent) = [[true, true, true, false]] := by
  decide +kernel

end Parser

end ClassScript
