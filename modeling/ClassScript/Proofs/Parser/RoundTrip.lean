import ClassScript.Proofs.Number.Text
import ClassScript.Proofs.Parser.RoundTrip.Declaration
import ClassScript.Proofs.Token.Kinds

/-! # Parsing undoes writing

Every tree that fits its role is read back from its tokens (`back_of_fits`, an induction over `Fits`), and the
tree of an accepted program fits.  So the tree of an accepted program is the parse of what is written for it.
-/

namespace ClassScript

namespace Parser

open Cursor (At headKind)

def Role.Back : Role → Node → Prop
  | .expression, n => Expressed n
  | .target, n => Targeted n
  | .className, n => Classed n
  | .slot, n => Slotted n
  | .start, n => Started n
  | .declaration sort modifiers, n =>
    declared? n = some sort ∧ ∃ core, Declared modifiers n core ∧
      (sort = .variable → (headKind core).isTypeWord = true)
  | .member sort, n => Sorted sort n
  | .statement, n => Stated n
  | .body, n => Bodied n

variable {numbers : Numbers} {role : Role} {n : Node}

theorem isName_of_fits (fits : Fits numbers .expression n) : n.isName = false := by
  cases fits <;> rfl

theorem isAbsent_of_fits_body (fits : Fits numbers .body n) : n.isAbsent = false := by
  cases fits
  rfl

theorem isTypeWord_token {kind : Kind} {type : DeclaredType} (is : kind.declaredType? = some type) :
    type.token.isTypeWord = true := by
  rw [Kind.isTypeWord, declaredType?_token is]
  rfl

/-- A variable without modifiers begins a loop header. -/
theorem Declared.started {core : List Token} (declared : Declared {} n core)
    (typed : (headKind core).isTypeWord = true) : Started n := by
  intro rest c here
  have written : n.tokens = core := declared.written
  rw [written] at here
  have ahead : c.kind.isTypeWord = true := by
    rw [here.kind]
    cases core with
    | nil => cases typed
    | cons t core => exact typed
  have inLine : c.kind ≠ .newline := by
    intro newline
    rw [newline] at ahead
    cases ahead
  obtain ⟨c', behind, read⟩ := declared.reads here (closes_mark rfl rfl)
  refine ⟨Cursor.pastNewlines_eq_self inLine, c', behind, .forStartVariable ahead ?_⟩
  rwa [here.next_span]

/-- What fits its role is read back. -/
theorem back_of_fits (readable : numbers.Readable) (fits : Fits numbers role n) : role.Back n := by
  induction fits with
  | integer admitted => exact expressed_integer readable admitted
  | double admitted => exact expressed_double readable admitted
  | @boolean _ value => cases value <;> exact expressed_word rfl rfl rfl
  | null => exact expressed_word rfl rfl rfl
  | usage _ target => exact Targeted.expressed target
  | binary known _ _ left right => exact expressed_binary known left right
  | step steps _ target => exact expressed_step steps target
  | assignment notUp notDown known _ _ target value =>
    exact expressed_assignment notUp notDown known target value
  | callName _ _ callee arguments => exact expressed_callName callee arguments
  | callValue fits notUsage _ callee arguments =>
    exact expressed_callValue callee (isName_of_fits fits) notUsage arguments
  | instantiation _ _ blueprint arguments => exact expressed_instantiation blueprint arguments
  | name => exact targeted_name
  | member _ receiver => exact targeted_member receiver
  | plainName => exact classed_plainName
  | nestedName _ outer => exact classed_nestedName outer
  | variablePlain is => exact ⟨rfl, _, declared_variablePlain is, fun _ => isTypeWord_token is⟩
  | variableInitial is _ value =>
    exact ⟨rfl, _, declared_variableInitial is value, fun _ => isTypeWord_token is⟩
  | function _ body => exact ⟨rfl, _, declared_function body, nofun⟩
  | blueprint _ _ _ fields methods classes =>
    exact ⟨rfl, _, declared_blueprint fields methods classes, nofun⟩
  | inClass inside _ declaration =>
    obtain ⟨sorted, _, declared, _⟩ := declaration
    exact ⟨sorted, declared.membered inside⟩
  | declared outside _ declaration =>
    obtain ⟨_, _, declared, _⟩ := declaration
    exact declared.stated outside
  | evaluated _ expression => exact Expressed.stated expression
  | branch _ _ test yes => exact stated_branch test yes
  | branchElse _ _ fitsNo test yes no =>
    exact stated_branchElse test yes no (isAbsent_of_fits_body fitsNo)
  | whileLoop _ _ test body => exact stated_whileLoop test body
  | doWhileLoop _ _ test body => exact stated_doWhileLoop test body
  | forLoop _ _ _ _ first test round body => exact stated_forLoop first test round body
  | body _ children => exact bodied_tree children
  | slotNone => exact .inl rfl
  | slotSome _ expression => exact .inr expression
  | startVariable _ declaration =>
    obtain ⟨_, _, declared, typed⟩ := declaration
    exact declared.started (typed rfl)
  | startSlot _ slot => exact Slotted.started slot

/-- A program of statements that fit is the parse of what is written for it. -/
theorem parseTokens_unparse_of_fits (readable : numbers.Readable) {span : Span} {children : List Node}
    (fit : ∀ n ∈ children, Fits numbers .statement n) :
    parseTokens (Node.tree span children).unparse = ((Node.tree span children).erase, []) := by
  have here : At (separatedBy .lineBreak (children.map Node.tokens) ++ [.ending])
      (Cursor.mk (Node.tree span children).unparse none []) :=
    ⟨rfl, placeless_unparse (.tree span children), fun _ consumed => by simp at consumed⟩
  have breaks : Breaks [.ending] := ⟨⟨rfl, rfl⟩, nofun⟩
  obtain ⟨c', behind, read⟩ := statements_read (fun n member => back_of_fits readable (fit n member))
    opensStatement_insideProgram rfl breaks rfl here
  have program : ReadsProgram (Node.tree span children).unparse (Node.tree span children).erase c' := by
    refine ⟨children.map Node.erase, read, ?_⟩
    rw [here.next_span, behind.next_span, Node.erase_tree]
  exact parseTokens_eq_iff.2 ⟨c', program⟩

/-! ## Numbers of a source -/

/-- The numbers of programs that were read from a source: integers whose sizes 64 bits hold, and finite
    doubles. -/
def Numbers.sourced : Numbers := ⟨(· ≠ Int64.minValue), Number.Finite⟩

theorem sourced_symmetric : Numbers.sourced.Symmetric := by
  refine ⟨show (0 : Int64) ≠ Int64.minValue by decide, fun value other same => other ?_,
    fun value finite => finite.neg⟩
  have opposite := congrArg (- ·) same
  rwa [Int64.neg_neg] at opposite

theorem sourced_readable : Numbers.sourced.Readable := by
  refine ⟨fun value other => ?_, fun value finite => ?_⟩
  · have below := value.toInt_lt
    have above : -2 ^ 63 < value.toInt := by
      refine lt_of_le_of_ne value.le_toInt fun least => other (Int64.toInt_inj.1 ?_)
      exact least.symm.trans Int64.toInt_minValue.symm
    refine ⟨_, Number.readInteger_toString (by omega), ?_⟩
    split
    case isTrue negative =>
      rw [Int64.lt_iff_toInt_lt, Int64.toInt_zero] at negative
      rw [← Int64.ofInt_neg, show -(value.toInt.natAbs : Int) = value.toInt by omega, Int64.ofInt_toInt]
    case isFalse positive =>
      rw [Int64.lt_iff_toInt_lt, Int64.toInt_zero] at positive
      rw [show (value.toInt.natAbs : Int) = value.toInt by omega, Int64.ofInt_toInt]
  · cases negative : Number.isNegative value with
    | false => exact ⟨value, Number.readDouble_text finite negative, rfl⟩
    | true =>
      have unsigned : Number.isNegative (-value) = false := by rw [finite.isNegative_neg, negative]; rfl
      exact ⟨-value, Number.readDouble_text finite.neg unsigned, finite.neg_neg⟩

theorem admits_of_mem_tokenize {source : List UInt8} {t : Token} (member : t ∈ (tokenize source).1) :
    Numbers.sourced.Admits t := by
  constructor
  · intro kind read
    obtain ⟨c, rest, is, begins⟩ := number_lexeme member (.inl kind)
    exact Number.readInteger_ne_minValue begins is read
  · intro kind read
    obtain ⟨c, rest, is, begins⟩ := number_lexeme member (.inr kind)
    exact Number.finite_readDouble begins is read

end Parser

/-- The tree of a source without diagnostics is, but for its places, the parse of what is written for it. -/
theorem parseTokens_unparse (source : List UInt8) (accepted : (parseSource source).2 = []) :
    parseTokens (parseSource source).1.unparse = ((parseSource source).1.erase, []) := by
  have parsed : parseTokens (tokenize source).1 = ((parseSource source).1, []) :=
    Prod.ext rfl (List.append_eq_nil_iff.1 accepted).2
  obtain ⟨c', ns, read, is⟩ := parseTokens_eq_iff.1 parsed
  have fit := Parser.fits_of_reads Parser.sourced_symmetric read fun t member =>
    Parser.admits_of_mem_tokenize ((List.dropWhile_suffix _).subset member)
  rw [is]
  exact Parser.parseTokens_unparse_of_fits Parser.sourced_readable fit

def counterText : List UInt8 :=
  "class Counter \x7b\n static class Step \x7b int size = -2 \x7d\n var total = -0.5e-7\n".toUTF8.data.toList ++
    "function add(n, f) \x7b if (n < 2 ^ 3) total += f(n) * 3 - -n else if (n == null) total--".toUTF8.data.toList ++
    " else total = 1 \x7d \x7d\nfor (int i = 0; i < 3; i++)".toUTF8.data.toList ++
    " do new Counter.Step(i, (f)(1)).size = 2\n while (false)".toUTF8.data.toList

theorem parseTokens_unparse_counterText :
    (parseSource counterText).2 = [] ∧
      parseTokens (parseSource counterText).1.unparse = ((parseSource counterText).1.erase, []) := by
  have accepted : (parseSource counterText).2 = [] := by decide +kernel
  exact ⟨accepted, parseTokens_unparse counterText accepted⟩

end ClassScript
