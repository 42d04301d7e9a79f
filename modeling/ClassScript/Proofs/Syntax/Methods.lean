import ClassScript.Proofs.Parser.Join
import ClassScript.Proofs.Syntax.Complete
import ClassScript.Proofs.Syntax.Paths

/-! # Methods in their places

A method is a function of a class that is not static.  In accepted programs methods stand among the functions of
classes and nowhere else (`sorted_of_accepted`), all functions there belong to the class, and every function has a
body.
-/

namespace ClassScript

def Modifiers.ofMethod (modifiers : Modifiers) : Bool := modifiers.inClass && !modifiers.isStatic

namespace Node

def isMethod : Node → Bool
  | .functionDeclaration _ modifiers _ _ _ => modifiers.ofMethod
  | _ => false

/-- Whether the node can stand among the functions of a class: if it is a function, it belongs to a class. -/
def isMember : Node → Bool
  | .functionDeclaration _ modifiers _ _ _ => modifiers.inClass
  | _ => true

def sorts : Node → Bool
  | .classDeclaration _ _ _ fields functions classes =>
    fields.all (!·.isMethod) && functions.all isMember && classes.all (!·.isMethod)
  | n => n.parts.all (!·.isMethod)

def bodied : Node → Bool
  | .functionDeclaration _ _ _ _ body => !body.isAbsent
  | _ => true

/-- All methods of the tree are functions of classes, and all functions have bodies. -/
structure Sorted (t : Node) : Prop where
  plain : t.isMethod = false
  sorts : t.Throughout (·.sorts)
  bodied : t.Throughout (·.bodied)

variable (mark : List Nat → Span)

@[simp] theorem isMethod_marked (n : Node) : (n.marked mark).isMethod = n.isMethod := by
  cases n <;> rfl

@[simp] theorem isMember_marked (n : Node) : (n.marked mark).isMember = n.isMember := by
  cases n <;> rfl

theorem sorts_marked (n : Node) : (n.marked mark).sorts = n.sorts := by
  have all {p : Node → Bool} (same : ∀ mark n, p (n.marked mark) = p n) (i : Nat) (ns : List Node) :
      (markedFrom mark i ns).all p = ns.all p := by
    induction ns generalizing i with
    | nil => rfl
    | cons n ns ih => rw [markedFrom, List.all_cons, List.all_cons, same, ih]
  have others := @all (!·.isMethod) fun mark n => congrArg (!·) (isMethod_marked mark n)
  have functions := @all isMember isMember_marked
  cases n <;> simp only [marked, sorts, parts, List.all_cons, List.all_nil, isMethod_marked, others, functions]

theorem bodied_marked (n : Node) : (n.marked mark).bodied = n.bodied := by
  cases n with
  | functionDeclaration => simp only [marked, bodied, isAbsent_marked]
  | _ => rfl

theorem Sorted.marked {t : Node} (sorted : t.Sorted) : (t.marked mark).Sorted := by
  have own {n : Node} (inside : n.Inside (t.marked mark)) : ∃ n' : Node, n'.Inside t ∧ ∃ mark, n = n'.marked mark := by
    obtain ⟨path, found⟩ := inside_iff.1 inside
    rw [at?_marked] at found
    obtain ⟨n', there, rfl⟩ := Option.map_eq_some_iff.1 found
    exact ⟨n', inside_iff.2 ⟨path, there⟩, _, rfl⟩
  refine ⟨(isMethod_marked mark t).trans sorted.plain, fun n inside => ?_, fun n inside => ?_⟩
  · obtain ⟨n', there, mark, rfl⟩ := own inside
    exact (sorts_marked mark n').trans (sorted.sorts n' there)
  · obtain ⟨n', there, mark, rfl⟩ := own inside
    exact (bodied_marked mark n').trans (sorted.bodied n' there)

end Node

/-! ## Accepted programs -/

namespace Parser

variable {numbers : Numbers} {role : Role} {n : Node}

def Role.inClass : Role → Bool
  | .member _ => true
  | .declaration _ modifiers => modifiers.inClass
  | _ => false

/-- A method has its role in a class. -/
theorem Fits.isMethod_eq_false (fits : Fits numbers role n) (outside : role.inClass = false) :
    n.isMethod = false := by
  induction fits with
  | @function span modifiers name params body =>
    have outside : modifiers.inClass = false := outside
    simp [Node.isMethod, Modifiers.ofMethod, outside]
  | inClass => cases outside
  | declared notInClass _ same => exact same notInClass
  | evaluated _ same | slotSome _ same | startVariable _ same | startSlot _ same => exact same rfl
  | _ => rfl

/-- What is declared in a class can stand there. -/
theorem Fits.isMember (fits : Fits numbers role n) (inside : role.inClass = true) : n.isMember = true := by
  induction fits with
  | function => exact inside
  | inClass isInClass _ same => exact same isInClass
  | declared | evaluated | slotSome | startVariable | startSlot => cases inside
  | _ => rfl

/-- Only functions that are declared in a class are methods. -/
theorem Fits.isMethod_of_sort {sort : Declares} (fits : Fits numbers (.member sort) n) (other : sort ≠ .function) :
    n.isMethod = false := by
  cases fits with
  | inClass _ declared =>
    cases declared with
    | function => exact absurd rfl other
    | variablePlain | variableInitial | blueprint => rfl

theorem Fits.sorts (fits : Fits numbers role n) : n.sorts = true := by
  have one {role : Role} {n : Node} (fits : Fits numbers role n) (outside : role.inClass = false) :
      (!n.isMethod) = true := by
    rw [fits.isMethod_eq_false outside]
    rfl
  have all {role : Role} {ns : List Node} (fit : ∀ n ∈ ns, Fits numbers role n) (outside : role.inClass = false) :
      ns.all (!·.isMethod) = true := List.all_eq_true.2 fun n here => one (fit n here) outside
  have absent : (!Node.absent.isMethod) = true := rfl
  induction fits with
  | integer | double | boolean | null | slotNone => rfl
  | usage target => simp only [Node.sorts, Node.parts, List.all_cons, one target rfl, List.all_nil, Bool.and_self]
  | binary _ left right =>
    simp only [Node.sorts, Node.parts, List.all_cons, one left rfl, one right rfl, List.all_nil, Bool.and_self]
  | step _ target =>
    simp only [Node.sorts, Node.parts, List.all_cons, one target rfl, absent, List.all_nil, Bool.and_self]
  | assignment _ _ _ target value =>
    simp only [Node.sorts, Node.parts, List.all_cons, one target rfl, one value rfl, List.all_nil, Bool.and_self]
  | callName callee arguments =>
    simp only [Node.sorts, Node.parts, List.all_cons, one callee rfl, all arguments rfl, Bool.and_self]
  | callValue callee _ arguments =>
    simp only [Node.sorts, Node.parts, List.all_cons, one callee rfl, all arguments rfl, Bool.and_self]
  | instantiation blueprint arguments =>
    simp only [Node.sorts, Node.parts, List.all_cons, one blueprint rfl, all arguments rfl, Bool.and_self]
  | name | plainName | nestedName | variablePlain | variableInitial => rfl
  | member receiver => simp only [Node.sorts, Node.parts, List.all_cons, one receiver rfl, List.all_nil, Bool.and_self]
  | function body => simp only [Node.sorts, Node.parts, List.all_cons, one body rfl, List.all_nil, Bool.and_self]
  | blueprint fields methods classes =>
    have plain {sort : Declares} {ns : List Node} (fit : ∀ n ∈ ns, Fits numbers (.member sort) n)
        (other : sort ≠ .function) : ns.all (!·.isMethod) = true := by
      refine List.all_eq_true.2 fun n here => ?_
      rw [(fit n here).isMethod_of_sort other]
      rfl
    have functions := List.all_eq_true.2 fun n here => (methods n here).isMember rfl
    simp only [Node.sorts, plain fields (by decide), functions, plain classes (by decide), Bool.and_self]
  | branch test yes =>
    simp only [Node.sorts, Node.parts, List.all_cons, one test rfl, one yes rfl, absent, List.all_nil, Bool.and_self]
  | branchElse test yes no =>
    simp only [Node.sorts, Node.parts, List.all_cons, one test rfl, one yes rfl, one no rfl, List.all_nil,
      Bool.and_self]
  | whileLoop test body | doWhileLoop test body =>
    simp only [Node.sorts, Node.parts, List.all_cons, one test rfl, one body rfl, List.all_nil, Bool.and_self]
  | forLoop first test round body =>
    simp only [Node.sorts, Node.parts, List.all_cons, one first rfl, one test rfl, one round rfl, one body rfl,
      List.all_nil, Bool.and_self]
  | body children => exact all children rfl
  | inClass _ _ same | declared _ _ same | evaluated _ same | slotSome _ same | startVariable _ same
  | startSlot _ same => exact same

/-- The body of a function is a block. -/
theorem Fits.bodied (fits : Fits numbers role n) : n.bodied = true := by
  induction fits with
  | function body =>
    cases body with
    | body => rfl
  | inClass _ _ same | declared _ _ same | evaluated _ same | slotSome _ same | startVariable _ same
  | startSlot _ same => exact same
  | _ => rfl

end Parser

/-- In accepted programs all methods are functions of classes, and all functions have bodies. -/
theorem sorted_of_accepted {source : List UInt8} (accepted : (parseSource source).2 = []) :
    (parseSource source).1.Sorted := by
  have clean : (parseTokens (tokenize source).1).2 = [] := (List.append_eq_nil_iff.1 accepted).2
  refine ⟨?_, fun n inside => ?_, fun n inside => ?_⟩
  · obtain ⟨-, tree, parsed, is⟩ := parseSource_clean accepted
    obtain ⟨c', ns, read, rfl⟩ := parseTokens_eq_iff.1 parsed
    rw [is]
    rfl
  · obtain ⟨role, fits⟩ := Parser.exists_fits_of_inside clean inside
    exact fits.sorts
  · obtain ⟨role, fits⟩ := Parser.exists_fits_of_inside clean inside
    exact fits.bodied

end ClassScript
