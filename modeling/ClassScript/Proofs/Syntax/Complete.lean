import ClassScript.Proofs.Parser.Parts
import ClassScript.Proofs.Syntax.Unparse

/-! # Complete trees

`Throughout p t` says that every node of the tree `t` has the property `p`.  A tree is complete if nothing is
missing in it that its evaluation cannot do without: the variable of a reading or an assignment, a statement,
an argument, or the declaration that a member of a class is.
-/

namespace ClassScript

namespace Node

variable {p q : Node → Prop} {t : Node}

def Throughout (p : Node → Prop) (t : Node) : Prop := ∀ n, n.Inside t → p n

theorem throughout_iff : t.Throughout p ↔ p t ∧ ∀ part ∈ t.parts, part.Throughout p := by
  constructor
  · intro all
    exact ⟨all t .self, fun part below n inside => all n (.deeper below inside)⟩
  · rintro ⟨own, below⟩ n inside
    cases inside with
    | self => exact own
    | deeper part inside => exact below _ part n inside

theorem Throughout.own (all : t.Throughout p) : p t := all t .self

theorem Throughout.part (all : t.Throughout p) {n : Node} (below : n ∈ t.parts) : n.Throughout p :=
  (throughout_iff.1 all).2 n below

theorem Throughout.mono (all : t.Throughout p) (weaker : ∀ n, p n → q n) : t.Throughout q :=
  fun n inside => weaker n (all n inside)

def passesWithin (test : Node → Bool) : Nat → Node → Bool
  | 0, _ => false
  | depth + 1, t => test t && t.parts.all (passesWithin test depth)

theorem throughout_of_passesWithin {test : Node → Bool} {depth : Nat} (passes : passesWithin test depth t) :
    t.Throughout (test ·) := by
  induction depth generalizing t with
  | zero => cases passes
  | succ depth ih =>
    simp only [passesWithin, Bool.and_eq_true, List.all_eq_true] at passes
    exact throughout_iff.2 ⟨passes.1, fun part below => ih (passes.2 part below)⟩

@[simp] def isFilled : Node → Bool
  | .tree _ children => children.all (!·.isAbsent)
  | .usage _ target => target.isName
  | .assignment _ _ target _ => target.isName
  | .call _ _ arguments => arguments.all (!·.isAbsent)
  | .instantiation _ _ arguments => arguments.all (!·.isAbsent)
  | .classDeclaration _ _ _ fields methods classes =>
    fields.all (Parser.declared? · = some .variable) &&
      methods.all (Parser.declared? · = some .function) &&
      classes.all (Parser.declared? · = some .blueprint)
  | _ => true

def Complete (t : Node) : Prop := t.Throughout (·.isFilled)

theorem complete_absent : absent.Complete := throughout_iff.2 ⟨rfl, nofun⟩

end Node

end ClassScript
