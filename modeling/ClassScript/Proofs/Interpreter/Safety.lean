import ClassScript.Proofs.Evaluator.Simulation
import ClassScript.Proofs.Interpreter.Reachable
import ClassScript.Proofs.Parser.Trees

/-! # Complete programs never get stuck

Whatever a source is, its tree is complete, and the evaluation of a complete tree ends in a value or an error:
it never wants a variable where there is none, and never comes upon a class member that is no declaration.
Functions and classes keep the trees that they were made from, so this needs that all programs before were
complete too (`ReachableBy`).

That no variable is ever taken for a value is said with an evaluation that checks for it all the time
(`checkedEval`): whatever any node within yields must stand for a plain value, and no variable may hold a
variable.  The checks change nothing.
-/

namespace ClassScript

def Store.isFlat (s : Store) : Bool := s.tables.all fun t => t.all fun v => v.value.all Value.isPlain

/-- Whether the value stands for a plain one, if it stands for any. -/
def Store.standsPlain (s : Store) (v : Value) : Bool :=
  match s.plain v with
  | .ok x => x.isPlain
  | .error _ => true

theorem Store.isFlat_iff {s : Store} :
    s.isFlat ↔ ∀ t ∈ s.tables, ∀ v ∈ t, ∀ x, v.value = some x → x.isPlain := by
  simp only [isFlat, Array.all_eq_true', List.all_eq_true, Option.all_eq_true]

theorem Value.carries_true (v : Value) : v.Carries fun _ => True := by
  have anything (n : Node) : n.Throughout fun _ => True := fun _ _ => trivial
  have blueprint (c : ClassValue) : c.Carries fun _ => True := ⟨fun f _ => anything f.body, fun n _ => anything n⟩
  cases v with
  | function f => exact anything f.body
  | blueprint c => exact blueprint c
  | object o => exact blueprint o.blueprint
  | slot found =>
    cases found with
    | stored => trivial
    | method f => exact anything f.body
  | _ => trivial

namespace Eval

/-- The evaluation, which gets stuck if it leaves a variable in a variable or yields what does not stand for a
    plain value. -/
def checked (x : Eval Value) : Eval Value := do
  let v ← x
  let s := (← get).store
  if s.isFlat && s.standsPlain v then return v else throw .stuck

theorem checked_eq_ok {x : Eval Value} {m m' : Machine} {v : Value} :
    checked x m = .ok v m' ↔ x m = .ok v m' ∧ m'.store.isFlat ∧ m'.store.standsPlain v := by
  rw [checked, bind_apply]
  cases ran : x m with
  | error stop m₁ => simp
  | ok w m₁ =>
    change (if m₁.store.isFlat && m₁.store.standsPlain w then (pure w : Eval Value) else throw .stuck) m₁
      = _ ↔ _
    by_cases passes : m₁.store.isFlat && m₁.store.standsPlain w
    · rw [if_pos passes]
      constructor
      · intro yields
        cases yields
        exact ⟨rfl, by simpa using passes⟩
      · exact fun yields => yields.1
    · rw [if_neg passes]
      constructor
      · exact nofun
      · rintro ⟨same, holds⟩
        cases same
        exact absurd (by simpa using holds) passes

theorem checked_eq_error {x : Eval Value} {m m' : Machine} {stop : Stop}
    (stops : x m = .error stop m') : checked x m = .error stop m' := by
  rw [checked, bind_apply, stops]

theorem Matches.checked {p : Node → Prop} {strict : Prop} {x x' : Eval Value} {Q : Value → Prop}
    (agrees : Matches p strict x x' Q) (code : ∀ v, Q v → v.Carries p) :
    Matches p strict x (Eval.checked x') Q := by
  intro m carries
  have agrees := agrees m carries
  cases ran : x m with
  | ok v m' =>
    rw [ran] at agrees
    obtain ⟨same, carries', holds⟩ := agrees
    refine ⟨checked_eq_ok.2 ⟨same, Store.isFlat_iff.2 fun t there w here x found => ?_, ?_⟩,
      carries', holds⟩
    · exact (carries' t there w here x found).1
    · rw [Store.standsPlain]
      split
      case h_1 found => exact (carries'.plain (code v holds) found).1
      case h_2 => rfl
  | error stop m' =>
    rw [ran] at agrees
    exact ⟨fun strictly => checked_eq_error (agrees.1 strictly), agrees.2⟩

end Eval

namespace Evaluator

open Eval

def checkedEval (policy : Policy) : Nat → Recursion
  | 0, _, _ => throw .exhausted
  | budget + 1, node, scope => Eval.blaming node.span
      (rule policy (fun node scope => Eval.checked (checkedEval policy budget node scope)) budget node
        scope)

/-- What a rule gets as the value of a node that is checked is plain, and so is what it reads from any
    variable afterwards. -/
theorem isPlain_of_checked {rec : Recursion} {node : Node} {scope : Scope} {m m' : Machine} {v : Value}
    (yields : value (fun node scope => Eval.checked (rec node scope)) node scope m = .ok v m') :
    v.isPlain ∧ ∀ slot x, m'.store.read slot = .ok x → x.isPlain := by
  rw [value, bind_apply] at yields
  split at yields
  case h_2 => cases yields
  case h_1 w m₁ ran =>
    obtain ⟨_, flat, plain⟩ := checked_eq_ok.1 ran
    have carries : m₁.store.Carries fun _ => True := fun t there u here x found =>
      ⟨Store.isFlat_iff.1 flat t there u here x found, x.carries_true⟩
    rw [Eval.blaming, Eval.plain, Eval.query] at yields
    rw [Store.standsPlain] at plain
    cases found : m₁.store.plain w with
    | error fault =>
      rw [found] at yields
      cases yields
    | ok x =>
      rw [found] at yields plain
      cases yields
      refine ⟨plain, fun slot x found => (carries.read ?_ found).1⟩
      exact (Value.slot slot).carries_true

theorem eval_matches_checkedEval (policy : Policy) (budget : Nat) :
    Recursion.Matches (·.isFilled) True (eval policy budget) (checkedEval policy budget) := by
  induction budget with
  | zero => exact fun _ _ _ => matches_throw nofun
  | succ budget ih =>
    intro node scope code
    -- The parts of a node are checked one level down, which changes nothing either.
    have below : Recursion.Matches (·.isFilled) True (eval policy budget)
        fun node scope => Eval.checked (checkedEval policy budget node scope) :=
      fun node scope code => (ih node scope code).checked fun _ yields => yields.1
    refine (rule_matches below rfl (fun _ => id) (fun scope code => ?_) budget code scope).blaming node.span
    exact binary_matches below policy _ (code.part (by simp [Node.parts]))
      (code.part (by simp [Node.parts])) scope

/-- An evaluation that is safe: it ends in a value, an error or for want of budget, a name yields a variable,
    and no check within it fails. -/
structure Safe (policy : Policy) (budget : Nat) (node : Node) (scope : Scope) (m : Machine) : Prop where
  moving : ∀ m', eval policy budget node scope m ≠ .error .stuck m'
  named : ∀ v m', node.isName → eval policy budget node scope m = .ok v m' → ∃ slot, v = .slot slot
  checked : checkedEval policy budget node scope m = eval policy budget node scope m

theorem safe_of_complete (policy : Policy) (budget : Nat) {node : Node} (complete : node.Complete)
    (scope : Scope) {m : Machine} (carries : m.store.Carries (·.isFilled)) :
    Safe policy budget node scope m ∧
      (Eval.after (eval policy budget node scope) m).store.Carries (·.isFilled) := by
  have agrees := eval_matches_checkedEval policy budget node scope complete m carries
  rw [Eval.after]
  cases ran : eval policy budget node scope m with
  | ok v m' =>
    rw [ran] at agrees
    obtain ⟨same, carries', yields⟩ := agrees
    refine ⟨⟨by simp [ran], fun w m'' named is => ?_, by rw [same, ran]⟩, carries'⟩
    cases ran.symm.trans is
    exact yields.2 named
  | error stop m' =>
    rw [ran] at agrees
    obtain ⟨same, carries', moving⟩ := agrees
    refine ⟨⟨fun m'' is => ?_, by simp [ran], by rw [same trivial, ran]⟩, carries'⟩
    cases ran.symm.trans is
    exact moving rfl

end Evaluator

namespace Interpreter

open Evaluator

/-- The machines that a host can get to with nodes of a kind. -/
inductive ReachableBy (p : Node → Prop) : Machine → Prop
  | start (extra : List Builtin) : ReachableBy p (start extra)
  | evaluated {m : Machine} (policy : Policy) (budget : Nat) {node : Node} {scope : Scope} :
      ReachableBy p m → p node → scope ∈ m.store.scopes →
      ReachableBy p (Eval.after (eval policy budget node scope) m)
  | taken {m : Machine} : ReachableBy p m → ReachableBy p (take m).2.2

theorem ReachableBy.reachable {p : Node → Prop} {m : Machine} (reached : ReachableBy p m) :
    ∃ extra, Reachable extra m := by
  induction reached with
  | start extra => exact ⟨extra, .start⟩
  | evaluated policy budget _ _ here ih =>
    obtain ⟨extra, reachable⟩ := ih
    exact ⟨extra, .evaluated policy budget _ reachable here⟩
  | taken _ ih =>
    obtain ⟨extra, reachable⟩ := ih
    exact ⟨extra, .taken reachable⟩

theorem start_carries {p : Node → Prop} (absent : Node.absent.Throughout p) (extra : List Builtin) :
    (start extra).store.Carries p := by
  have empty : blank.store.Carries p := by
    simp [Store.Carries, blank, Store.nest, Store.grow, Store.empty]
  refine List.foldlRecOn (motive := fun m => m.store.Carries p) (builtins ++ extra) install empty
    fun m carries builtin _ => ?_
  -- Built-in functions are not evaluated from code.
  have written {s : Store} (carries : s.Carries p) (f : FunctionValue) (is : f.body = .absent) :
      (s.write (.stored m.root.table builtin.name) (.function f)).Carries p := by
    refine carries.write _ ?_
    rw [Value.Carries, FunctionValue.Carries, is]
    exact absent
  rw [install, Store.declare]
  by_cases taken : (m.store.declared m.root).has builtin.name
  · rw [if_pos taken]
    exact written carries _ rfl
  · rw [if_neg taken]
    exact written (carries.add _ _ _) _ rfl

theorem ReachableBy.carries {m : Machine} (reachable : ReachableBy Node.Complete m) :
    m.store.Carries (·.isFilled) := by
  induction reachable with
  | start extra => exact start_carries Node.complete_absent extra
  | evaluated policy budget _ complete _ ih =>
    exact (safe_of_complete policy budget complete _ ih).2
  | taken _ ih => exact ih

/-- Every source, with diagnostics or without, has a complete tree.  In every machine that a host can get to
    with complete trees, the evaluation of a complete tree is safe in every scope: it is never stuck, names yield
    variables, and what its rules take for values are plain values. -/
theorem evaluation_safe :
    (∀ source, (parseSource source).1.Complete) ∧
      (∀ {m : Machine}, ReachableBy Node.Complete m → ∀ (policy : Policy) (budget : Nat) {node : Node},
        node.Complete → ∀ scope ∈ m.store.scopes, Safe policy budget node scope m) ∧
      ∀ {rec : Recursion} {node : Node} {scope : Scope} {m m' : Machine} {v : Value},
        value (fun node scope => Eval.checked (rec node scope)) node scope m = .ok v m' →
        v.isPlain ∧ ∀ slot x, m'.store.read slot = .ok x → x.isPlain := by
  refine ⟨Parser.complete_parseSource, fun reachable policy budget node complete scope _ => ?_,
    fun yields => isPlain_of_checked yields⟩
  exact (safe_of_complete policy budget complete scope reachable.carries).1

-- A function can keep a tree that is not complete, and then a complete call of it gets stuck.
example :
    let broken : Node := .functionDeclaration .none {} "f" [] (.usage .none .absent)
    let m := Eval.after (eval {} budget broken (start []).root) (start [])
    (match eval {} budget (parseSource "f()".toUTF8.data.toList).1 m.root m with
      | .error .stuck _ => true
      | _ => false) = true := by
  decide +kernel

def brokenText : List UInt8 :=
  "class A \x7b\n var x = 1\n oops\n function f() \x7b x += \x7d\n \x7d\n".toUTF8.data.toList ++
    "var a = new A()\n1 = a\n".toUTF8.data.toList

def fieldCall : List UInt8 := "a.x = a.f\na.x()".toUTF8.data.toList

theorem evaluation_safe_brokenText :
    let m := Eval.after (eval {} budget (parseSource brokenText).1 (start []).root) (start [])
    (parseSource brokenText).2.length = 3 ∧ (globals m).names = ["print", "println", "A", "a"] ∧
      ReachableBy Node.Complete m ∧ (parseSource fieldCall).1.Complete ∧
      Safe {} budget (parseSource fieldCall).1 m.root m := by
  intro m
  have complete := evaluation_safe.1
  have reachable : ReachableBy Node.Complete m :=
    .evaluated {} budget (.start []) (complete brokenText) (start_sound []).rooted.1
  obtain ⟨_, reached⟩ := reachable.reachable
  have here : m.root ∈ m.store.scopes := reached.sound.rooted.1
  exact ⟨by decide +kernel, by decide +kernel, reachable, complete fieldCall,
    evaluation_safe.2.1 reachable {} budget (complete fieldCall) m.root here⟩

end Interpreter

end ClassScript
