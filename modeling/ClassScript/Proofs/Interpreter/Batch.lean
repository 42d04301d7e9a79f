import ClassScript.Proofs.Evaluator.Erasure
import ClassScript.Proofs.Interpreter.Reachable
import ClassScript.Proofs.Parser.Join

/-! # Batch and incremental runs

Two programs run one after the other in one machine do what their texts do when they are joined by a line
end and run as one program.  The joined text reads as the statements of both
(`parseSource_join`), those of the second with their spans moved, and evaluation does not
look at spans (`ClassScript.Evaluator.eval_erases`).
-/

namespace ClassScript

namespace Eval

variable {α β : Type}

/-- Blame is forgotten with the spans. -/
theorem erased_blaming (f : α → β) (span : Span) (x : Eval α) (m : Machine) :
    erased f (blaming span x m) = erased f (x m) := by
  rw [blaming]
  cases x m with
  | ok a m' => rfl
  | error stop m' => simp only [erased, Stop.erase_blame]

end Eval

namespace Evaluator

/-- Statements are evaluated one part after the other. -/
theorem statements_append {rec : Recursion} {scope : Scope} {result v : Value} {first : List Node}
    {m m' : Machine} (yields : statements rec scope result first m = .ok v m') (second : List Node) :
    statements rec scope result (first ++ second) m = statements rec scope v second m' := by
  induction first generalizing result m with
  | nil =>
    cases yields
    rfl
  | cons node rest ih =>
    rw [statements, Eval.bind_apply] at yields
    rw [List.cons_append, statements, Eval.bind_apply]
    cases ran : rec node scope m with
    | ok w m₁ =>
      rw [ran] at yields
      exact ih yields
    | error stop m₁ =>
      rw [ran] at yields
      cases yields

/-- What came before does not show in what statements yield, if there are any. -/
theorem statements_ne_nil {rec : Recursion} {scope : Scope} {nodes : List Node} (some : nodes ≠ [])
    (v w : Value) : statements rec scope v nodes = statements rec scope w nodes := by
  cases nodes with
  | nil => exact absurd rfl some
  | cons node rest => rfl

end Evaluator

namespace Interpreter

open Eval Evaluator

def Outcome.ofResult : EStateM.Result Stop Machine Value → Outcome × Machine
  | .ok v m => (.value v, m)
  | .error stop m => (.stopped stop, m)

theorem Outcome.ofResult_erase {r r' : EStateM.Result Stop Machine Value}
    (same : erased Value.erase r = erased Value.erase r') :
    (ofResult r).1.erase = (ofResult r').1.erase ∧ (ofResult r).2.erase = (ofResult r').2.erase := by
  cases r <;> cases r'
  case ok.ok | error.error =>
    injection same with outcome state
    exact ⟨by simp only [ofResult, erase, outcome], state⟩
  all_goals cases same

/-- Running a program is evaluating its statements. -/
theorem evaluate_tree (policy : Policy) (span : Span) (nodes : List Node) (m : Machine) :
    evaluate policy (.tree span nodes) m = Outcome.ofResult
      (blaming span (statements (eval policy (budget - 1)) m.root .null nodes) m) := by
  have depth : eval policy budget (.tree span nodes) m.root
      = blaming span (statements (eval policy (budget - 1)) m.root .null nodes) := by
    rw [show budget = (budget - 1) + 1 from rfl, eval]
    rfl
  rw [evaluate, depth]
  cases blaming span (statements (eval policy (budget - 1)) m.root .null nodes) m <;> rfl

/-- The root scope stays. -/
theorem root_evaluate (policy : Policy) (node : Node) {m : Machine} (sound : m.Sound) :
    (evaluate policy node m).2.root = m.root := by
  have leads : Leads (fun _ => True) m (eval policy budget node m.root) fun v s => v.Held s :=
    eval_leads policy budget node ⟨sound, sound.rooted.1⟩ fun _ => trivial
  rw [evaluate_snd]
  exact leads.follows.root

/-- A program that runs to its end does so statement by statement. -/
theorem statements_of_evaluate {policy : Policy} {span : Span} {nodes : List Node} {m m' : Machine}
    {v : Value} (ran : evaluate policy (.tree span nodes) m = (.value v, m')) :
    statements (eval policy (budget - 1)) m.root .null nodes m = .ok v m' := by
  rw [evaluate_tree, blaming] at ran
  cases result : statements (eval policy (budget - 1)) m.root .null nodes m with
  | ok w m'' =>
    rw [result] at ran
    cases ran
    rfl
  | error stop m'' =>
    rw [result] at ran
    cases ran

/-- Running the statements of two programs as one goes on where the first program ends. -/
theorem evaluate_append {policy : Policy} {span₁ : Span} {ns₁ ns₂ ns₂' : List Node} {m m₁ : Machine}
    {v : Value} (ran : evaluate policy (.tree span₁ ns₁) m = (.value v, m₁)) (root : m₁.root = m.root)
    (same : ns₂'.map Node.erase = ns₂.map Node.erase) (span span₂ : Span) :
    let batch := evaluate policy (.tree span (ns₁ ++ ns₂')) m
    let stepwise := evaluate policy (.tree span₂ ns₂) m₁
    batch.2.erase = stepwise.2.erase ∧ (ns₂ ≠ [] → batch.1.erase = stepwise.1.erase) := by
  have joined := statements_append (statements_of_evaluate ran) ns₂'
  dsimp only
  rw [evaluate_tree, evaluate_tree, root]
  by_cases empty : ns₂ = []
  · -- Nothing follows: both machines are the one that the first program left.
    subst empty
    obtain rfl := List.map_eq_nil_iff.1 same
    rw [blaming, joined]
    exact ⟨rfl, fun some => absurd rfl some⟩
  · have empty' : ns₂' ≠ [] := fun none => empty (by simpa [none] using same.symm)
    have agree : erased Value.erase (blaming span
          (statements (eval policy (budget - 1)) m.root .null (ns₁ ++ ns₂')) m)
        = erased Value.erase (blaming span₂
          (statements (eval policy (budget - 1)) m.root .null ns₂) m₁) := by
      rw [erased_blaming, erased_blaming, joined, statements_ne_nil empty' v .null,
        ← statements_erases (eval_erases policy (budget - 1)) m.root .null ns₂' m₁,
        ← statements_erases (eval_erases policy (budget - 1)) m.root .null ns₂ m₁, same]
    obtain ⟨outcome, state⟩ := Outcome.ofResult_erase agree
    exact ⟨state, fun _ => outcome⟩

/-- The text of two programs reads as the one program after the other, and running it does what running
    them one by one does, provided that the first one runs to its end.  Where the second program has a
    statement the outcomes are the same too, be it a value or an error. -/
theorem evaluate_join {s₁ s₂ : List UInt8} (clean₁ : (parseSource s₁).2 = [])
    (clean₂ : (parseSource s₂).2 = []) :
    ∃ span₁ span₂ span ns₁ ns₂,
      parseSource s₁ = (.tree span₁ ns₁, []) ∧ parseSource s₂ = (.tree span₂ ns₂, []) ∧
      parseSource (s₁ ++ Piece.lineEnd :: s₂) = (.tree span (ns₁ ++
        ns₂.map (·.shift (s₁.length + 1) (1 + s₁.count Piece.lineEnd))), []) ∧
      ∀ (policy : Policy) (extra : List Builtin) (v : Value) (m : Machine),
        evaluate policy (parseSource s₁).1 (start extra) = (.value v, m) →
        let batch := evaluate policy (parseSource (s₁ ++ Piece.lineEnd :: s₂)).1 (start extra)
        let stepwise := evaluate policy (parseSource s₂).1 m
        batch.2.output = stepwise.2.output ∧
          (globals batch.2).erase = (globals stepwise.2).erase ∧
          batch.2.erase = stepwise.2.erase ∧
          (ns₂ ≠ [] → batch.1.erase = stepwise.1.erase) := by
  obtain ⟨span₁, span₂, span, ns₁, ns₂, parse₁, parse₂, joined⟩ := parseSource_join clean₁ clean₂
  refine ⟨span₁, span₂, span, ns₁, ns₂, parse₁, parse₂, joined, fun policy extra v m ran => ?_⟩
  rw [parse₁] at ran
  rw [parse₂, joined]
  have root : m.root = (start extra).root := by
    rw [← root_evaluate policy (.tree span₁ ns₁) (start_sound extra), ran]
  have same : (ns₂.map (·.shift (s₁.length + 1) (1 + s₁.count Piece.lineEnd))).map Node.erase
      = ns₂.map Node.erase := by
    simp
  obtain ⟨state, outcome⟩ := evaluate_append ran root same span span₂
  -- Both can be told from the erased machine.
  have output_erase (m : Machine) : m.output = m.erase.output := rfl
  have globals_erase (m : Machine) : (globals m).erase = globals m.erase :=
    (m.store.declared_erase m.root).symm
  refine ⟨?_, ?_, state, outcome⟩
  · rw [output_erase, state, ← output_erase]
  · rw [globals_erase, globals_erase, state]

def branchText : List UInt8 := "var x = 1\nif (x == 1) \x7b print(x) \x7d".toUTF8.data.toList

def stepText : List UInt8 := "\nx += 1\nprint(x)".toUTF8.data.toList

theorem evaluate_join_branchText :
    (parseSource branchText).2 = [] ∧ (parseSource stepText).2 = [] ∧
      ∃ v m, evaluate {} (parseSource branchText).1 (start []) = (.value v, m) ∧
        (evaluate {} (parseSource (branchText ++ Piece.lineEnd :: stepText)).1 (start [])).2.output
          = (evaluate {} (parseSource stepText).1 m).2.output := by
  have clean₁ : (parseSource branchText).2 = [] := by decide +kernel
  have clean₂ : (parseSource stepText).2 = [] := by decide +kernel
  have ends : (evaluate {} (parseSource branchText).1 (start [])).1.casesOn
      (motive := fun _ => Bool) (fun _ => true) (fun _ => false) = true := by decide +kernel
  obtain ⟨_, _, _, _, _, _, _, _, runs⟩ := evaluate_join clean₁ clean₂
  cases outcome : evaluate {} (parseSource branchText).1 (start []) with
  | mk result m =>
    cases result with
    | value v => exact ⟨clean₁, clean₂, v, m, rfl, (runs {} [] v m outcome).1⟩
    | stopped stop =>
      rw [outcome] at ends
      cases ends

end Interpreter

end ClassScript
