import ClassScript.Proofs.Evaluator.Calls
import ClassScript.Proofs.Evaluator.Frame

/-! # Larger budgets

Running out of the budget is an outcome of its own, and a larger budget never changes any other outcome
(`eval_below`).  A rule only asks for the evaluation of other nodes (`rule_asking`): if none of the answers
changes then neither does the outcome, and an answer that the budget ran out would be the outcome.  The
rounds of a loop are bounded by the budget as well, and where a loop ends more rounds make no difference.

`Ends x m r` says that the evaluation ends with `r` under every budget that is large enough.
-/

namespace ClassScript

open EStateM (Result)

def Machine.Plain (m : Machine) : Prop := m.store.Carries fun _ => True

theorem Machine.Sound.plain {m : Machine} (sound : m.Sound) : m.Plain := by
  have anyCode (v : Value) : v.Carries fun _ => True := by
    have anywhere (n : Node) : n.Throughout fun _ => True := fun _ _ => trivial
    have code (c : ClassValue) : c.Carries fun _ => True :=
      ⟨fun f _ => anywhere f.body, fun n _ => anywhere n⟩
    cases v with
    | function f => exact anywhere f.body
    | blueprint c => exact code c
    | object o => exact code o.blueprint
    | slot found =>
      cases found with
      | stored => trivial
      | method f => exact anywhere f.body
    | _ => trivial
  exact fun t there v here x found => ⟨(sound.kept t there v here x found).1, anyCode x⟩

namespace Eval

variable {α β : Type}

def Settled (r : Result Stop Machine α) : Prop := ∀ m, r ≠ .error .exhausted m

theorem settled_ok (a : α) (m : Machine) : Settled (.ok a m : Result Stop Machine α) := by
  rintro _ ⟨⟩

theorem settled_blaming {span : Span} {x : Eval α} {m : Machine} :
    Settled (blaming span x m) ↔ Settled (x m) := by
  rw [blaming]
  cases x m with
  | ok a m' => exact Iff.rfl
  | error stop m' =>
    cases stop with
    | failure f =>
      constructor
      · rintro _ _ ⟨⟩
      · rintro _ _ ⟨⟩
    | host | stuck | exhausted => exact Iff.rfl

/-- Where the first evaluation settles, the second one does the same; and the first one keeps variables from
    holding variables. -/
def Below (x y : Eval α) : Prop :=
  ∀ m : Machine, m.Plain → Leaves (fun _ => True) (fun _ => True) (x m) ∧ (Settled (x m) → y m = x m)

theorem below_throw (y : Eval α) : Below (throw .exhausted) y :=
  fun m plain => ⟨plain, fun settled => absurd rfl (settled m)⟩

theorem below_pure (a : α) : Below (pure a) (pure a) := fun _ plain => ⟨⟨plain, trivial⟩, fun _ => rfl⟩

theorem below_nested (scope : Scope) : Below (nested scope) (nested scope) :=
  fun _ plain => ⟨⟨Store.Carries.grow plain _, trivial⟩, fun _ => rfl⟩

theorem below_query (q : Store → Except Fault α) : Below (query q) (query q) := by
  refine fun m plain => ⟨?_, fun _ => rfl⟩
  rw [query]
  cases q m.store with
  | ok a => exact ⟨plain, trivial⟩
  | error fault => exact plain

theorem Below.trans {x y z : Eval α} (first : Below x y) (second : Below y z) : Below x z := by
  intro m plain
  obtain ⟨leaves, same⟩ := first m plain
  refine ⟨leaves, fun settled => ?_⟩
  have middle := same settled
  rw [(second m plain).2 (middle ▸ settled), middle]

theorem Below.bind {x y : Eval α} {k l : α → Eval β} (first : Below x y)
    (rest : ∀ a, Below (k a) (l a)) : Below (x >>= k) (y >>= l) := by
  intro m plain
  obtain ⟨leaves, same⟩ := first m plain
  rw [bind_apply, bind_apply]
  cases ran : x m with
  | ok a m' =>
    rw [ran] at leaves same
    rw [same (settled_ok a m')]
    exact rest a m' leaves.1
  | error stop m' =>
    rw [ran] at leaves same
    refine ⟨leaves, fun settled => ?_⟩
    have passed : Settled (.error stop m' : Result Stop Machine α) := by
      rintro _ ⟨⟩
      exact settled m' rfl
    rw [same passed]

theorem Below.blaming {x y : Eval α} (inner : Below x y) (span : Span) :
    Below (blaming span x) (blaming span y) := by
  intro m plain
  obtain ⟨leaves, same⟩ := inner m plain
  refine ⟨?_, fun settled => ?_⟩
  · rw [Eval.blaming]
    cases ran : x m with
    | ok a m' => rwa [ran] at leaves
    | error stop m' => rwa [ran] at leaves
  · rw [settled_blaming] at settled
    rw [Eval.blaming, Eval.blaming, same settled]

theorem Below.rounds {round round' : Eval Bool} (one : Below round round') {budget budget' : Nat}
    (more : budget ≤ budget') : Below (rounds budget round) (rounds budget' round') := by
  induction budget generalizing budget' with
  | zero => exact below_throw _
  | succ budget ih =>
    obtain ⟨budget', rfl⟩ : ∃ less, budget' = less + 1 := ⟨budget' - 1, by omega⟩
    refine one.bind fun again => ?_
    cases again with
    | true => exact ih (by omega)
    | false => exact below_pure ()

end Eval

namespace Evaluator

open Eval

theorem Asks.settles {α : Type} {p : Node → Prop} {E : Stop → Prop} {Q : α → Prop}
    {r : Recursion → Result Stop Machine α} (asks : Asks p E Q r) {rec rec' : Recursion}
    (keeps : rec.Keeps p)
    (below : ∀ n scope m, m.store.Carries p → Settled (rec n scope m) → rec' n scope m = rec n scope m)
    (settled : Settled (r rec)) : r rec' = r rec := by
  induction asks with
  | ok | error => rfl
  | @ask n scope m k code carries _ ih =>
    have kept := keeps n scope m code carries
    have same := below n scope m carries
    dsimp only at settled ⊢
    cases ran : rec n scope m with
    | ok v m' =>
      rw [ran] at kept same settled
      rw [same (settled_ok v m')]
      exact ih v m' kept.2 kept.1 settled
    | error stop m' =>
      rw [ran] at same settled
      -- The rule passes the error on, so if it settled then so did the call.
      have passed : Settled (.error stop m' : Result Stop Machine Value) := by
        rintro _ ⟨⟩
        exact settled m' rfl
      rw [same passed]
      rfl

/-! ## Rules -/

section Rules

variable {rec rec' : Recursion} (below : ∀ node scope, Below (rec node scope) (rec' node scope))

include below

theorem condition_below (node : Node) (scope : Scope) :
    Below (condition rec node scope) (condition rec' node scope) := by
  rw [condition, condition]
  split
  · exact below_pure true
  · have plain : Below (value rec node scope) (value rec' node scope) :=
      (below node scope).bind fun v => (below_query _).blaming node.span
    exact plain.bind fun v => (below_query fun _ => truth v).blaming node.span

theorem block_below (body : Node) (scope : Scope) :
    Below (block rec body scope) (block rec' body scope) :=
  (below_nested scope).bind fun inner => (below body inner).bind fun _ => below_pure ()

theorem rule_below (keeps : rec.Keeps fun _ => True) (policy : Policy) {budget budget' : Nat}
    (more : budget ≤ budget') (node : Node) (scope : Scope) :
    Below (rule policy rec budget node scope) (rule policy rec' budget' node scope) := by
  -- Only loops look at the budget.
  have asked (n : Node) : Below (rule policy rec budget n scope) (rule policy rec' budget n scope) := by
    intro m plain
    have asks := (rule_asking policy budget (fun _ _ => trivial : n.Throughout fun _ => True) scope m
      plain).mono (fun _ => id) fun _ _ => trivial
    exact ⟨asks.leaves keeps, asks.settles keeps fun n scope m plain => (below n scope m plain).2⟩
  cases node with
  | whileLoop span test body =>
    refine (Below.rounds ?_ more).bind fun _ => below_pure _
    refine (condition_below below test scope).bind fun holds => ?_
    cases holds with
    | true => exact (block_below below body scope).bind fun _ => below_pure true
    | false => exact below_pure false
  | doWhileLoop span test body =>
    refine (Below.rounds ?_ more).bind fun _ => below_pure _
    exact (block_below below body scope).bind fun _ => condition_below below test scope
  | forLoop span declaration test round body =>
    refine (below_nested scope).bind fun loop => (below declaration loop).bind fun _ => ?_
    refine (Below.rounds ?_ more).bind fun _ => below_pure _
    refine (condition_below below test loop).bind fun holds => ?_
    cases holds with
    | true =>
      exact (block_below below body loop).bind fun _ => (below round loop).bind fun _ => below_pure true
    | false => exact below_pure false
  | _ => exact asked _

end Rules

/-- A larger budget changes no outcome but that the budget ran out. -/
theorem eval_below (policy : Policy) {budget budget' : Nat} (more : budget ≤ budget') (node : Node)
    (scope : Scope) : Below (eval policy budget node scope) (eval policy budget' node scope) := by
  induction budget generalizing budget' node scope with
  | zero => exact below_throw _
  | succ budget ih =>
    obtain ⟨budget', rfl⟩ : ∃ less, budget' = less + 1 := ⟨budget' - 1, by omega⟩
    have within : budget ≤ budget' := by omega
    exact (rule_below (ih within) (eval_keeps policy budget) policy within node scope).blaming
      node.span

end Evaluator

/-! ## Outcomes under large budgets -/

namespace Eval

variable {α : Type} {x y : Nat → Eval α} {m : Machine} {r : Result Stop Machine α}

/-- Under every budget that is large enough, the evaluation settles with the outcome. -/
def Ends (x : Nat → Eval α) (m : Machine) (r : Result Stop Machine α) : Prop :=
  Settled r ∧ ∃ least, ∀ budget, least ≤ budget → x budget m = r

/-- The outcome under one budget is that under all larger ones, if it is settled. -/
theorem ends_of_settled (rising : ∀ budget budget', budget ≤ budget' → Below (x budget) (x budget'))
    (plain : m.Plain) {budget : Nat} (settled : Settled (x budget m)) : Ends x m (x budget m) :=
  ⟨settled, budget, fun budget' more => (rising budget budget' more m plain).2 settled⟩

/-- What settles under some budget settles alike in whatever is above it under another one. -/
theorem Ends.raise (ends : Ends x m r) (plain : m.Plain)
    (rising : ∀ budget budget', budget ≤ budget' → Below (y budget) (y budget'))
    (above : ∀ budget, ∃ budget', Below (x budget) (y budget')) : Ends y m r := by
  obtain ⟨settled, least, reached⟩ := ends
  obtain ⟨budget, higher⟩ := above least
  have same := (higher m plain).2 (by rwa [reached least (Nat.le_refl _)])
  rw [reached least (Nat.le_refl _)] at same
  rw [← same] at settled ⊢
  exact ends_of_settled rising plain settled

/-- Under large budgets an evaluation has one outcome. -/
theorem Ends.unique {r' : Result Stop Machine α} (ends : Ends x m r) (ends' : Ends x m r') : r = r' := by
  obtain ⟨_, least, reached⟩ := ends
  obtain ⟨_, least', reached'⟩ := ends'
  rw [← reached _ (Nat.le_max_left least least'), reached' _ (Nat.le_max_right least least')]

end Eval

theorem Evaluator.ends_of_eval {policy : Policy} {budget : Nat} {node : Node} {scope : Scope} {m : Machine}
    (sound : m.Sound) (settled : Eval.Settled (eval policy budget node scope m)) :
    Eval.Ends (eval policy · node scope) m (eval policy budget node scope m) :=
  Eval.ends_of_settled (fun _ _ more => eval_below policy more node scope) sound.plain settled

end ClassScript
