import ClassScript.Proofs.Evaluator.Budget
import ClassScript.Proofs.Evaluator.Thinning

/-! # Loops in terms of other loops

A loop that tests last ends as its body and then the loop that tests first do (`doWhile_ends_iff`): the two differ
only in how many rounds they need.

A counting loop can be spelled out as a branch that declares its variable and loops, with the body of each round in a
branch of its own (`Node.spelledOut`).  That makes one more scope in each round, which has no variables.  So the two
go through the same outcomes, and the machine that the counting loop leaves is what is left of the other one without
these scopes (`exists_spelledOut_of_forLoop`, `exists_forLoop_of_spelledOut`).
-/

namespace ClassScript

open EStateM (Result)

/-! ## Blame -/

theorem Stop.blame_blame {own span : Span} (placed : own.isNone = false ∨ own = span) (stop : Stop) :
    (stop.blame own).blame span = stop.blame own := by
  cases stop with
  | failure f =>
    have same : (f.blame own).blame span = f.blame own := by
      rcases placed with placed | rfl
      · by_cases unplaced : f.span.isNone = true <;> simp [Failure.blame, unplaced, placed]
      · by_cases unplaced : f.span.isNone = true <;> simp [Failure.blame, unplaced]
    exact congrArg failure same
  | _ => rfl

namespace Eval

variable {α β : Type} {own span : Span}

theorem blaming_blaming (placed : own.isNone = false ∨ own = span) (x : Eval α) :
    blaming span (blaming own x) = blaming own x := by
  funext m
  simp only [blaming]
  cases x m with
  | ok a m' => rfl
  | error stop m' => simp only [Stop.blame_blame placed]

theorem blaming_bind_eq_self {x : Eval α} {k : α → Eval β} (first : blaming span x = x)
    (rest : ∀ a, blaming span (k a) = k a) : blaming span (x >>= k) = x >>= k := by
  funext m
  have same := congrFun first m
  simp only [blaming] at same
  simp only [blaming, bind_apply]
  cases ran : x m with
  | ok a n => exact congrFun (rest a) n
  | error stop n =>
    rw [ran] at same
    injection same with stops
    simp only [stops]

/-- Evaluations may be replaced by others that only leave more or less to blame on the span. -/
theorem blaming_bind {x y : Eval α} {k l : α → Eval β} (first : blaming span x = blaming span y)
    (rest : ∀ a, blaming span (k a) = blaming span (l a)) :
    blaming span (x >>= k) = blaming span (y >>= l) := by
  funext m
  have same := congrFun first m
  simp only [blaming] at same
  simp only [blaming, bind_apply]
  -- Blaming gives errors a place and does nothing else, so the two yield alike or stop alike.
  cases ran : x m with
  | ok a n =>
    rw [ran] at same
    cases ran' : y m with
    | ok b n' =>
      rw [ran'] at same
      cases same
      have next := congrFun (rest a) n
      simpa only [blaming] using next
    | error stop n' =>
      rw [ran'] at same
      cases same
  | error stop n =>
    rw [ran] at same
    cases ran' : y m with
    | ok b n' =>
      rw [ran'] at same
      cases same
    | error stop' n' =>
      rw [ran'] at same
      injection same with stops machines
      simp only [stops, machines]

theorem blaming_rounds {round round' : Eval Bool} (one : blaming span round = blaming span round')
    (budget : Nat) : blaming span (rounds budget round) = blaming span (rounds budget round') := by
  induction budget with
  | zero => rfl
  | succ budget ih =>
    refine blaming_bind one fun more => ?_
    cases more with
    | true => exact ih
    | false => rfl

end Eval

/-! ## Loops that test last -/

namespace Eval

variable {body : Eval Unit} {test : Eval Bool} (bodyRises : Below body body) (testRises : Below test test)

include bodyRises testRises

theorem testLast_below (budget : Nat) :
    Below (rounds budget do body; test)
      (do body; rounds budget do if ← test then body; return true else return false) := by
  induction budget with
  | zero => exact below_throw _
  | succ budget ih =>
    simp only [rounds, bind_assoc]
    refine bodyRises.bind fun _ => testRises.bind fun holds => ?_
    cases holds with
    | true => simpa using ih
    | false => exact below_pure ()

-- The body before the loop costs no round there, so it takes one more round here.
theorem below_testLast (budget : Nat) :
    Below (do body; rounds budget do if ← test then body; return true else return false)
      (rounds (budget + 1) do body; test) := by
  induction budget with
  | zero =>
    simp only [rounds, bind_assoc]
    exact bodyRises.bind fun _ => below_throw _
  | succ budget ih =>
    rw [rounds, rounds]
    simp only [bind_assoc]
    refine bodyRises.bind fun _ => testRises.bind fun holds => ?_
    cases holds with
    | true => simpa using ih
    | false => exact below_pure ()

end Eval

namespace Evaluator

open Eval

section TestLast

variable {policy : Policy} {span : Span} {test body : Node} {scope : Scope} {m : Machine}

def bodyThenWhile (policy : Policy) (span : Span) (test body : Node) (scope : Scope) (budget : Nat) :
    Eval Value := do
  block (eval policy budget) body scope
  eval policy budget (.whileLoop span test body) scope

theorem bodyThenWhile_below {budget budget' : Nat} (more : budget ≤ budget') :
    Below (bodyThenWhile policy span test body scope budget)
      (bodyThenWhile policy span test body scope budget') :=
  (block_below (eval_below policy more) body scope).bind fun _ => eval_below policy more _ scope

theorem blaming_eval {node : Node} (placed : node.span.isNone = false ∨ node.span = span) (budget : Nat) :
    blaming span (eval policy budget node scope) = eval policy budget node scope := by
  cases budget with
  | zero => rfl
  | succ budget => exact blaming_blaming placed _

/-- If the body has a place then nothing is left to blame on the loop. -/
theorem blaming_bodyThenWhile (placed : body.span.isNone = false) (budget : Nat) :
    blaming span (bodyThenWhile policy span test body scope budget)
      = bodyThenWhile policy span test body scope budget := by
  refine blaming_bind_eq_self (blaming_bind_eq_self rfl fun inner => ?_) fun _ =>
    blaming_eval (.inr rfl) budget
  exact blaming_bind_eq_self (blaming_eval (.inl placed) budget) fun _ => rfl

theorem blaming_first_while (first : Eval Unit) (budget : Nat) :
    blaming span (do first; eval policy (budget + 1) (.whileLoop span test body) scope) =
      blaming span (do
        (do
          first
          rounds budget do
            if ← condition (eval policy budget) test scope then
              block (eval policy budget) body scope
              return true
            else return false)
        return .null) := by
  rw [bind_assoc]
  exact blaming_bind rfl fun _ => blaming_blaming (.inr rfl) _

theorem doWhile_ends_iff (plain : m.Plain) (r : Result Stop Machine Value) :
    Ends (eval policy · (.doWhileLoop span test body) scope) m r ↔
      Ends (fun budget => blaming span (bodyThenWhile policy span test body scope budget)) m r := by
  have bodyRises {budget budget' : Nat} (more : budget ≤ budget') :=
    block_below (eval_below policy more) body scope
  have testRises {budget budget' : Nat} (more : budget ≤ budget') :=
    condition_below (eval_below policy more) test scope
  constructor
  · intro ends
    refine ends.raise plain (fun _ _ more => (bodyThenWhile_below more).blaming span) fun budget => ?_
    cases budget with
    | zero => exact ⟨0, below_throw _⟩
    | succ budget =>
      refine ⟨budget + 1, Below.trans (y := blaming span (do
        block (eval policy budget) body scope
        eval policy (budget + 1) (.whileLoop span test body) scope)) ?_ ?_⟩
      · rw [blaming_first_while]
        refine Below.blaming (Below.bind ?_ fun _ => below_pure _) span
        exact testLast_below (bodyRises (Nat.le_refl _)) (testRises (Nat.le_refl _)) budget
      · refine Below.blaming ((bodyRises (Nat.le_succ _)).bind fun _ => ?_) span
        exact eval_below policy (Nat.le_refl _) _ scope
  · intro ends
    refine ends.raise plain (fun _ _ more => eval_below policy more _ scope) fun budget => ?_
    -- Both parts get a larger budget first, such that the first body and the rounds are evaluated with the same one.
    -- The loop that tests last then needs one round more, and one step of the budget for itself.
    refine ⟨budget + 3, Below.trans (y := blaming span (do
      block (eval policy (budget + 1)) body scope
      eval policy (budget + 2) (.whileLoop span test body) scope)) ?_ ?_⟩
    · refine Below.blaming ((bodyRises (Nat.le_succ _)).bind fun _ => ?_) span
      exact eval_below policy (Nat.le_add_right _ _) _ scope
    · rw [blaming_first_while]
      refine Below.blaming (Below.bind ?_ fun _ => below_pure _) span
      refine (below_testLast (bodyRises (Nat.le_refl _)) (testRises (Nat.le_refl _)) _).trans ?_
      refine Below.rounds ?_ (Nat.le_refl _)
      exact (bodyRises (Nat.le_succ _)).bind fun _ => testRises (Nat.le_succ _)

end TestLast

end Evaluator

/-! ## Outcomes with related machines -/

namespace Eval

variable {α β γ : Type} {related wider : Machine → Machine → Prop} {m m' : Machine}

/-- The outcomes yield the same or stop for the same reason, and leave machines that are related. -/
inductive Alike (related : Machine → Machine → Prop) :
    Result Stop Machine α → Result Stop Machine α → Prop
  | ok (a : α) {n n' : Machine} : related n n' → Alike related (.ok a n) (.ok a n')
  | error (stop : Stop) {n n' : Machine} : related n n' → Alike related (.error stop n) (.error stop n')

theorem Alike.mono {r r' : Result Stop Machine α} (alike : Alike related r r')
    (weaker : ∀ n n', related n n' → wider n n') : Alike wider r r' := by
  cases alike with
  | ok a left => exact .ok a (weaker _ _ left)
  | error stop left => exact .error stop (weaker _ _ left)

theorem Alike.settled {r r' : Result Stop Machine α} (alike : Alike related r r') :
    Settled r ↔ Settled r' := by
  cases alike with
  | ok a => exact iff_of_true (settled_ok a _) (settled_ok a _)
  | @error stop n n' =>
    constructor
    · rintro settled _ ⟨⟩
      exact settled n rfl
    · rintro settled _ ⟨⟩
      exact settled n' rfl

theorem Alike.blaming {x x' : Eval α} (alike : Alike related (x m) (x' m')) (span : Span) :
    Alike related (blaming span x m) (blaming span x' m') := by
  simp only [Eval.blaming]
  generalize x m = r at alike ⊢
  generalize x' m' = r' at alike ⊢
  cases alike with
  | ok a left => exact .ok a left
  | error stop left => exact .error _ left

theorem Alike.bind {x x' : Eval α} {k k' : α → Eval β} (first : Alike related (x m) (x' m'))
    (rest : ∀ a n n', related n n' → Alike related (k a n) (k' a n')) :
    Alike related ((x >>= k) m) ((x' >>= k') m') := by
  rw [bind_apply, bind_apply]
  generalize x m = r at first ⊢
  generalize x' m' = r' at first ⊢
  cases first with
  | ok a left => exact rest a _ _ left
  | error stop left => exact .error stop left

theorem alike_rounds {round round' : Eval Bool}
    (one : ∀ n n', related n n' → Alike related (round n) (round' n')) (budget : Nat)
    (start : related m m') : Alike related (rounds budget round m) (rounds budget round' m') := by
  induction budget generalizing m m' with
  | zero => exact .error .exhausted start
  | succ budget ih =>
    refine (one m m' start).bind fun more n n' left => ?_
    cases more with
    | true => exact ih left
    | false => exact .ok () left

theorem Thins.alike_bind {gone : List TableId} {x : Eval α} {x' : Eval β} {f : α → β}
    {Q : α → Store → Prop} {k : α → Eval γ} {k' : β → Eval γ} (first : Thins gone m m' x x' f Q)
    (stops : ∀ n n', m.Passes gone n n' → related n n')
    (rest : ∀ a n n', m.Passes gone n n' → Alike related (k a n) (k' (f a) n')) :
    Alike related ((x >>= k) m) ((x' >>= k') m') := by
  rw [Thins] at first
  rw [bind_apply, bind_apply]
  cases ran : x m with
  | ok a n =>
    rw [ran] at first
    obtain ⟨n', ran', passes, _⟩ := first
    rw [ran']
    exact rest a n n' passes
  | error stop n =>
    rw [ran] at first
    obtain ⟨n', ran', passes⟩ := first
    rw [ran']
    exact .error stop (stops n n' passes)

end Eval

/-! ## Counting loops -/

/-- A new scope within a scope that is gone as soon as it is made: what is left of its frames are those of the
    scope. -/
theorem Machine.Meets.interpose {gone : List TableId} {scope scope' : Scope} {m m' : Machine}
    (meets : Meets gone scope scope' m m') :
    let inner := m.store.inner (some scope)
    let grown := m.mapStore (Store.grow inner)
    Meets (m.store.tables.size :: gone) scope scope' grown m' ∧
      Meets (m.store.tables.size :: gone) inner scope' grown m' := by
  intro inner grown
  have thins := meets.thins
  have sound := thins.store.sound
  obtain ⟨_, kept, there, _⟩ := sound.grow meets.here
  have later : grown.Thins (m.store.tables.size :: gone) m' := by
    refine ⟨thins.store.interpose meets.here, ?_, thins.stamps, thins.output, thins.written, thins.events⟩
    exact thins.root.trans (Scope.thin_cons sound sound.rooted.1).symm
  have frames : scope'.frames = thinFrames (m.store.tables.size :: gone) scope.frames := by
    rw [meets.frames, thinFrames_cons (sound.frame_eq meets.here)]
  refine ⟨⟨later, kept.mem meets.here, frames⟩, later, there, ?_⟩
  have own : inner.frames = ⟨m.store.scopes.size, m.store.tables.size⟩ :: scope.frames := rfl
  simp [frames, own, thinFrames]

namespace Evaluator

open Machine Eval

def spread (budget : Nat) (scope : Scope) (first : Scope → Eval Value) (test : Scope → Eval Bool)
    (body : Scope → Eval Unit) (step : Scope → Eval Value) : Eval Value := do
  let loop ← Eval.nested scope
  let _ ← first loop
  Eval.rounds budget do
    if ← test loop then
      let outer ← Eval.nested loop
      body outer
      let _ ← step outer
      return true
    return false
  return .null

theorem spread_below {budget budget' : Nat} (more : budget ≤ budget') (scope : Scope)
    {first first' : Scope → Eval Value} {test test' : Scope → Eval Bool} {body body' : Scope → Eval Unit}
    {step step' : Scope → Eval Value} (firstRises : ∀ s, Below (first s) (first' s))
    (testRises : ∀ s, Below (test s) (test' s)) (bodyRises : ∀ s, Below (body s) (body' s))
    (stepRises : ∀ s, Below (step s) (step' s)) :
    Below (spread budget scope first test body step) (spread budget' scope first' test' body' step') := by
  refine (below_nested scope).bind fun loop => (firstRises loop).bind fun _ => ?_
  refine (Below.rounds ?_ more).bind fun _ => below_pure _
  refine (testRises loop).bind fun holds => ?_
  cases holds with
  | true =>
    refine (below_nested loop).bind fun outer => (bodyRises outer).bind fun _ => ?_
    exact (stepRises outer).bind fun _ => below_pure true
  | false => exact below_pure false

section Alike

variable {policy : Policy} {budget : Nat} {declaration test round body : Node}
  {scope loop : Scope} {m m' : Machine}

/-- The invariant of the rounds: the second machine lacks some scopes that are newer than the loop. -/
def Astray (loop : Scope) (m m' : Machine) : Prop :=
  ∃ gone, Meets gone loop loop m m' ∧ ∀ id ∈ gone, loop.table < id

theorem forRound_alike (quiet : round.Quiet) (stray : Astray loop m m') :
    Alike (Astray loop)
      ((do
        if ← condition (eval policy budget) test loop then
          let outer ← Eval.nested loop
          block (eval policy budget) body outer
          let _ ← eval policy budget round outer
          return true
        return false : Eval Bool) m)
      ((do
        if ← condition (eval policy budget) test loop then
          block (eval policy budget) body loop
          let _ ← eval policy budget round loop
          return true
        return false : Eval Bool) m') := by
  obtain ⟨gone, meets, late⟩ := stray
  have kept : loop.table ∉ gone := fun lost => Nat.lt_irrefl _ (late _ lost)
  refine (condition_thins (eval_thins gone policy budget) meets test fun _ => kept).alike_bind
    (fun n n' passes => ⟨gone, passes.meets meets, late⟩) fun holds n n' passes => ?_
  have meets := passes.meets meets
  cases holds with
  | false => exact .ok false ⟨gone, meets, late⟩
  | true =>
    -- From here on the scope that the first round makes is gone as well.  The body makes a scope within it, and
    -- the step is evaluated in it, which a step that is quiet does not see.
    obtain ⟨around, inside⟩ := meets.interpose
    have below := eval_thins (n.store.tables.size :: gone) policy budget
    have before : loop.table < n.store.tables.size := meets.thins.store.sound.table_lt meets.here
    have astray (l l' : Machine) (passes : Passes (n.store.tables.size :: gone) _ l l') :
        Astray loop l l' :=
      ⟨_, passes.meets around, List.forall_mem_cons.2 ⟨before, late⟩⟩
    refine (block_thins below inside body).alike_bind astray fun _ l l' first => ?_
    refine (below round (first.meets inside) fun moves => absurd quiet moves).alike_bind
      (fun k k' second => astray k k' (first.trans second)) fun _ k k' second => ?_
    exact .ok true (astray k k' (first.trans second))

/-- Two machines that evaluations leave, of which the second one lacks some scopes that were not in the machine
    before and have no variables. -/
def Lacks (before m m' : Machine) : Prop :=
  ∃ gone, m.Thins gone m' ∧ ∀ id ∈ gone, before.store.tables.size ≤ id

theorem forLoop_alike (quiet : round.Quiet) (thins : m.Thins [] m)
    (here : scope ∈ m.store.scopes) :
    Alike (Lacks m)
      (spread budget scope (eval policy budget declaration) (condition (eval policy budget) test)
        (block (eval policy budget) body) (eval policy budget round) m)
      (forLoop (eval policy budget) budget declaration test round body scope m) := by
  obtain ⟨_, _, there, _, fresh⟩ := thins.store.sound.grow here
  have meets : Meets [] (m.store.inner (some scope)) (m.store.inner (some scope))
      (m.mapStore (Store.grow (m.store.inner (some scope))))
      (m.mapStore (Store.grow (m.store.inner (some scope)))) := by
    have grown := thins.mapStore (thins.store.grow here)
    rw [Scope.thin_nil] at grown
    exact ⟨grown, there, (thinFrames_nil _).symm⟩
  -- Up to the rounds both evaluations are the same, from a scope that neither lacks.
  have looped : Alike (Astray (m.store.inner (some scope)))
      (spread budget scope (eval policy budget declaration) (condition (eval policy budget) test)
        (block (eval policy budget) body) (eval policy budget round) m)
      (forLoop (eval policy budget) budget declaration test round body scope m) := by
    have astray (n n' : Machine) (passes : Passes [] _ n n') :
        Astray (m.store.inner (some scope)) n n' :=
      ⟨[], passes.meets meets, List.forall_mem_nil _⟩
    refine (eval_thins [] policy budget declaration meets fun _ => List.not_mem_nil).alike_bind astray
      fun _ n n' passes => ?_
    refine (alike_rounds (fun _ _ => forRound_alike quiet) budget (astray n n' passes)).bind ?_
    exact fun _ _ _ stray => .ok Value.null stray
  refine looped.mono fun n n' stray => ?_
  obtain ⟨gone, meets, late⟩ := stray
  exact ⟨gone, meets.thins, fun id lost => fresh ▸ Nat.le_of_lt (late id lost)⟩

end Alike

end Evaluator

/-! ## Counting loops spelled out -/

/-- A counting loop in terms of a branch and a loop that tests first.  All nodes are where the loop is. -/
def Node.spelledOut : Node → Node
  | .forLoop span declaration test round body =>
    .branch span (.boolean span true)
      (.tree span
        [declaration,
          .whileLoop span test (.tree span [.branch span (.boolean span true) body .absent, round])])
      .absent
  | n => n

namespace Evaluator

open Eval

variable {policy : Policy} {span : Span} {declaration test round body : Node} {scope : Scope} {m : Machine}

theorem condition_true (budget : Nat) :
    condition (eval policy (budget + 1)) (.boolean span true) scope = pure true := rfl

theorem branch_true (budget : Nat) :
    branch (eval policy (budget + 1)) (.boolean span true) body .absent scope =
      (do eval policy (budget + 1) body (← Eval.nested scope)) := by
  rw [branch]
  simp only [condition_true, pure_bind, if_true]

theorem blaming_round (budget : Nat) (outer : Scope) :
    blaming span (eval policy (budget + 3)
        (.tree span [.branch span (.boolean span true) body .absent, round]) outer) =
      blaming span (do
        let _ ← eval policy (budget + 1) body (← Eval.nested outer)
        eval policy (budget + 2) round outer) := by
  have entered :
      blaming span (eval policy (budget + 2) (.branch span (.boolean span true) body .absent) outer)
        = blaming span (do eval policy (budget + 1) body (← Eval.nested outer)) := by
    rw [eval, Node.span, blaming_blaming (.inr rfl), rule, branch_true]
  rw [eval, Node.span, blaming_blaming (.inr rfl)]
  simp only [rule, statements, bind_pure]
  refine (blaming_bind entered fun _ => rfl).trans ?_
  rw [bind_assoc]

theorem eval_spelledOut (budget : Nat) :
    eval policy (budget + 6) (Node.forLoop span declaration test round body).spelledOut scope =
      blaming span (spread (budget + 3) scope (eval policy (budget + 4) declaration)
        (condition (eval policy (budget + 3)) test) (block (eval policy (budget + 1)) body)
        (eval policy (budget + 2) round)) := by
  -- Every node in between blames what it sees on the span that the whole is blamed on in the end.
  rw [Node.spelledOut, eval, Node.span, rule, branch_true]
  refine blaming_bind rfl fun loop => ?_
  rw [eval, Node.span, blaming_blaming (.inr rfl)]
  refine blaming_bind rfl fun _ => ?_
  simp only [statements, bind_pure]
  rw [eval, Node.span, blaming_blaming (.inr rfl)]
  refine blaming_bind (blaming_rounds (blaming_bind rfl fun holds => ?_) _) fun _ => rfl
  cases holds with
  | false => rfl
  | true =>
    simp only [if_true, block, bind_assoc, pure_bind]
    refine blaming_bind rfl fun outer => ?_
    refine (blaming_bind (blaming_round budget outer) fun _ => rfl).trans ?_
    simp only [bind_assoc]

def spreadEval (policy : Policy) (declaration test round body : Node) (scope : Scope) (budget : Nat) :
    Eval Value :=
  spread budget scope (eval policy budget declaration) (condition (eval policy budget) test)
    (block (eval policy budget) body) (eval policy budget round)

theorem spread_eval_below {rounds rounds' first first' tests tests' inner inner' steps steps' : Nat}
    (moreRounds : rounds ≤ rounds') (moreFirst : first ≤ first') (moreTests : tests ≤ tests')
    (moreInner : inner ≤ inner') (moreSteps : steps ≤ steps') :
    Below
      (spread rounds scope (eval policy first declaration) (condition (eval policy tests) test)
        (block (eval policy inner) body) (eval policy steps round))
      (spread rounds' scope (eval policy first' declaration) (condition (eval policy tests') test)
        (block (eval policy inner') body) (eval policy steps' round)) :=
  spread_below moreRounds scope (eval_below policy moreFirst declaration)
    (condition_below (eval_below policy moreTests) test) (block_below (eval_below policy moreInner) body)
    (eval_below policy moreSteps round)

theorem spreadEval_below_spelledOut (budget : Nat) :
    Below (blaming span (spreadEval policy declaration test round body scope budget))
      (eval policy (budget + 6) (Node.forLoop span declaration test round body).spelledOut scope) := by
  rw [eval_spelledOut]
  exact (spread_eval_below (by omega) (by omega) (by omega) (by omega) (by omega)).blaming span

theorem spelledOut_below_spreadEval (budget : Nat) :
    Below (eval policy budget (Node.forLoop span declaration test round body).spelledOut scope)
      (blaming span (spreadEval policy declaration test round body scope (budget + 4))) := by
  refine (eval_below policy (Nat.le_add_right budget 6) _ scope).trans ?_
  rw [eval_spelledOut]
  exact (spread_eval_below (by omega) (by omega) (by omega) (by omega) (by omega)).blaming span

section Ends

variable (quiet : round.Quiet) (thins : m.Thins [] m)
  (here : scope ∈ m.store.scopes) {r : Result Stop Machine Value}

include quiet thins here

theorem eval_forLoop_alike (policy : Policy) (span : Span) (declaration test body : Node) (budget : Nat) :
    Alike (Lacks m) (blaming span (spreadEval policy declaration test round body scope budget) m)
      (eval policy (budget + 1) (.forLoop span declaration test round body) scope m) :=
  (forLoop_alike quiet thins here).blaming span

theorem exists_spelledOut_of_forLoop
    (ends : Ends (eval policy · (.forLoop span declaration test round body) scope) m r) :
    ∃ r', Ends (eval policy · (Node.forLoop span declaration test round body).spelledOut scope) m r' ∧
      Alike (Lacks m) r' r := by
  obtain ⟨settled, least, reached⟩ := ends
  dsimp only at reached
  have plain : m.Plain := Machine.Sound.plain thins.store.sound
  have alike := eval_forLoop_alike quiet thins here policy span declaration test body least
  rw [reached (least + 1) (Nat.le_succ _)] at alike
  have settled' := alike.settled.2 settled
  refine ⟨_, ?_, alike⟩
  have same := (spreadEval_below_spelledOut least m plain).2 settled'
  rw [← same] at settled' ⊢
  exact ends_of_settled (fun _ _ more => eval_below policy more _ scope) plain settled'

theorem exists_forLoop_of_spelledOut
    (ends : Ends (eval policy · (Node.forLoop span declaration test round body).spelledOut scope) m r) :
    ∃ r', Ends (eval policy · (.forLoop span declaration test round body) scope) m r' ∧
      Alike (Lacks m) r r' := by
  obtain ⟨settled, least, reached⟩ := ends
  dsimp only at reached
  have plain : m.Plain := Machine.Sound.plain thins.store.sound
  have alike := eval_forLoop_alike quiet thins here policy span declaration test body (least + 4)
  have ended := reached least (Nat.le_refl _)
  rw [(spelledOut_below_spreadEval least m plain).2 (ended ▸ settled), ended] at alike
  refine ⟨_, ?_, alike⟩
  exact ends_of_settled (fun _ _ more => eval_below policy more _ scope) plain (alike.settled.1 settled)

end Ends

end Evaluator

end ClassScript
