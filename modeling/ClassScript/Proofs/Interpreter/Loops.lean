import ClassScript.Proofs.Evaluator.Loops
import ClassScript.Proofs.Interpreter.Locality

/-! # What loops stand for

In every machine that a host can get to, a loop that tests last can be replaced by its body and the loop that tests
first, and a counting loop of a program without diagnostics by the branch that it stands for
(`loops_spelled_out`).  The branch makes more scopes than the loop.  They have no variables, and the two machines in
the end differ in nothing else (`Interposed`).  The functions that every program finds see no scopes, and the host
may add any others that do not look at the scope of a call.
-/

namespace ClassScript

open EStateM (Result)

/-! ## Loops of programs -/

def Node.isForLoop : Node → Bool
  | .forLoop .. => true
  | _ => false

theorem Node.exists_of_isForLoop {loop : Node} (is : loop.isForLoop = true) :
    ∃ span declaration test round body, loop = .forLoop span declaration test round body := by
  cases loop with
  | forLoop span declaration test round body => exact ⟨span, declaration, test, round, body, rfl⟩
  | _ => cases is

theorem Parser.Fits.round_quiet {numbers : Numbers} {role : Role} {span : Span}
    {declaration test round body : Node}
    (fits : Fits numbers role (.forLoop span declaration test round body)) : round.Quiet := by
  generalize is : Node.forLoop span declaration test round body = n at fits
  induction fits with
  | forLoop _ _ fitRound =>
    cases is
    exact quiet_of_fits fitRound (fitRound.declares_eq_false rfl)
  | inClass _ _ same | declared _ _ same | evaluated _ same | slotSome _ same | startVariable _ same
  | startSlot _ same => exact same is
  | _ => cases is

namespace Interpreter

open Machine Eval Evaluator

/-! ## Machines whose functions do not look at scopes -/

theorem blank_thins : blank.Thins [] blank := by
  refine ⟨Store.thins_nil blank_sound fun id v there => ?_, (Scope.thin_nil _).symm, rfl, rfl, rfl, rfl⟩
  have grown : blank.store = Store.empty.grow (Store.empty.inner none) := rfl
  rw [grown, Store.table_grow, Store.table_of_size_le (Nat.zero_le id)] at there
  cases there

theorem install_thins {m : Machine} (thins : m.Thins [] m) {builtin : Builtin}
    (ignores : builtin.native.IgnoresScope) : (install m builtin).Thins [] (install m builtin) := by
  have assign {s s' : Store} (thins : s.Thins [] m.root s') (f : FunctionValue) (closure : f.closure = m.root)
      (native : f.native = some builtin.native) :
      let wrote := s.write (.stored m.root.table builtin.name) (.function f)
      wrote.Thins [] m.root wrote := by
    have held : (Value.function f).Held s := by
      rw [Value.Held, closure]
      exact thins.sound.rooted.1
    have spared : (Value.function f).Spared [] := by
      refine ⟨List.not_mem_nil, fun found is => ?_⟩
      rw [native] at is
      exact Option.some.inj is ▸ ignores
    have free : (Slot.stored m.root.table builtin.name).Spared [] := List.not_mem_nil
    exact (thins.write free held spared).self
  have sound : m.Sound := thins.store.sound
  refine ⟨?_, (Scope.thin_nil _).symm, rfl, rfl, rfl, rfl⟩
  rw [install, Store.declare]
  by_cases taken : (m.store.declared m.root).has builtin.name
  · rw [if_pos taken]
    exact assign thins.store _ rfl rfl
  · rw [if_neg taken]
    exact assign (thins.store.declare sound.rooted.1 List.not_mem_nil (by simpa using taken) .function) _ rfl rfl

theorem start_thins {extra : List Builtin} (ignoring : ∀ builtin ∈ extra, builtin.native.IgnoresScope) :
    (start extra).Thins [] (start extra) := by
  have all : ∀ builtin ∈ builtins ++ extra, builtin.native.IgnoresScope := by
    refine List.forall_mem_append.2 ⟨?_, ignoring⟩
    simp [builtins, Native.IgnoresScope]
  exact List.foldlRecOn (motive := fun m => m.Thins [] m) (builtins ++ extra) install blank_thins
    fun _ thins builtin member => install_thins thins (all builtin member)

/-- Evaluation alone makes no function that looks at scopes. -/
theorem eval_thins_self {m : Machine} (thins : m.Thins [] m) {scope : Scope} (here : scope ∈ m.store.scopes)
    (policy : Policy) (budget : Nat) (node : Node) :
    let left := Eval.after (eval policy budget node scope) m
    left.Thins [] left := by
  have meets : Meets [] scope scope m m := ⟨thins, here, (thinFrames_nil _).symm⟩
  have both := eval_thins [] policy budget node meets fun _ => List.not_mem_nil
  rw [Eval.Thins] at both
  rw [Eval.after]
  -- The two runs are one, so they leave one machine.
  cases ran : eval policy budget node scope m with
  | ok v n =>
    rw [ran] at both
    obtain ⟨n', same, passes, -⟩ := both
    obtain ⟨-, rfl⟩ := EStateM.Result.ok.inj same
    exact passes.thins
  | error stop n =>
    rw [ran] at both
    obtain ⟨n', same, passes⟩ := both
    obtain ⟨-, rfl⟩ := EStateM.Result.error.inj same
    exact passes.thins

theorem Reachable.thins {extra : List Builtin} (ignoring : ∀ builtin ∈ extra, builtin.native.IgnoresScope)
    {m : Machine} (reachable : Reachable extra m) : m.Thins [] m := by
  induction reachable with
  | start => exact start_thins ignoring
  | evaluated policy budget node _ here ih => exact eval_thins_self ih here policy budget node
  | taken _ ih => exact ⟨ih.store, ih.root, ih.stamps, rfl, ih.written, rfl⟩

/-! ## The same but for scopes without variables -/

/-- Machines that two runs from one machine leave.  They are the same but for some scopes that only the first one
    has. -/
structure Interposed (before : Machine) (gone : List TableId) (m m' : Machine) : Prop where
  /-- These scopes are new. -/
  fresh : ∀ id ∈ gone, before.store.tables.size ≤ id
  /-- They have no variables. -/
  bare : ∀ id ∈ gone, m.store.table id = []
  /-- Every scope from before has the same variables with the same values, but that in the first machine the scopes
      of functions, classes and objects may lie within some of these. -/
  contents : ∀ id < before.store.tables.size, m'.store.table id = (m.store.table id).thin gone
  stamps : m'.stamps = m.stamps
  output : m'.output = m.output
  written : m'.written = m.written
  events : m'.events = m.events

theorem interposed_of_lacks {before m m' : Machine} (lacks : Lacks before m m') :
    ∃ gone, Interposed before gone m m' := by
  obtain ⟨gone, thins, late⟩ := lacks
  refine ⟨gone, late, thins.store.bare, fun id older => ?_, thins.stamps, thins.output, thins.written,
    thins.events⟩
  have kept : id ∉ gone := fun lost => Nat.not_le_of_lt older (late id lost)
  have same : rank gone id = id := rank_eq_self fun other lost =>
    Nat.le_of_lt (Nat.lt_of_lt_of_le older (late other lost))
  rw [← thins.store.tables id kept, same]

/-- A machine that a host can get to, a scope of it, and a loop.

    A loop that tests last ends as its body and then the loop that tests first do, with the same machine and the same
    value or error; an error that has no place is blamed on the loop.

    A counting loop of a program without diagnostics ends if and only if the branch that it stands for does, with the
    same value or error and with machines that differ in scopes without variables only. -/
theorem loops_spelled_out (policy : Policy) {extra : List Builtin}
    (ignoring : ∀ builtin ∈ extra, builtin.native.IgnoresScope) {m : Machine} (reachable : Reachable extra m)
    {scope : Scope} (here : scope ∈ m.store.scopes) :
    (∀ span test body r,
      (Ends (eval policy · (.doWhileLoop span test body) scope) m r ↔
        Ends (fun budget => blaming span (bodyThenWhile policy span test body scope budget)) m r) ∧
      (body.span.isNone = false →
        (Ends (eval policy · (.doWhileLoop span test body) scope) m r ↔
          Ends (bodyThenWhile policy span test body scope) m r))) ∧
    ∀ tokens, (parseTokens tokens).2 = [] → ∀ loop : Node, loop.Inside (parseTokens tokens).1 →
      loop.isForLoop = true →
      (∀ r, Ends (eval policy · loop scope) m r →
        ∃ r', Ends (eval policy · loop.spelledOut scope) m r' ∧
          Alike (fun n n' => ∃ gone, Interposed m gone n n') r' r) ∧
      ∀ r', Ends (eval policy · loop.spelledOut scope) m r' →
        ∃ r, Ends (eval policy · loop scope) m r ∧
          Alike (fun n n' => ∃ gone, Interposed m gone n n') r' r := by
  have sound := reachable.sound
  constructor
  · intro span test body r
    refine ⟨doWhile_ends_iff sound.plain r, fun placed => ?_⟩
    rw [doWhile_ends_iff sound.plain r]
    simp only [blaming_bodyThenWhile placed]
  · intro tokens accepted loop inside is
    obtain ⟨span, declaration, test, round, body, rfl⟩ := Node.exists_of_isForLoop is
    obtain ⟨role, fits⟩ := Parser.exists_fits_of_inside accepted inside
    have quiet : round.Quiet := fits.round_quiet
    have thins : m.Thins [] m := reachable.thins ignoring
    constructor
    · intro r ends
      obtain ⟨r', ends', alike⟩ := exists_spelledOut_of_forLoop quiet thins here ends
      exact ⟨r', ends', alike.mono fun _ _ => interposed_of_lacks⟩
    · intro r' ends'
      obtain ⟨r, ends, alike⟩ := exists_forLoop_of_spelledOut quiet thins here ends'
      exact ⟨r, ends, alike.mono fun _ _ => interposed_of_lacks⟩

def teller : Builtin := ⟨"tell", .host fun count => tellEach 0 count⟩
where
  tellEach (number : Nat) : Nat → Host
    | 0 => .returns
    | left + 1 => .evaluates number fun answer =>
      .writes ((answer.map (·.2)).getD "") fun _ => tellEach (number + 1) left

theorem teller_ignoresScope : teller.native.IgnoresScope := by
  have each (number left : Nat) : (teller.tellEach number left).IgnoresScope := by
    induction left generalizing number with
    | zero => trivial
    | succ left ih => exact fun _ _ => ih (number + 1)
  exact each 0

def countText : List UInt8 :=
  "int n = 0\nvar last = 0\nfunction next() \x7b n += 1\n tell(n) \x7d".toUTF8.data.toList

def countLoop : List UInt8 :=
  "for (int i = 0; i < 3; next()) \x7b function f() \x7b i = n \x7d\n f()\n last = f \x7d".toUTF8.data.toList

theorem loops_spelled_out_countLoop :
    let m := (evaluate {} (parseSource countText).1 (start [teller])).2
    let loop := (parseSource countLoop).1.parts.headD .absent
    let place : Span := ⟨⟨0, 1, 1⟩, ⟨0, 1, 1⟩⟩
    let name : Node := .identifier place .absent "n"
    let test : Node := .binary place .smaller (.usage place name) (.integer place 6)
    let body : Node := .assignment place .add name (.integer place 2)
    (∀ builtin ∈ [teller], builtin.native.IgnoresScope) ∧ Reachable [teller] m ∧ m.root ∈ m.store.scopes ∧
      (body.span.isNone = false ∧ ∃ r, Ends (eval {} · (.doWhileLoop place test body) m.root) m r ∧
        Ends (bodyThenWhile {} place test body m.root) m r) ∧
      (parseTokens (tokenize countLoop).1).2 = [] ∧ loop.Inside (parseTokens (tokenize countLoop).1).1 ∧
      loop.isForLoop = true ∧
      ∃ v n r', Ends (eval {} · loop m.root) m (.ok v n) ∧ n.output = "1234" ∧
        Ends (eval {} · loop.spelledOut m.root) m r' ∧
        Alike (fun n n' => ∃ gone, Interposed m gone n n') r' (.ok v n) := by
  intro m loop place name test body
  have ignoring : ∀ builtin ∈ [teller], builtin.native.IgnoresScope :=
    List.forall_mem_singleton.2 teller_ignoresScope
  have reachable : Reachable [teller] m := Reachable.start.evaluate {} _
  have here := reachable.sound.rooted.1
  obtain ⟨last, counting⟩ := loops_spelled_out {} ignoring reachable here
  have placed : body.span.isNone = false := rfl
  have accepted : (parseTokens (tokenize countLoop).1).2 = [] := by decide +kernel
  have inside := inside_of_parts countLoop (by decide +kernel)
  have is : loop.isForLoop = true := by decide +kernel
  refine ⟨ignoring, reachable, here, ⟨placed, ?_⟩, accepted, inside, is, ?_⟩
  · have done : (eval {} 30 (.doWhileLoop place test body) m.root).succeeds m = true := by decide +kernel
    obtain ⟨v, ran⟩ := exists_of_succeeds done
    have ends := ends_of_eval reachable.sound (ran ▸ settled_ok v _)
    exact ⟨_, ends, ((last place test body _).2 placed).1 ends⟩
  · have done : (eval {} 30 loop m.root).succeeds m = true := by decide +kernel
    have output : ((eval {} 30 loop m.root).after m).output = "1234" := by decide +kernel
    obtain ⟨v, ran⟩ := exists_of_succeeds done
    have ends := ran ▸ ends_of_eval reachable.sound (ran ▸ settled_ok v _)
    obtain ⟨r', ends', alike⟩ := (counting _ accepted loop inside is).1 _ ends
    exact ⟨v, _, r', ends, output, ends', alike⟩

end Interpreter

end ClassScript
