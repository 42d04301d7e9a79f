import ClassScript.Proofs.Interpreter.Safety

/-! # Skipping operands

A logical operator may skip its right operand when the left one decides.  Programs that run to their end
without skipping do the same with it, provided that all right operands of logical operators are harmless:
evaluating such an operand changes nothing, so that nothing is missed, and the left operand alone is what the
operator yields.
-/

namespace ClassScript

def Node.isHarmless : Node → Bool
  | .integer .. | .double .. | .boolean .. | .null .. => true
  | .binary _ _ left right => left.isHarmless && right.isHarmless
  | .identifier _ parent _ => parent.isAbsent || parent.isHarmless
  | .usage _ target => target.isHarmless
  | _ => false

def Node.skipsHarmless : Node → Bool
  | .binary _ op _ right => !(op = .and || op = .or) || right.isHarmless
  | _ => true

/-! ## Harmless operands -/

namespace Eval

variable {α β : Type}

/-- If the evaluation yields anything, it leaves the machine as it was. -/
def Still (x : Eval α) : Prop := ∀ m a m', x m = .ok a m' → m' = m

theorem still_pure (a : α) : Still (pure a) := by
  intro m b m' yields
  cases yields
  rfl

theorem still_throw (stop : Stop) : Still (throw stop : Eval α) := by
  intro m a m' yields
  cases yields

theorem still_fail (fault : Fault) : Still (fail fault : Eval α) := still_throw _

theorem Still.bind {x : Eval α} {k : α → Eval β} (first : Still x) (rest : ∀ a, Still (k a)) :
    Still (x >>= k) := by
  intro m b m' yields
  rw [bind_apply] at yields
  split at yields
  case h_1 a m₁ ran =>
    obtain rfl := first m a m₁ ran
    exact rest a m₁ b m' yields
  case h_2 => cases yields

theorem Still.blaming {x : Eval α} (still : Still x) (span : Span) : Still (blaming span x) := by
  intro m a m' yields
  rw [Eval.blaming] at yields
  split at yields
  case h_1 b m₁ ran =>
    cases yields
    exact still m a m' ran
  case h_2 => cases yields

theorem still_ofExcept (r : Except Fault α) : Still (ofExcept r) := by
  cases r with
  | ok a => exact still_pure a
  | error fault => exact still_fail fault

theorem still_query (q : Store → Except Fault α) : Still (query q) :=
  fun m => still_ofExcept (q m.store) m

end Eval

namespace Evaluator

open Eval

section Still

variable {rec : Recursion} {node left right parent : Node} {scope : Scope}

theorem still_value (below : Still (rec node scope)) : Still (value rec node scope) :=
  below.bind fun _ => (still_query _).blaming node.span

theorem still_binary (policy : Policy) (op : BinaryOp) (first : Still (rec left scope))
    (second : Still (rec right scope)) : Still (binary policy rec op left right scope) := by
  refine (still_value first).bind fun l => ?_
  have both : Still (do let r ← value rec right scope; Eval.ofExcept (Operation.apply op l r)) :=
    (still_value second).bind fun r => still_ofExcept _
  dsimp only
  split
  · cases l with
    | boolean b =>
      dsimp only
      split
      · exact still_pure _
      · exact both
    | _ => exact (still_fail _).bind fun _ => both
  · exact both

theorem still_identifier (below : parent.isAbsent = false → Still (rec parent scope)) (name : String) :
    Still (identifier rec parent name scope) := by
  have slot (q : Store → Except Fault Slot) : Still (do return Value.slot (← Eval.query q)) :=
    (still_query q).bind fun _ => still_pure _
  rw [identifier]
  split
  · exact slot _
  case isFalse present =>
    refine (still_value (below (by simpa using present))).bind fun v => ?_
    cases v with
    | blueprint c => exact slot _
    | object o => exact slot _
    | _ => exact still_fail _

theorem still_usage (below : Still (rec node scope)) : Still (usage rec node scope) := by
  refine Still.bind ?_ fun slot => still_query _
  cases node with
  | identifier =>
    refine below.bind fun v => ?_
    cases v with
    | slot => exact still_pure _
    | _ => exact still_throw _
  | _ => exact still_throw _

end Still

/-- A harmless node leaves the machine as it is. -/
theorem eval_still (policy : Policy) (budget : Nat) {node : Node} (harmless : node.isHarmless)
    (scope : Scope) : Still (eval policy budget node scope) := by
  induction budget generalizing node with
  | zero => exact still_throw _
  | succ budget ih =>
    refine Still.blaming ?_ node.span
    cases node with
    | integer | double | boolean | null => exact still_pure _
    | binary span op left right =>
      simp only [Node.isHarmless, Bool.and_eq_true] at harmless
      exact still_binary policy op (ih harmless.1) (ih harmless.2)
    | identifier span parent name =>
      refine still_identifier (fun present => ih ?_) name
      simpa [Node.isHarmless, present] using harmless
    | usage span target => exact still_usage (ih harmless)
    | _ => cases harmless

/-! ## Two policies -/

/-- A logical operator that yields something has a truth value to its left, which it yields itself if that
    decides. -/
theorem logical_left {op : BinaryOp} (isLogical : op = .and ∨ op = .or) {l r v : Value}
    (found : Operation.apply op l r = .ok v) : ∃ b, l = .boolean b ∧ (decides op b → v = l) := by
  have logical : Operation.logical op l r = .ok v := by
    rcases isLogical with rfl | rfl <;> exact found
  rw [Operation.logical.eq_def] at logical
  split at logical
  case h_1 b b' =>
    cases logical
    refine ⟨b, rfl, fun alone => ?_⟩
    rcases isLogical with rfl | rfl <;> cases b <;> simp_all [decides]
  case h_2 => cases logical

theorem exists_rightOperand {rec : Recursion} {op : BinaryOp} {right : Node} {scope : Scope} {l v : Value}
    {m m' : Machine}
    (ran : (do let r ← value rec right scope; Eval.ofExcept (Operation.apply op l r)) m = .ok v m') :
    ∃ r, Operation.apply op l r = .ok v := by
  rw [bind_apply] at ran
  split at ran
  case h_1 r m₁ _ =>
    refine ⟨r, ?_⟩
    cases found : Operation.apply op l r with
    | ok w =>
      rw [found] at ran
      cases ran
      rfl
    | error fault =>
      rw [found] at ran
      cases ran
  case h_2 => cases ran

section Policies

variable {eager lazy : Policy} (runsAll : eager.shortCircuit = false) (skips : lazy.shortCircuit = true)
  {p : Node → Prop} {rec rec' : Recursion} (below : Recursion.Matches p False rec rec')

include runsAll skips below

/-- An operator that may skip a harmless operand does what it does without skipping. -/
theorem binary_skips {op : BinaryOp} {left right : Node} (codeLeft : left.Throughout p)
    (codeRight : right.Throughout p) {scope : Scope}
    (still : op = .and ∨ op = .or → Still (rec right scope)) :
    Matches p False (binary eager rec op left right scope) (binary lazy rec' op left right scope)
      fun v => v.Carries p := by
  refine (value_matches below codeLeft scope).bind fun l kept => ?_
  have both := rightOperand_matches below op l codeRight scope
  simp only [runsAll, skips, Bool.false_and, Bool.true_and, Bool.false_eq_true, ↓reduceIte,
    Bool.or_eq_true, decide_eq_true_eq]
  split
  case isFalse => exact both
  case isTrue isLogical =>
    -- The operator looks at its left operand first now, so the two are compared machine by machine.
    intro m carries
    have both := both m carries
    cases ran : (do let r ← value rec right scope; Eval.ofExcept (Operation.apply op l r)) m with
    | error stop m' =>
      rw [ran] at both
      exact ⟨False.elim, both.2⟩
    | ok v m' =>
      rw [ran] at both
      obtain ⟨same, carries', code⟩ := both
      refine ⟨?_, carries', code⟩
      obtain ⟨r, found⟩ := exists_rightOperand ran
      obtain ⟨b, rfl, alone⟩ := logical_left isLogical found
      by_cases decided : decides op b
      · -- The operand is skipped: its evaluation would have left the machine alone.
        obtain rfl : m' = m :=
          ((still_value (still isLogical)).bind fun _ => still_ofExcept _) m v m' ran
        rw [alone decided]
        simp only [decided, ↓reduceIte]
        rfl
      · simp only [decided]
        exact same

end Policies

/-- No node lacks anything, and all operands that may be skipped are harmless. -/
def Skippable (n : Node) : Prop := n.isFilled ∧ n.skipsHarmless

theorem eager_matches_lazy {eager lazy : Policy} (runsAll : eager.shortCircuit = false)
    (skips : lazy.shortCircuit = true) (limits : lazy.outputLimit = eager.outputLimit) (budget : Nat) :
    Recursion.Matches Skippable False (eval eager budget) (eval lazy budget) := by
  induction budget with
  | zero => exact fun _ _ _ => matches_throw nofun
  | succ budget ih =>
    intro node scope code
    refine (rule_matches ih limits (fun _ skippable => skippable.1)
      (fun {span op left right} scope code => ?_) budget code scope).blaming node.span
    refine binary_skips runsAll skips ih (code.part (by simp [Node.parts]))
      (code.part (by simp [Node.parts])) fun isLogical => ?_
    have harmless : right.isHarmless := by
      rcases isLogical with rfl | rfl <;> simpa [Node.skipsHarmless] using code.own.2
    exact eval_still eager budget harmless scope

end Evaluator

namespace Interpreter

open Evaluator

/-- Run programs one after another in one machine, if all of them succeed.  For each program this gives what it
    yields and what it writes. -/
def runAll (policy : Policy) : List Node → Machine → Option (List (Value × String) × Machine)
  | [], m => some ([], m)
  | program :: rest, m =>
    match evaluate policy program m with
    | (.stopped _, _) => none
    | (.value v, m') =>
      (runAll policy rest (take m').2.2).map fun (results, last) => ((v, (take m').1) :: results, last)

theorem runAll_lazy {eager lazy : Policy} (runsAll : eager.shortCircuit = false)
    (skips : lazy.shortCircuit = true) (limits : lazy.outputLimit = eager.outputLimit)
    {programs : List Node} (code : ∀ program ∈ programs, program.Throughout Skippable) {m : Machine}
    (carries : m.store.Carries Skippable) {results : List (Value × String)} {last : Machine}
    (ran : runAll eager programs m = some (results, last)) :
    runAll lazy programs m = some (results, last) := by
  induction programs generalizing m results last with
  | nil => exact ran
  | cons program rest ih =>
    obtain ⟨codeFirst, codeRest⟩ := List.forall_mem_cons.1 code
    have agrees := eager_matches_lazy runsAll skips limits budget program m.root codeFirst m carries
    cases first : eval eager budget program m.root m with
    | error stop m' =>
      simp only [runAll, evaluate, first] at ran
      cases ran
    | ok v m' =>
      rw [first] at agrees
      obtain ⟨same, carries', _⟩ := agrees
      simp only [runAll, evaluate, first, Option.map_eq_some_iff] at ran
      obtain ⟨⟨results', last'⟩, ranRest, is⟩ := ran
      -- Taking the output away leaves the store as it is.
      have again := ih (m := (take m').2.2) codeRest carries' ranRest
      simp only [runAll, evaluate, same, again, Option.map_some, is]

/-- Sources that run to their end one after another do so with skipping too, with the same values, the same
    output and the same machine at the end, if no node of them may skip an operand that is not harmless. -/
theorem runAll_shortCircuit {sources : List (List UInt8)}
    (harmless : ∀ source ∈ sources, (parseSource source).1.Throughout (·.skipsHarmless))
    (extra : List Builtin) (outputLimit : Option Int) {results : List (Value × String)} {last : Machine}
    (ran : runAll ⟨false, outputLimit⟩ (sources.map fun source => (parseSource source).1) (start extra)
      = some (results, last)) :
    runAll ⟨true, outputLimit⟩ (sources.map fun source => (parseSource source).1) (start extra)
      = some (results, last) := by
  have absent : Node.absent.Throughout Skippable := Node.throughout_iff.2 ⟨⟨rfl, rfl⟩, nofun⟩
  have code : ∀ program ∈ sources.map fun source => (parseSource source).1,
      program.Throughout Skippable := by
    intro program member
    obtain ⟨source, there, rfl⟩ := List.mem_map.1 member
    exact fun n inside => ⟨Parser.complete_parseSource source n inside, harmless source there n inside⟩
  have runsAll : (Policy.mk false outputLimit).shortCircuit = false := rfl
  have skips : (Policy.mk true outputLimit).shortCircuit = true := rfl
  exact runAll_lazy runsAll skips rfl code (start_carries absent extra) ran

def lampText : List UInt8 :=
  "class Lamp \x7b\n static var made = 0\n var lit = true && made == 0 \x7d\n".toUTF8.data.toList ++
    "var lamp = new Lamp()\n".toUTF8.data.toList ++
    "function show(n) \x7b println(n == 1 || n > 1 && lamp.lit, n < 0 && Lamp.made > n) \x7d".toUTF8.data.toList

def lampLoop : List UInt8 :=
  "for (int i = 0; i < 3 && lamp.lit; i++) \x7b show(i) \x7d\nvar off = false && lamp.lit".toUTF8.data.toList

theorem runAll_shortCircuit_lampLoop :
    let programs := [lampText, lampLoop].map fun source => (parseSource source).1
    (∀ source ∈ [lampText, lampLoop], (parseSource source).2 = [] ∧
      (parseSource source).1.Throughout (·.skipsHarmless)) ∧
      ∃ results last, runAll {} programs (start []) = some (results, last) ∧
        runAll ⟨true, none⟩ programs (start []) = some (results, last) ∧
        results.map (·.2) = ["", "false, false\ntrue, false\ntrue, false\n"] := by
  intro programs
  have passes : ∀ source ∈ [lampText, lampLoop], (parseSource source).2 = [] ∧
      Node.passesWithin Node.skipsHarmless 20 (parseSource source).1 := by decide +kernel
  have harmless (source : List UInt8) (member : source ∈ [lampText, lampLoop]) :=
    Node.throughout_of_passesWithin (passes source member).2
  have outputs : (runAll {} programs (start [])).map (·.1.map (·.2))
      = some ["", "false, false\ntrue, false\ntrue, false\n"] := by
    decide +kernel
  obtain ⟨⟨results, last⟩, ran, wrote⟩ := Option.map_eq_some_iff.1 outputs
  exact ⟨fun source member => ⟨(passes source member).1, harmless source member⟩, results, last, ran,
    runAll_shortCircuit harmless [] none ran, wrote⟩

end Interpreter

end ClassScript
