import ClassScript.Proofs.Interpreter.Batch
import ClassScript.Proofs.Parser.RoundTrip

/-! # Runs up to spans

Programs that are equal but for their spans do the same when they are run one after another, whether they
succeed or fail.  Spans get into the machine with the bodies of functions and the fields of classes, and into
errors as the places that are blamed; the two machines stay equal but for these (`evaluate_erase`), and so do
the errors.  An error without its span still has its fault, which its kind and its message are taken from.
-/

namespace ClassScript

namespace Interpreter

open Eval Evaluator

structure Step where
  outcome : Outcome
  output : String

def Step.erase (step : Step) : Step := { step with outcome := step.outcome.erase }

def runEach (policy : Policy) : List Node → Machine → List Step × Machine
  | [], m => ([], m)
  | program :: rest, m =>
    let (outcome, left) := evaluate policy program m
    let (output, _, next) := take left
    let (steps, last) := runEach policy rest next
    (⟨outcome, output⟩ :: steps, last)

theorem evaluate_eq_ofResult (policy : Policy) (node : Node) (m : Machine) :
    evaluate policy node m = Outcome.ofResult (eval policy budget node m.root m) := by
  rw [evaluate]
  cases eval policy budget node m.root m <;> rfl

/-- One program does the same with other spans, in a machine with other spans. -/
theorem evaluate_erase (policy : Policy) {node node' : Node} {m m' : Machine}
    (sameTree : node.erase = node'.erase) (sameState : m.erase = m'.erase) :
    (evaluate policy node m).1.erase = (evaluate policy node' m').1.erase ∧
      (evaluate policy node m).2.erase = (evaluate policy node' m').2.erase := by
  have root : m.erase.root = m'.erase.root := congrArg Machine.root sameState
  rw [evaluate_eq_ofResult, evaluate_eq_ofResult]
  apply Outcome.ofResult_erase
  calc erased Value.erase (eval policy budget node m.root m)
      = eval policy budget node.erase m.root m.erase := (eval_erases policy budget node m.root m).symm
    _ = eval policy budget node'.erase m'.root m'.erase := by
      rw [sameTree, sameState]
      exact congrArg (fun scope => eval policy budget node'.erase scope m'.erase) root
    _ = erased Value.erase (eval policy budget node' m'.root m') :=
      eval_erases policy budget node' m'.root m'

theorem take_erase {m m' : Machine} (same : m.erase = m'.erase) :
    (take m).1 = (take m').1 ∧ (take m).2.2.erase = (take m').2.2.erase := by
  have output : m.erase.output = m'.erase.output := congrArg Machine.output same
  have emptied := congrArg (fun left : Machine => (take left).2.2) same
  exact ⟨output, emptied⟩

theorem globals_erase (m : Machine) : (globals m).erase = globals m.erase :=
  (m.store.declared_erase m.root).symm

theorem runEach_erase (policy : Policy) {programs programs' : List Node} {m m' : Machine}
    (sameTrees : programs.map Node.erase = programs'.map Node.erase) (sameState : m.erase = m'.erase) :
    (runEach policy programs m).1.map Step.erase = (runEach policy programs' m').1.map Step.erase ∧
      (runEach policy programs m).2.erase = (runEach policy programs' m').2.erase := by
  induction programs generalizing programs' m m' with
  | nil =>
    obtain rfl := List.map_eq_nil_iff.1 sameTrees.symm
    exact ⟨rfl, sameState⟩
  | cons program rest ih =>
    cases programs' with
    | nil => cases sameTrees
    | cons program' rest' =>
      injection sameTrees with sameFirst sameRest
      obtain ⟨outcome, left⟩ := evaluate_erase policy sameFirst sameState
      obtain ⟨output, next⟩ := take_erase left
      obtain ⟨steps, last⟩ := ih sameRest next
      refine ⟨?_, last⟩
      simp only [runEach, List.map_cons, Step.erase, outcome, output] at steps ⊢
      rw [steps]

/-- Sources whose trees are equal but for spans are run alike in two fresh machines: step by step they write
    the same, yield the same or fail for the same fault, and the global variables are the same in the end. -/
theorem runEach_sources {sources others : List (List UInt8)}
    (same : sources.map (fun source => (parseSource source).1.erase)
      = others.map fun source => (parseSource source).1.erase)
    (policy : Policy) (extra : List Builtin) :
    let run := runEach policy (sources.map fun source => (parseSource source).1) (start extra)
    let again := runEach policy (others.map fun source => (parseSource source).1) (start extra)
    run.1.map (·.output) = again.1.map (·.output) ∧
      run.1.map (·.outcome.erase) = again.1.map (·.outcome.erase) ∧
      (globals run.2).erase = (globals again.2).erase := by
  intro run again
  have sameTrees : (sources.map fun source => (parseSource source).1).map Node.erase
      = (others.map fun source => (parseSource source).1).map Node.erase := by
    rw [List.map_map, List.map_map]
    exact same
  obtain ⟨steps, last⟩ := runEach_erase policy sameTrees (Eq.refl (start extra).erase)
  have outputs := congrArg (List.map Step.output) steps
  have outcomes := congrArg (List.map Step.outcome) steps
  simp only [List.map_map, Function.comp_def, Step.erase] at outputs outcomes
  refine ⟨outputs, outcomes, ?_⟩
  rw [globals_erase, globals_erase, last]

/-! ## Programs that differ in their layout -/

/-- What an accepted source is read as can be written down and read back. -/
theorem parseTokens_written {source : List UInt8} (accepted : (parseSource source).2 = []) :
    parseTokens (parseSource source).1.unparse = ((parseSource source).1.erase, []) := by
  obtain ⟨_, tree, parsed, is⟩ := parseSource_clean accepted
  obtain ⟨c', ns, read, rfl⟩ := parseTokens_eq_iff.1 parsed
  rw [is]
  apply Parser.parseTokens_unparse_of_fits Parser.sourced_readable
  apply Parser.fits_of_reads Parser.sourced_symmetric read
  intro t member
  exact Parser.admits_of_mem_tokenize ((List.dropWhile_suffix _).subset member)

/-- Accepted sources that are written alike are equal but for their spans. -/
theorem erase_eq_of_unparse_eq {source other : List UInt8} (accepted : (parseSource source).2 = [])
    (accepted' : (parseSource other).2 = [])
    (same : (parseSource source).1.unparse = (parseSource other).1.unparse) :
    (parseSource source).1.erase = (parseSource other).1.erase := by
  have readBack := parseTokens_written accepted
  rw [same, parseTokens_written accepted'] at readBack
  exact (Prod.mk.inj readBack).1.symm

def mirrorText : List UInt8 := "function f(n) \x7b print(n == f) \x7d".toUTF8.data.toList

def mirrorLayout : List UInt8 := "/**/function f(n)\n\x7b print((n) ==\nf); \x7d".toUTF8.data.toList

def lostText : List UInt8 := "f(f)\nlost".toUTF8.data.toList

def lostLayout : List UInt8 := "f(f);;  (lost)".toUTF8.data.toList

theorem runEach_sources_lostLayout :
    let run := runEach {} ([mirrorText, lostText].map fun source => (parseSource source).1) (start [])
    let again := runEach {} ([mirrorLayout, lostLayout].map fun source => (parseSource source).1) (start [])
    (parseSource mirrorText).1.span ≠ (parseSource mirrorLayout).1.span ∧
      run.1.map (·.output) = ["", "true"] ∧
      run.1.map (·.output) = again.1.map (·.output) ∧
      run.1.map (·.outcome.erase) = again.1.map (·.outcome.erase) ∧
      (globals run.2).erase = (globals again.2).erase := by
  intro run again
  have first : (parseSource mirrorText).1.erase = (parseSource mirrorLayout).1.erase :=
    erase_eq_of_unparse_eq (by decide +kernel) (by decide +kernel) (by decide +kernel)
  have second : (parseSource lostText).1.erase = (parseSource lostLayout).1.erase :=
    erase_eq_of_unparse_eq (by decide +kernel) (by decide +kernel) (by decide +kernel)
  have same : [mirrorText, lostText].map (fun source => (parseSource source).1.erase)
      = [mirrorLayout, lostLayout].map fun source => (parseSource source).1.erase := by
    simp only [List.map_cons, List.map_nil, first, second]
  exact ⟨by decide +kernel, by decide +kernel, runEach_sources same {} []⟩

end Interpreter

end ClassScript
