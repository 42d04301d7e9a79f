import ClassScript.Proofs.Parser.Soundness.Statement

/-! # Every token list is parsed

The recursion that the parser is granted is never used up, so it always answers (`parse_ends`,
`run_ends`); and an answer without complaints is a reading of the statements that the tokens write.
-/

namespace ClassScript

theorem Goal.one_le_rank (goal : Goal) : 1 ≤ goal.rank := by cases goal <;> simp [rank]

theorem Goal.rank_le_three (goal : Goal) : goal.rank ≤ 3 := by cases goal <;> simp [rank]

namespace Parser

open Cursor (Ran)

/-- A recursion of four steps for each token ahead is enough for every goal. -/
theorem parse_ends (depth : Nat) (goal : Goal) (c : Cursor)
    (enough : 4 * c.rest.length + goal.rank ≤ depth) :
    Ends (parse depth goal) c (Reading goal c) := by
  induction depth generalizing goal c with
  | zero =>
    have positive := goal.one_le_rank
    omega
  | succ depth ih =>
    have positive := goal.one_le_rank
    refine rule_ends (fun other c₁ shorter => ih other c₁ ?_)
      fun smaller less => ih smaller c ?_
    · have bounded := other.rank_le_three
      omega
    · omega

theorem below_parse {depth n : Nat} (enough : 4 * n ≤ depth) : Below (parse depth) n := by
  intro goal c shorter
  have bounded := goal.rank_le_three
  exact parse_ends depth goal c (by omega)

def ReadsProgram (tokens : List Token) (tree : Node) (c' : Cursor) : Prop :=
  ∃ ns, Reads (.statements (· ≠ .endOfFile)) (Cursor.mk tokens none []).pastSeparators (.nodes ns) c' ∧
    tree = .tree ⟨(Cursor.mk tokens none []).next.span.first, c'.next.span.last⟩ ns

theorem run_ends (tokens : List Token) :
    ∃ tree c', run tokens = some (tree, c') ∧
      Ran { rest := tokens } c' (ReadsProgram tokens tree c') := by
  have ends : Ends (program (depthFor tokens)) { rest := tokens } fun tree c' =>
      Ran { rest := tokens } c' (ReadsProgram tokens tree c') := by
    have below : Below (parse (depthFor tokens)) (tokens.length + 1) :=
      below_parse (by simp [depthFor])
    simp only [program, ends_bind, ends_peek, ends_pure]
    refine (statements_ends below (by decide) (Nat.lt_succ_self _)).mono ?_
    exact fun ns c' ran => ran.mono fun read => ⟨ns, read, rfl⟩
  exact ends

end Parser

end ClassScript
