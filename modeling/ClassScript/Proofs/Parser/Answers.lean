import ClassScript.Proofs.Parser.Soundness

/-! # What a parser answers

`Gives p c Q` says that what the parser `p` answers at the cursor `c` satisfies `Q`, if it answers; that it
does is `ClassScript.Parser.run_ends`.
-/

namespace ClassScript.Parser

/-- The answer of the parser at the cursor satisfies `Q`. -/
def Gives {α : Type} (p : Parser α) (c : Cursor) (Q : α → Cursor → Prop) : Prop :=
  ∀ a c', p c = some (a, c') → Q a c'

section Gives

variable {α β : Type} {c : Cursor} {Q : α → Cursor → Prop}

theorem Gives.mono {p : Parser α} {Q' : α → Cursor → Prop} (gives : Gives p c Q)
    (weaker : ∀ a c', Q a c' → Q' a c') : Gives p c Q' :=
  fun a c' run => weaker a c' (gives a c' run)

/-- A parser that is known to answer gives that answer. -/
theorem gives_iff {p : Parser α} {a : α} {c' : Cursor}
    (answers : ∀ Q : α → Cursor → Prop, Ends p c Q ↔ Q a c') : Gives p c Q ↔ Q a c' := by
  obtain ⟨b, c₁, run, rfl, rfl⟩ := (answers fun b c₁ => b = a ∧ c₁ = c').2 ⟨rfl, rfl⟩
  constructor
  · exact fun gives => gives b c₁ run
  · intro holds b' c₂ run'
    cases run.symm.trans run'
    exact holds

@[simp] theorem gives_pure (a : α) : Gives (pure a) c Q ↔ Q a c := gives_iff fun _ => ends_pure a

@[simp] theorem gives_bind (p : Parser β) (f : β → Parser α) :
    Gives (p >>= f) c Q ↔ Gives p c fun b c₁ => Gives (f b) c₁ Q := by
  constructor
  · intro gives b c₁ first a c' second
    refine gives a c' ?_
    rw [bind_run, first]
    exact second
  · intro gives a c' run
    rw [bind_run, Option.bind_eq_some_iff] at run
    obtain ⟨⟨b, c₁⟩, first, second⟩ := run
    exact gives b c₁ first a c' second

@[simp] theorem gives_get {Q : Cursor → Cursor → Prop} : Gives get c Q ↔ Q c c :=
  gives_iff fun _ => ends_get

@[simp] theorem gives_set {Q : PUnit → Cursor → Prop} (c₁ : Cursor) : Gives (set c₁) c Q ↔ Q ⟨⟩ c₁ :=
  gives_iff fun _ => ends_set c₁

@[simp] theorem gives_peek {Q : Token → Cursor → Prop} : Gives peek c Q ↔ Q c.next c :=
  gives_iff fun _ => ends_peek

@[simp] theorem gives_peekKind {Q : Kind → Cursor → Prop} : Gives peekKind c Q ↔ Q c.kind c :=
  gives_iff fun _ => ends_peekKind

@[simp] theorem gives_advance {Q : Token → Cursor → Prop} :
    Gives advance c Q ↔ Q c.next c.advance :=
  gives_iff fun _ => ends_advance

@[simp] theorem gives_complain {Q : Unit → Cursor → Prop} (complaint : Complaint) (span : Span) :
    Gives (complain complaint span) c Q ↔ Q () (c.complain complaint span) :=
  gives_iff fun _ => ends_complain complaint span

theorem gives_expect {Q : Token × Bool → Cursor → Prop} (kind : Kind) :
    Gives (expect kind) c Q ↔
      if c.kind = kind then Q (c.next, true) c.advance
      else Q (c.next, false) (c.complain (.expectedKind kind c.kind) c.next.span) := by
  by_cases same : c.kind = kind
  · rw [if_pos same]
    exact gives_iff fun Q => by rw [ends_expect, if_pos same]
  · rw [if_neg same]
    exact gives_iff fun Q => by rw [ends_expect, if_neg same]

@[simp] theorem gives_skipNewlines {Q : Unit → Cursor → Prop} :
    Gives skipNewlines c Q ↔ Q () c.pastNewlines :=
  gives_iff fun _ => ends_skipNewlines

@[simp] theorem gives_skipSeparators {Q : Unit → Cursor → Prop} :
    Gives skipSeparators c Q ↔ Q () c.pastSeparators :=
  gives_iff fun _ => ends_skipSeparators

@[simp] theorem gives_synchronize {Q : Unit → Cursor → Prop} :
    Gives synchronize c Q ↔ Q () c.synchronized :=
  gives_iff fun _ => ends_synchronize

@[simp] theorem gives_spanFrom {Q : Span → Cursor → Prop} (first : Position) :
    Gives (spanFrom first) c Q ↔ Q ⟨first, c.lastEnd⟩ c :=
  gives_iff fun _ => ends_spanFrom first

theorem gives_anything (p : Parser α) (c : Cursor) : Gives p c fun _ _ => True :=
  fun _ _ _ => trivial

/-- What holds at the start of a loop and is kept by its rounds holds at its end. -/
theorem gives_loop_from {I : α → Cursor → Prop} {more : Kind → Bool} {body : α → Parser α}
    (round : ∀ a c, more c.kind = true → I a c → Gives (body a) c I) {a : α} (start : I a c) :
    Gives (loop more body a) c I := by
  have within (rounds : Nat) (a : α) (c : Cursor) (now : I a c) :
      Gives (loopWithin more body rounds a) c I := by
    induction rounds generalizing a c with
    | zero =>
      intro a' c' run
      cases run
    | succ rounds ih =>
      simp only [loopWithin, gives_bind, gives_peekKind]
      by_cases asks : more c.kind = true
      · simp only [asks, ↓reduceIte, gives_bind]
        exact (round a c asks now).mono fun a' c' now' => ih a' c' now'
      · simp only [asks, Bool.false_eq_true, ↓reduceIte, gives_pure]
        exact now
  simp only [loop, gives_bind, gives_get]
  exact within _ a c start

end Gives

end ClassScript.Parser
