import ClassScript.Syntax.Node

/-! # Precedence

An arrangement says how operands and the operators between them are put together.  Of all arrangements that
read the same from left to right, one at most respects the levels of the operators
(`Arrangement.eq_of_respects`): its topmost operator is of the lowest level that there is, and of those the
last one, or the first one if they are powers.
-/

namespace ClassScript

namespace BinaryOp

def level : BinaryOp → Nat
  | .or | .unknown => 0
  | .and => 1
  | .equal => 2
  | .bigger | .smaller | .biggerEqual | .smallerEqual => 3
  | .add | .sub => 4
  | .mul | .div => 5
  | .pow => 6

def takesLeft (outer inner : BinaryOp) : Bool :=
  outer.level < inner.level || outer.level = inner.level && outer ≠ .pow

def takesRight (outer inner : BinaryOp) : Bool :=
  outer.level < inner.level || outer = .pow && inner = .pow

variable {outer inner : BinaryOp}

theorem takesLeft_iff : outer.takesLeft inner ↔
    outer.level < inner.level ∨ outer.level = inner.level ∧ outer ≠ .pow := by
  simp [takesLeft]

theorem takesRight_iff : outer.takesRight inner ↔
    outer.level < inner.level ∨ outer = .pow ∧ inner = .pow := by
  simp [takesRight]

theorem level_lt_of_ne_pow {op : BinaryOp} (other : op ≠ .pow) : op.level < 6 := by
  cases op <;> simp_all [level]

/-- What may stand to the left may be replaced by what binds tighter. -/
theorem takesLeft_mono {other : BinaryOp} (takes : outer.takesLeft inner) (tighter : inner.level ≤ other.level) :
    outer.takesLeft other := by
  rw [takesLeft_iff] at *
  rcases takes with less | ⟨same, notPow⟩
  · exact .inl (by omega)
  · rcases Nat.lt_or_eq_of_le (same ▸ tighter) with less | same
    · exact .inl less
    · exact .inr ⟨same, notPow⟩

theorem takesRight_mono {other : BinaryOp} (takes : outer.takesRight inner)
    (tighter : inner.level ≤ other.level) : outer.takesRight other := by
  rw [takesRight_iff] at *
  rcases takes with less | ⟨rfl, rfl⟩
  · exact .inl (by omega)
  · by_cases isPow : other = .pow
    · exact .inr ⟨rfl, isPow⟩
    · have := level_lt_of_ne_pow isPow
      have : pow.level = 6 := rfl
      omega

theorem level_le_of_takesLeft (takes : outer.takesLeft inner) : outer.level ≤ inner.level := by
  rw [takesLeft_iff] at takes
  omega

theorem level_le_of_takesRight (takes : outer.takesRight inner) : outer.level ≤ inner.level := by
  rcases takesRight_iff.1 takes with less | ⟨rfl, rfl⟩
  · exact Nat.le_of_lt less
  · exact Nat.le_refl _

/-- No two operators can both be on top of each other, the one to the left and the other to the right. -/
theorem not_takesLeft_of_takesRight (takes : outer.takesRight inner) : ¬ inner.takesLeft outer := by
  rw [takesRight_iff] at takes
  rw [takesLeft_iff]
  rcases takes with less | ⟨rfl, rfl⟩
  · omega
  · simp

end BinaryOp

inductive Arrangement
  | leaf (operand : Node)
  | join (op : BinaryOp) (left right : Arrangement)
  deriving Repr

namespace Arrangement

def first : Arrangement → Node
  | .leaf n => n
  | .join _ l _ => l.first

def steps : Arrangement → List (BinaryOp × Node)
  | .leaf _ => []
  | .join op l r => l.steps ++ (op, r.first) :: r.steps

def root? : Arrangement → Option BinaryOp
  | .leaf _ => none
  | .join op _ _ => some op

def respects : Arrangement → Bool
  | .leaf _ => true
  | .join op l r => l.respects && r.respects && l.root?.all op.takesLeft && r.root?.all op.takesRight

def toNode : Arrangement → Node
  | .leaf n => n
  | .join op l r => .binary (l.toNode.span.cover r.toNode.span) op l.toNode r.toNode

variable {op : BinaryOp} {l r : Arrangement}

theorem respects_join : (join op l r).respects ↔ l.respects ∧ r.respects ∧
    (∀ top ∈ l.root?, op.takesLeft top) ∧ ∀ top ∈ r.root?, op.takesRight top := by
  simp [respects, Option.all_eq_true, and_assoc]

theorem exists_root? {t : Arrangement} {step : BinaryOp × Node} (member : step ∈ t.steps) :
    ∃ top, t.root? = some top := by
  cases t with
  | leaf n => cases member
  | join op l r => exact ⟨op, rfl⟩

/-- The operator on top binds loosest. -/
theorem level_root?_le {t : Arrangement} (respects : t.respects) {top : BinaryOp} (isTop : t.root? = some top)
    {step : BinaryOp × Node} (member : step ∈ t.steps) : top.level ≤ step.1.level := by
  induction t generalizing top with
  | leaf n => cases isTop
  | join op l r leftHypothesis rightHypothesis =>
    obtain ⟨leftRespects, rightRespects, fitsLeft, fitsRight⟩ := respects_join.1 respects
    cases isTop
    rcases List.mem_append.1 member with inLeft | member
    · obtain ⟨top, isTop⟩ := exists_root? inLeft
      exact Nat.le_trans (BinaryOp.level_le_of_takesLeft (fitsLeft top isTop))
        (leftHypothesis leftRespects isTop inLeft)
    · rcases List.mem_cons.1 member with rfl | inRight
      · exact Nat.le_refl _
      · obtain ⟨top, isTop⟩ := exists_root? inRight
        exact Nat.le_trans (BinaryOp.level_le_of_takesRight (fitsRight top isTop))
          (rightHypothesis rightRespects isTop inRight)

/-- An operator takes all operators to its left if it takes the topmost one. -/
theorem takesLeft_steps {t : Arrangement} (respects : t.respects) (fits : ∀ top ∈ t.root?, op.takesLeft top)
    {step : BinaryOp × Node} (member : step ∈ t.steps) : op.takesLeft step.1 := by
  obtain ⟨top, isTop⟩ := exists_root? member
  exact BinaryOp.takesLeft_mono (fits top isTop) (level_root?_le respects isTop member)

theorem takesRight_steps {t : Arrangement} (respects : t.respects) (fits : ∀ top ∈ t.root?, op.takesRight top)
    {step : BinaryOp × Node} (member : step ∈ t.steps) : op.takesRight step.1 := by
  obtain ⟨top, isTop⟩ := exists_root? member
  exact BinaryOp.takesRight_mono (fits top isTop) (level_root?_le respects isTop member)

/-- There is one place at most where operators can be split at one that takes all others on its sides. -/
theorem split_unique {xs xs' ys ys' : List (BinaryOp × Node)} {step step' : BinaryOp × Node}
    (same : xs ++ step :: ys = xs' ++ step' :: ys')
    (left : ∀ x ∈ xs, step.1.takesLeft x.1) (right : ∀ y ∈ ys, step.1.takesRight y.1)
    (left' : ∀ x ∈ xs', step'.1.takesLeft x.1) (right' : ∀ y ∈ ys', step'.1.takesRight y.1) :
    xs = xs' ∧ step = step' ∧ ys = ys' := by
  rcases List.append_eq_append_iff.1 same with ⟨between, rfl, is⟩ | ⟨between, rfl, is⟩
  · cases between with
    | nil =>
      cases is
      exact ⟨by simp, rfl, rfl⟩
    | cons first between =>
      -- The second place is to the right of the first one, and that one to the left of it.
      cases is
      exact absurd (left' step (by simp)) (BinaryOp.not_takesLeft_of_takesRight (right step' (by simp)))
  · cases between with
    | nil =>
      cases is
      exact ⟨by simp, rfl, rfl⟩
    | cons first between =>
      cases is
      exact absurd (left step' (by simp)) (BinaryOp.not_takesLeft_of_takesRight (right' step (by simp)))

/-- What reads the same and respects the levels is the same. -/
theorem eq_of_respects {t t' : Arrangement} (respects : t.respects) (respects' : t'.respects)
    (first : t.first = t'.first) (steps : t.steps = t'.steps) : t = t' := by
  induction t generalizing t' with
  | leaf n =>
    cases t' with
    | leaf n' => exact congrArg leaf first
    | join op' l' r' => simp [Arrangement.steps] at steps
  | join op l r leftHypothesis rightHypothesis =>
    cases t' with
    | leaf n' => simp [Arrangement.steps] at steps
    | join op' l' r' =>
      obtain ⟨left, right, fitsLeft, fitsRight⟩ := respects_join.1 respects
      obtain ⟨left', right', fitsLeft', fitsRight'⟩ := respects_join.1 respects'
      -- The operators on top split the same row, each of them where it takes all the others.
      obtain ⟨sameLeft, sameStep, sameRight⟩ := split_unique steps
        (fun _ => takesLeft_steps left fitsLeft) (fun _ => takesRight_steps right fitsRight)
        (fun _ => takesLeft_steps left' fitsLeft') (fun _ => takesRight_steps right' fitsRight')
      obtain ⟨rfl, sameFirst⟩ := Prod.mk.inj sameStep
      rw [leftHypothesis left left' first sameLeft, rightHypothesis right right' sameFirst sameRight]

end Arrangement

end ClassScript
