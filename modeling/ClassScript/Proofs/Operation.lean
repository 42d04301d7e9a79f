import ClassScript.Operation
import ClassScript.Proofs.Number.Literal

/-! # Comparisons

The four comparisons and equality are computed apart from each other: integers are compared as integers, an integer
beside a double becomes a double, and each has its own way with what is no number.  All five ask for one and the
same thing, the order of the two operands (`order?`).  There is none if an operand is no number at all, and no
definite one beside the double that is no number; looking from the other side turns it around (`order?_swap`).
What the operators have to do with each other follows (`comparisons_consistent`).
-/

namespace ClassScript

/-! ## The order of doubles -/

namespace Number

open Float.Model (UnpackedFloat)

variable {x y : Float}

def order? (x y : Float) : Option Ordering := x.toModel.unpack.compare y.toModel.unpack

theorem lt_iff : x < y ↔ order? x y = some .lt := by
  show decide (UnpackedFloat.lt x.toModel.unpack y.toModel.unpack = true) = true ↔ _
  rw [decide_eq_true_eq, UnpackedFloat.lt, beq_iff_eq, order?]

theorem compare_swap (x y : UnpackedFloat) : y.compare x = (x.compare y).map Ordering.swap := by
  have exponents (e e' : Int) : compare e' e = (compare e e').swap := Std.OrientedCmp.eq_swap
  have mantissas (m m' : Nat) : compare m' m = (compare m m').swap := Std.OrientedCmp.eq_swap
  cases x with
  | finite sign m e _ =>
    cases y with
    | finite sign' m' e' _ =>
      -- Of two finite numbers with one sign, the exponents are compared first and then the mantissas.
      cases sign <;> cases sign'
      case negative.positive => rfl
      case positive.negative => rfl
      all_goals
        simp only [UnpackedFloat.compare, Option.map_some, exponents e e', mantissas m m', Ordering.swap_then,
          Ordering.swap_swap]
    | infinity sign' => cases sign <;> cases sign' <;> rfl
    | zero => cases sign <;> rfl
    | notANumber => rfl
  | infinity sign =>
    cases y with
    | finite sign' | infinity sign' => cases sign <;> cases sign' <;> rfl
    | zero => cases sign <;> rfl
    | notANumber => rfl
  | zero sign =>
    cases y with
    | finite sign' | infinity sign' => cases sign' <;> rfl
    | zero | notANumber => rfl
  | notANumber => cases y <;> rfl

theorem order?_swap (x y : Float) : order? y x = (order? x y).map Ordering.swap := compare_swap _ _

theorem order?_eq_none_iff : order? x y = none ↔ x.isNaN = true ∨ y.isNaN = true := by
  show UnpackedFloat.compare x.toModel.unpack y.toModel.unpack = none ↔
    x.toModel.unpack.isNaN = true ∨ y.toModel.unpack.isNaN = true
  rcases x.toModel.unpack with (_ | _) | _ | (_ | _) | ⟨_ | _, m, e, _⟩ <;>
    rcases y.toModel.unpack with (_ | _) | _ | (_ | _) | ⟨_ | _, m', e', _⟩ <;>
    simp [UnpackedFloat.compare, UnpackedFloat.isNaN]

/-- What is nearest to a quotient is a number. -/
theorem isNaN_nearest (negative : Bool) (num den : Nat) : (nearest negative num den).isNaN = false := by
  cases infinite : (nearest negative num den).isInf with
  | true => exact isNaN_of_isInf infinite
  | false => exact (finite_nearest infinite).isNaN_eq_false

end Number

/-! ## The order of values -/

namespace Value

def isNumber : Value → Bool
  | .integer _ | .double _ => true
  | _ => false

def isNaN : Value → Bool
  | .double value => value.isNaN
  | _ => false

end Value

namespace Operation

variable {l r : Value}

/-- The order of two values: none unless both are integers or doubles, and no definite one if one of these is no
    number. -/
def order? (l r : Value) : Option (Option Ordering) :=
  match l, r with
  | .integer l, .integer r => some (some (compareIntegers l r))
  | _, _ => (doubles? l r).map fun (l, r) => Number.order? l r

theorem compareIntegers_swap (l r : Int64) : compareIntegers r l = (compareIntegers l r).swap := by
  unfold compareIntegers
  by_cases less : l < r
  · have notMore : ¬ r < l := by
      rw [Int64.lt_iff_toInt_lt] at less ⊢
      omega
    rw [if_neg notMore, if_pos less, if_pos less]
    rfl
  · rw [if_neg less, if_neg less]
    split <;> rfl

theorem compareIntegers_eq_iff (l r : Int64) : compareIntegers l r = .eq ↔ l = r := by
  rw [← Int64.toInt_inj]
  unfold compareIntegers
  simp only [Int64.lt_iff_toInt_lt]
  split
  next less => simp [Int.ne_of_lt less]
  next notLess =>
    split
    next more => simp [Int.ne_of_gt more]
    next notMore => simp; omega

theorem compareDoubles_eq {x y : Float} {o : Ordering} (ordered : Number.order? x y = some o) :
    compareDoubles x y = o := by
  have turned : Number.order? y x = some o.swap := by
    rw [Number.order?_swap, ordered]
    rfl
  unfold compareDoubles
  simp only [Number.lt_iff, ordered, turned]
  cases o <;> simp

/-! Each operator is a question about the order. -/

theorem compareDoubles_answer (op : BinaryOp) (x y : Float) :
    (if x.isNaN || y.isNaN then .ok (.boolean false)
      else .ok (.boolean (satisfies op (compareDoubles x y))) : Except Fault Value) =
      .ok (.boolean ((Number.order? x y).any (satisfies op))) := by
  cases ordered : Number.order? x y with
  | none =>
    have unordered : (x.isNaN || y.isNaN) = true := by
      rw [Bool.or_eq_true]
      exact Number.order?_eq_none_iff.1 ordered
    rw [if_pos unordered]
    rfl
  | some o =>
    have numbers : ¬ (x.isNaN || y.isNaN) = true := by
      rw [Bool.or_eq_true, ← Number.order?_eq_none_iff, ordered]
      rintro ⟨⟩
    rw [if_neg numbers, compareDoubles_eq ordered]
    rfl

theorem compare_eq (op : BinaryOp) (l r : Value) :
    compare op l r =
      match order? l r with
      | none => mismatch op l r
      | some o => .ok (.boolean (o.any (satisfies op))) := by
  cases l with
  | integer l =>
    cases r with
    | double r => exact compareDoubles_answer op _ _
    | _ => rfl
  | double l =>
    cases r with
    | integer r | double r => exact compareDoubles_answer op _ _
    | _ => rfl
  | _ => cases r <;> rfl

theorem equal?_of_order? {o : Option Ordering} (ordered : order? l r = some o) :
    equal? l r = some (o == some .eq) := by
  cases l with
  | integer l =>
    cases r with
    | integer r =>
      cases ordered
      simp [equal?, compareIntegers_eq_iff, Bool.beq_eq_decide_eq]
    | double r =>
      cases ordered
      rfl
    | _ => cases ordered
  | double l =>
    cases r with
    | integer r | double r =>
      cases ordered
      rfl
    | _ => cases ordered
  | _ => cases r <;> cases ordered

theorem order?_swap (l r : Value) : order? r l = (order? l r).map (Option.map Ordering.swap) := by
  cases l with
  | integer l =>
    cases r with
    | integer r => exact congrArg (some ∘ some) (compareIntegers_swap l r)
    | double r => exact congrArg some (Number.order?_swap _ _)
    | _ => rfl
  | double l =>
    cases r with
    | integer r | double r => exact congrArg some (Number.order?_swap _ _)
    | _ => rfl
  | _ => cases r <;> rfl

theorem order?_isSome (l r : Value) : (order? l r).isSome = (l.isNumber && r.isNumber) := by
  cases l <;> cases r <;> rfl

/-- Only the double that is no number has no definite order with numbers. -/
theorem eq_none_iff_of_order? {o : Option Ordering} (ordered : order? l r = some o) :
    o = none ↔ l.isNaN = true ∨ r.isNaN = true := by
  -- Beside a double an integer is compared as the double nearest to it.
  have whole (value : Int64) : (Number.ofInt value.toInt).isNaN = false := Number.isNaN_nearest _ _ _
  cases l with
  | integer l =>
    cases r with
    | integer r =>
      cases ordered
      simp [Value.isNaN]
    | double r =>
      cases ordered
      rw [Number.order?_eq_none_iff, whole]
      rfl
    | _ => cases ordered
  | double l =>
    cases r with
    | integer r =>
      cases ordered
      rw [Number.order?_eq_none_iff, whole]
      rfl
    | double r =>
      cases ordered
      exact Number.order?_eq_none_iff
    | _ => cases ordered
  | _ => cases r <;> cases ordered

end Operation

/-! ## Equality -/

theorem FunctionValue.same_comm (f g : FunctionValue) : f.same g = g.same f := by
  simp only [same, Bool.or_comm g.native.isSome, Bool.and_comm g.body.isAbsent, eq_comm (a := g.stamp),
    eq_comm (a := g.closure)]

namespace Operation

theorem equal?_comm (l r : Value) : equal? l r = equal? r l := by
  cases ordered : order? l r with
  | some o =>
    have turned : order? r l = some (o.map Ordering.swap) := by
      rw [order?_swap, ordered]
      rfl
    rw [equal?_of_order? ordered, equal?_of_order? turned]
    rcases o with _ | _ | _ | _ <;> rfl
  | none =>
    -- Two values that are not both numbers are equal only as values of one sort.
    cases l with
    | boolean l =>
      cases r with
      | boolean r => simp only [equal?, eq_comm]
      | _ => rfl
    | function f =>
      cases r with
      | function g => exact congrArg some (f.same_comm g)
      | _ => rfl
    | blueprint c =>
      cases r with
      | blueprint d => simp only [equal?, eq_comm]
      | _ => rfl
    | object o =>
      cases r with
      | object p => simp only [equal?, eq_comm]
      | _ => rfl
    | integer | double =>
      cases r with
      | integer | double => cases ordered
      | _ => rfl
    | null | slot => cases r <;> rfl

/-! ## All five together -/

def orderings : List BinaryOp := [.bigger, .smaller, .biggerEqual, .smallerEqual]

theorem apply_ordering {op : BinaryOp} (asks : op ∈ orderings) (l r : Value) : apply op l r = compare op l r := by
  cases op with
  | bigger | smaller | biggerEqual | smallerEqual => rfl
  | _ => simp [orderings] at asks

theorem apply_of_order? {l r : Value} {o : Option Ordering} (ordered : order? l r = some o) {op : BinaryOp}
    (asks : op ∈ orderings) : apply op l r = .ok (.boolean (o.any (satisfies op))) := by
  rw [apply_ordering asks, compare_eq, ordered]

theorem apply_equal_of_order? {l r : Value} {o : Option Ordering} (ordered : order? l r = some o) :
    apply .equal l r = .ok (.boolean (o == some .eq)) := by
  simp only [apply, equal?_of_order? ordered]

/-- An operator and the one that asks the same from the other side. -/
theorem toOption_apply_swap {op turned : BinaryOp} (asks : op ∈ orderings) (asks' : turned ∈ orderings)
    (same : ∀ o : Ordering, satisfies turned o.swap = satisfies op o) (l r : Value) :
    (apply op l r).toOption = (apply turned r l).toOption := by
  rw [apply_ordering asks, apply_ordering asks', compare_eq, compare_eq, order?_swap l r]
  cases order? l r with
  | none => rfl
  | some o =>
    have answers : (o.map Ordering.swap).any (satisfies turned) = o.any (satisfies op) := by
      cases o with
      | none => rfl
      | some o => exact same o
    simp only [Option.map_some, answers]

theorem toOption_apply_equal_comm (l r : Value) : (apply .equal l r).toOption = (apply .equal r l).toOption := by
  simp only [apply, equal?_comm l r]
  cases equal? r l <;> rfl

/-- The comparisons yield booleans if both values are numbers, and fail with a type mismatch otherwise.  Seen from the
    other side, more is less, and what is equal stays so.  Of two numbers one is less, equal or more, and `<=` and `>=`
    put two of these together; beside the double that is no number all five are false. -/
theorem comparisons_consistent (l r : Value) :
    (∀ op ∈ orderings,
      if l.isNumber && r.isNumber then ∃ answer, apply op l r = .ok (.boolean answer)
      else ∃ fault, apply op l r = .error fault ∧ fault.kind = .typeMismatch) ∧
    (apply .bigger l r).toOption = (apply .smaller r l).toOption ∧
    (apply .biggerEqual l r).toOption = (apply .smallerEqual r l).toOption ∧
    (apply .equal l r).toOption = (apply .equal r l).toOption ∧
    ((l.isNumber && r.isNumber) = true →
      ((l.isNaN || r.isNaN) = false → ∃ less same more : Bool, [less, same, more].count true = 1 ∧
        apply .smaller l r = .ok (.boolean less) ∧
        apply .equal l r = .ok (.boolean same) ∧
        apply .bigger l r = .ok (.boolean more) ∧
        apply .smallerEqual l r = .ok (.boolean (less || same)) ∧
        apply .biggerEqual l r = .ok (.boolean (more || same))) ∧
      ((l.isNaN || r.isNaN) = true → ∀ op ∈ .equal :: orderings, apply op l r = .ok (.boolean false))) := by
  refine ⟨fun op asks => ?_, toOption_apply_swap (by decide) (by decide) (by decide) l r,
    toOption_apply_swap (by decide) (by decide) (by decide) l r, toOption_apply_equal_comm l r, fun numbers => ?_⟩
  · rw [← order?_isSome]
    cases ordered : order? l r with
    | none =>
      refine ⟨.operands op l.kind r.kind, ?_, rfl⟩
      rw [apply_ordering asks, compare_eq, ordered]
      rfl
    | some o => exact ⟨_, apply_of_order? ordered asks⟩
  · rw [← order?_isSome] at numbers
    obtain ⟨o, ordered⟩ := Option.isSome_iff_exists.1 numbers
    have indefinite : o = none ↔ (l.isNaN || r.isNaN) = true := by
      rw [eq_none_iff_of_order? ordered, Bool.or_eq_true]
    have answers {op : BinaryOp} (asks : op ∈ orderings) := apply_of_order? ordered asks
    have equality := apply_equal_of_order? ordered
    -- All five answers are read off this one order.
    cases o with
    | none =>
      refine ⟨fun definite => absurd (indefinite.1 rfl) (by simp [definite]), fun _ => ?_⟩
      exact List.forall_mem_cons.2 ⟨equality, fun op asks => answers asks⟩
    | some o =>
      refine ⟨fun _ => ⟨_, _, _, ?_, answers (by decide), equality, answers (by decide), ?_, ?_⟩, fun no => ?_⟩
      · cases o <;> rfl
      · rw [answers (by decide)]
        cases o <;> rfl
      · rw [answers (by decide)]
        cases o <;> rfl
      · cases indefinite.2 no

/-- An integer that no double holds, beside the double that it is rounded to: it counts as equal to it.  And the same
    integer beside what is no number. -/
theorem comparisons_consistent_rounded :
    (∃ less same more : Bool, [less, same, more].count true = 1 ∧ same = true ∧
      apply .smaller (.integer 9007199254740993) (.double 9007199254740992) = .ok (.boolean less) ∧
      apply .equal (.integer 9007199254740993) (.double 9007199254740992) = .ok (.boolean same) ∧
      apply .bigger (.integer 9007199254740993) (.double 9007199254740992) = .ok (.boolean more)) ∧
    ∀ op ∈ .equal :: orderings,
      apply op (.integer 9007199254740993) (.double Number.notANumber) = .ok (.boolean false) := by
  constructor
  · obtain ⟨definite, -⟩ :=
      (comparisons_consistent (.integer 9007199254740993) (.double 9007199254740992)).2.2.2.2 rfl
    obtain ⟨less, same, more, one, smaller, equal, bigger, -⟩ := definite (by decide +kernel)
    refine ⟨less, same, more, one, ?_, smaller, equal, bigger⟩
    have rounded : equal? (.integer 9007199254740993) (.double 9007199254740992) = some true := by decide +kernel
    simp only [apply, rounded] at equal
    cases equal
    rfl
  · exact ((comparisons_consistent (.integer 9007199254740993) (.double Number.notANumber)).2.2.2.2 rfl).2
      (by decide +kernel)

end Operation

end ClassScript
