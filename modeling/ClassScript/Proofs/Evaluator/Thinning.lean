import ClassScript.Proofs.Evaluator.Frame
import ClassScript.Proofs.Store.Thinning

/-! # Evaluation does not see scopes without variables

Leaving scopes without variables out of a machine changes nothing about how nodes are evaluated in it, but
for the scopes in what is yielded and left (`eval_thins`).  `Thins gone m m' x x' f Q` says so of two
evaluations: from the machine `m` and from what is left of it, `x'` does what `x` does, yields `f a` where `x`
yields `a`, and leaves what is left of the machine that `x` leaves; and `a` has the property `Q`.

A node may also be evaluated in a scope that is gone, and in what is left in the next one around it that is
not, as long as it declares nothing there (`Node.Quiet`).
-/

namespace ClassScript

namespace Machine

/-- The second machine is what is left of the first one without the scopes that are gone. -/
structure Thins (gone : List TableId) (m m' : Machine) : Prop where
  store : m.store.Thins gone m.root m'.store
  root : m'.root = m.root.thin gone
  stamps : m'.stamps = m.stamps
  output : m'.output = m.output
  written : m'.written = m.written
  events : m'.events = m.events

structure Passes (gone : List TableId) (m n n' : Machine) : Prop where
  thins : n.Thins gone n'
  grown : m.store.Extends (fun _ => True) n.store

/-- Besides, a scope of the first machine and one of the second machine with what is left of its frames. -/
structure Meets (gone : List TableId) (scope scope' : Scope) (m m' : Machine) : Prop where
  thins : m.Thins gone m'
  here : scope ∈ m.store.scopes
  frames : scope'.frames = thinFrames gone scope.frames

variable {gone : List TableId} {scope scope' : Scope} {m m' n n' l l' : Machine}

theorem Passes.refl (thins : m.Thins gone m') : m.Passes gone m m' := ⟨thins, .refl _⟩

theorem Passes.trans (first : m.Passes gone n n') (second : n.Passes gone l l') :
    m.Passes gone l l' :=
  ⟨second.thins, first.grown.trans second.grown⟩

theorem Passes.meets (passes : m.Passes gone n n') (meets : Meets gone scope scope' m m') :
    Meets gone scope scope' n n' :=
  ⟨passes.thins, passes.grown.mem meets.here, meets.frames⟩

theorem Meets.stands (meets : Meets gone scope scope' m m') : m.Stands scope :=
  ⟨meets.thins.store.sound, meets.here⟩

/-- A machine whose store is changed, and what is left of it. -/
theorem Thins.mapStore (thins : m.Thins gone m') {f f' : Store → Store}
    (store : (f m.store).Thins gone m.root (f' m'.store)) :
    (m.mapStore f).Thins gone (m'.mapStore f') :=
  ⟨store, thins.root, thins.stamps, thins.output, thins.written, thins.events⟩

end Machine

structure Value.Rests (gone : List TableId) (v : Value) (s : Store) : Prop where
  held : v.Held s
  spared : v.Spared gone

theorem Value.Rests.later {gone : List TableId} {own : TableId → Prop} {v : Value}
    {s s' : Store} (rests : v.Rests gone s) (grown : s.Extends own s') : v.Rests gone s' :=
  ⟨grown.held rests.held, rests.spared⟩

namespace Eval

open Machine

variable {α β γ δ : Type} {gone : List TableId} {m m' : Machine} {scope scope' : Scope}
  {f : α → β} {g : γ → δ} {Q : α → Store → Prop} {R : γ → Store → Prop}

/-- The second evaluation does with what is left of the machine what the first one does with the machine. -/
def Thins (gone : List TableId) (m m' : Machine) (x : Eval α) (x' : Eval β) (f : α → β)
    (Q : α → Store → Prop) : Prop :=
  match x m with
  | .ok a n => ∃ n', x' m' = .ok (f a) n' ∧ m.Passes gone n n' ∧ Q a n.store
  | .error stop n => ∃ n', x' m' = .error stop n' ∧ m.Passes gone n n'

/-- What is known of the first evaluation alone. -/
theorem Thins.leads {x : Eval α} {x' : Eval β} {P : α → Store → Prop} (both : Thins gone m m' x x' f Q)
    (leads : Leads (fun _ => True) m x P) : Thins gone m m' x x' f fun a s => P a s ∧ Q a s := by
  rw [Thins] at both ⊢
  rw [Leads] at leads
  cases ran : x m with
  | error stop n =>
    rw [ran] at both
    exact both
  | ok a n =>
    rw [ran] at both leads
    obtain ⟨n', ran', passes, holds⟩ := both
    exact ⟨n', ran', passes, leads.2, holds⟩

/-! ## Steps -/

theorem thins_pure (thins : m.Thins gone m') {a : α} {b : β} (same : b = f a) (holds : Q a m.store) :
    Thins gone m m' (pure a) (pure b) f Q :=
  ⟨m', same ▸ rfl, .refl thins, holds⟩

theorem thins_throw (thins : m.Thins gone m') (stop : Stop) :
    Thins gone m m' (throw stop) (throw stop) f Q :=
  ⟨m', rfl, .refl thins⟩

theorem thins_fail (thins : m.Thins gone m') (fault : Fault) :
    Thins gone m m' (fail fault) (fail fault) f Q :=
  thins_throw thins _

theorem Thins.bind {x : Eval α} {x' : Eval β} {k : α → Eval γ} {k' : β → Eval δ}
    (first : Thins gone m m' x x' f Q)
    (rest : ∀ a n n', m.Passes gone n n' → Q a n.store → Thins gone n n' (k a) (k' (f a)) g R) :
    Thins gone m m' (x >>= k) (x' >>= k') g R := by
  rw [Thins] at first
  rw [Thins, bind_apply]
  cases ran : x m with
  | error stop n =>
    rw [ran] at first
    obtain ⟨n', ran', passes⟩ := first
    exact ⟨n', by rw [bind_apply, ran'], passes⟩
  | ok a n =>
    rw [ran] at first
    obtain ⟨n', ran', passes, holds⟩ := first
    have next := rest a n n' passes holds
    rw [Thins] at next
    dsimp only
    cases after : k a n with
    | error stop l =>
      rw [after] at next
      obtain ⟨l', after', later⟩ := next
      exact ⟨l', by rw [bind_apply, ran']; exact after', passes.trans later⟩
    | ok c l =>
      rw [after] at next
      obtain ⟨l', after', later, holds⟩ := next
      exact ⟨l', by rw [bind_apply, ran']; exact after', passes.trans later, holds⟩

theorem Thins.blaming {x : Eval α} {x' : Eval β} (inner : Thins gone m m' x x' f Q) (span : Span) :
    Thins gone m m' (blaming span x) (blaming span x') f Q := by
  rw [Thins] at inner
  rw [Thins, Eval.blaming]
  cases ran : x m with
  | ok a n =>
    rw [ran] at inner
    obtain ⟨n', ran', passes, holds⟩ := inner
    exact ⟨n', by rw [Eval.blaming, ran'], passes, holds⟩
  | error stop n =>
    rw [ran] at inner
    obtain ⟨n', ran', passes⟩ := inner
    exact ⟨n', by rw [Eval.blaming, ran'], passes⟩

theorem thins_ofExcept (thins : m.Thins gone m') {r : Except Fault α} {r' : Except Fault β}
    (same : r' = r.map f) (holds : ∀ a, r = .ok a → Q a m.store) :
    Thins gone m m' (ofExcept r) (ofExcept r') f Q := by
  rw [same]
  cases r with
  | ok a => exact thins_pure thins rfl (holds a rfl)
  | error fault => exact thins_fail thins fault

theorem thins_query (thins : m.Thins gone m') {q : Store → Except Fault α} {q' : Store → Except Fault β}
    (same : q' m'.store = (q m.store).map f) (holds : ∀ a, q m.store = .ok a → Q a m.store) :
    Thins gone m m' (query q) (query q') f Q :=
  thins_ofExcept thins same holds

theorem Thins.get {k : Machine → Eval γ} {k' : Machine → Eval δ}
    (rest : Thins gone m m' (k m) (k' m') g R) :
    Thins gone m m' (get >>= k) (get >>= k') g R := rest

theorem thins_note (thins : m.Thins gone m') (event : Event) :
    Thins gone m m' (note event) (note event) id fun _ _ => True := by
  have later : Machine.Thins gone { m with events := m.events.push event }
      { m' with events := m'.events.push event } :=
    ⟨thins.store, thins.root, thins.stamps, thins.output, thins.written, by rw [thins.events]⟩
  exact ⟨_, rfl, ⟨later, .refl _⟩, trivial⟩

theorem thins_stamp (thins : m.Thins gone m') :
    Thins gone m m' stamp stamp id fun _ _ => True := by
  have later :
      Machine.Thins gone { m with stamps := m.stamps + 1 } { m' with stamps := m'.stamps + 1 } :=
    ⟨thins.store, thins.root, by rw [thins.stamps], thins.output, thins.written, thins.events⟩
  exact ⟨_, by rw [stamp, thins.stamps]; rfl, ⟨later, .refl _⟩, trivial⟩

theorem thins_emit (thins : m.Thins gone m') (policy : Policy) (text : String) :
    Thins gone m m' (emit policy text) (emit policy text) id fun _ _ => True := by
  have room : fits policy m' text = fits policy m text := by rw [fits, fits, thins.written]
  rw [Thins, emit, emit, room]
  by_cases fit : fits policy m text = true
  · rw [if_pos fit, if_pos fit]
    refine ⟨_, rfl, ⟨⟨thins.store, thins.root, thins.stamps, ?_, ?_, thins.events⟩, .refl _⟩, trivial⟩
    · dsimp only
      rw [thins.output]
    · dsimp only
      rw [thins.written]
  · rw [if_neg fit, if_neg fit]
    exact ⟨_, rfl, .refl thins, trivial⟩

theorem thins_write (thins : m.Thins gone m') {slot : Slot} (sparedSlot : slot.Spared gone)
    {v : Value} (rests : v.Rests gone m.store) :
    Thins gone m m' (write slot v) (write (slot.thin gone) (v.thin gone)) id fun _ _ => True := by
  have grown := (thins.store.sound.write slot rests.held).2
  refine ⟨_, rfl, ⟨thins.mapStore ?_, grown.mono fun _ _ never => never.elim⟩, trivial⟩
  exact thins.store.write sparedSlot rests.held rests.spared

theorem thins_declare (meets : Meets gone scope scope' m m') (kept : scope.table ∉ gone) (name : String)
    (type : DeclaredType) :
    Thins gone m m' (declare scope name type) (declare scope' name type) (Slot.thin gone)
      fun slot _ => slot.Spared gone := by
  obtain rfl := Scope.eq_thin kept meets.frames
  have thins := meets.thins
  have same : (m'.store.declared (scope.thin gone)).has name = (m.store.declared scope).has name := by
    rw [thins.store.declared kept, Table.has_thin]
  rw [Thins, declare]
  by_cases taken : (m.store.declared scope).has name = true
  · rw [if_pos taken]
    exact ⟨m', by rw [declare, same, if_pos taken]; rfl, .refl thins⟩
  · rw [if_neg taken]
    have free : (m.store.declared scope).has name = false := by simpa using taken
    obtain ⟨_, grown, _⟩ := thins.store.sound.declare meets.here free type
    refine ⟨_, by rw [declare, same, if_neg taken]; rfl, ⟨thins.mapStore ?_, grown.mono fun _ _ _ => trivial⟩,
      kept⟩
    exact thins.store.declare meets.here kept free type

/-- What goes on in a new scope. -/
theorem Thins.nested (meets : Meets gone scope scope' m m') {k : Scope → Eval γ} {k' : Scope → Eval δ}
    (rest : ∀ inner n n', m.Passes gone n n' → Meets gone inner (inner.thin gone) n n' →
      inner.table ∉ gone → inner.parent? = some scope →
      Thins gone n n' (k inner) (k' (inner.thin gone)) g R) :
    Thins gone m m' (Eval.nested scope >>= k) (Eval.nested scope' >>= k') g R := by
  have thins := meets.thins
  obtain ⟨_, grown, here, parent, fresh⟩ := thins.store.sound.grow meets.here
  have kept : (m.store.inner (some scope)).table ∉ gone := fresh ▸ thins.store.size_kept
  have inner := thins.store.inner meets.frames
  have made : Thins gone m m' (Eval.nested scope) (Eval.nested scope') (Scope.thin gone) fun made s =>
      made = m.store.inner (some scope) ∧ made ∈ s.scopes := by
    refine ⟨m'.mapStore (Store.grow ((m.store.inner (some scope)).thin gone)), ?_,
      ⟨thins.mapStore (thins.store.grow meets.here), grown.mono fun _ _ never => never.elim⟩, rfl, here⟩
    simp only [Eval.nested, inner]
  refine made.bind fun made n n' passes is => ?_
  obtain ⟨rfl, inside⟩ := is
  exact rest _ n n' passes ⟨passes.thins, inside, Scope.frames_thin kept⟩ kept parent

theorem thins_rounds (thins : m.Thins gone m') {round round' : Eval Bool}
    (one : ∀ n n', m.Passes gone n n' → Thins gone n n' round round' id fun _ _ => True)
    (budget : Nat) :
    Thins gone m m' (rounds budget round) (rounds budget round') id fun _ _ => True := by
  induction budget generalizing m m' with
  | zero => exact thins_throw thins _
  | succ budget ih =>
    refine (one m m' (.refl thins)).bind fun more n n' passes _ => ?_
    cases more with
    | true =>
      exact ih passes.thins fun l l' later => one l l' (passes.trans later)
    | false => exact thins_pure passes.thins rfl trivial

end Eval

/-! ## Rules -/

namespace Evaluator

open Machine Eval

/-- Nodes are evaluated alike in a machine and in what is left of it: in a scope that is not gone, or in any
    scope if the node is quiet. -/
def Recursion.Thins (gone : List TableId) (rec : Recursion) : Prop :=
  ∀ (node : Node) {scope scope' : Scope} {m m' : Machine}, Meets gone scope scope' m m' →
    (¬ node.Quiet → scope.table ∉ gone) →
    Eval.Thins gone m m' (rec node scope) (rec node scope') (Value.thin gone) (Value.Rests gone)

section Rules

variable {gone : List TableId} {rec : Recursion} (below : rec.Thins gone)
  {scope scope' : Scope} {m m' : Machine} (meets : Meets gone scope scope' m m')

include below meets

theorem value_thins (node : Node) (may : ¬ node.Quiet → scope.table ∉ gone) :
    Thins gone m m' (value rec node scope) (value rec node scope') (Value.thin gone)
      fun v s => v.isPlain ∧ v.Rests gone s := by
  refine (below node meets may).bind fun v n n' passes rests => ?_
  have store := passes.thins.store
  refine (thins_query passes.thins (store.plain rests.spared) fun x found => ?_).blaming node.span
  obtain ⟨plain, held⟩ := store.sound.plain_kept rests.held found
  exact ⟨plain, held, store.plain_spared rests.spared found⟩

theorem values_thins (nodes : List Node) (may : ∀ node ∈ nodes, ¬ node.Quiet → scope.table ∉ gone) :
    Thins gone m m' (values rec scope nodes) (values rec scope' nodes) (List.map (Value.thin gone))
      fun vs s => ∀ v ∈ vs, v.Rests gone s := by
  induction nodes generalizing m m' with
  | nil => exact thins_pure meets.thins rfl (List.forall_mem_nil _)
  | cons node rest ih =>
    obtain ⟨mayFirst, mayRest⟩ := List.forall_mem_cons.1 may
    refine (value_thins below meets node mayFirst).bind fun v n n' passes rests => ?_
    refine (ih (passes.meets meets) mayRest).bind fun vs l l' later all => ?_
    exact thins_pure later.thins rfl (List.forall_mem_cons.2 ⟨rests.2.later later.grown, all⟩)

theorem each_thins (nodes : List Node) (may : ∀ node ∈ nodes, ¬ node.Quiet → scope.table ∉ gone) :
    Thins gone m m' (each rec scope nodes) (each rec scope' nodes) id fun _ _ => True := by
  induction nodes generalizing m m' with
  | nil => exact thins_pure meets.thins rfl trivial
  | cons node rest ih =>
    obtain ⟨mayFirst, mayRest⟩ := List.forall_mem_cons.1 may
    refine (below node meets mayFirst).bind fun _ n n' passes _ => ?_
    exact ih (passes.meets meets) mayRest

omit below meets in
theorem truth_thin (v : Value) : truth (v.thin gone) = (truth v).map id := by
  cases v <;> rfl

theorem condition_thins (node : Node) (may : ¬ node.Quiet → scope.table ∉ gone) :
    Thins gone m m' (condition rec node scope) (condition rec node scope') id fun _ _ => True := by
  rw [condition, condition]
  split
  · exact thins_pure meets.thins rfl trivial
  · refine (value_thins below meets node may).bind fun v n n' passes _ => ?_
    exact (thins_ofExcept passes.thins (truth_thin v) fun _ _ => trivial).blaming node.span

theorem target_thins (node : Node) (may : ¬ node.Quiet → scope.table ∉ gone) :
    Thins gone m m' (target rec node scope) (target rec node scope') (Slot.thin gone)
      fun slot s => slot.Held s ∧ slot.Spared gone := by
  cases node with
  | identifier span parent name =>
    refine (below (.identifier span parent name) meets may).bind fun v n n' passes rests => ?_
    cases v with
    | slot slot => exact thins_pure passes.thins rfl ⟨rests.held, rests.spared⟩
    | _ => exact thins_throw passes.thins _
  | _ => exact thins_throw meets.thins _

theorem statements_thins (result : Value) (nodes : List Node)
    (may : ∀ node ∈ nodes, ¬ node.Quiet → scope.table ∉ gone)
    (rests : result.Rests gone m.store) :
    Thins gone m m' (statements rec scope result nodes) (statements rec scope' (result.thin gone) nodes)
      (Value.thin gone) (Value.Rests gone) := by
  induction nodes generalizing m m' result with
  | nil => exact thins_pure meets.thins rfl rests
  | cons node rest ih =>
    obtain ⟨mayFirst, mayRest⟩ := List.forall_mem_cons.1 may
    refine (below node meets mayFirst).bind fun v n n' passes rests' => ?_
    exact ih (passes.meets meets) v mayRest rests'

omit below meets in
theorem rests_of_apply {op : BinaryOp} {l r v : Value} (s : Store)
    (found : Operation.apply op l r = .ok v) : v.Rests gone s :=
  ⟨(Operation.kept_of_apply s found).2, Value.spared_of_isDatum (Operation.isDatum_of_apply found)⟩

theorem binary_thins (policy : Policy) (op : BinaryOp) (left right : Node)
    (mayLeft : ¬ left.Quiet → scope.table ∉ gone)
    (mayRight : ¬ right.Quiet → scope.table ∉ gone) :
    Thins gone m m' (binary policy rec op left right scope) (binary policy rec op left right scope')
      (Value.thin gone) (Value.Rests gone) := by
  refine (value_thins below meets left mayLeft).bind fun l n n' passes rests => ?_
  -- What is left to do if the left operand does not decide.
  have both : Thins gone n n'
      (do let r ← value rec right scope; Eval.ofExcept (Operation.apply op l r))
      (do let r ← value rec right scope'; Eval.ofExcept (Operation.apply op (l.thin gone) r))
      (Value.thin gone) (Value.Rests gone) := by
    refine (value_thins below (passes.meets meets) right mayRight).bind fun r k k' later rests' => ?_
    have first := rests.2.later later.grown
    exact thins_ofExcept later.thins
      (later.thins.store.apply op first.held rests'.2.held first.spared rests'.2.spared)
      fun v found => rests_of_apply _ found
  dsimp only
  split
  · cases l with
    | boolean b =>
      by_cases alone : decides op b
      · simp only [Value.thin, alone, if_true]
        exact thins_pure passes.thins rfl rests.2
      · simp only [Value.thin, alone]
        exact both
    | _ => exact thins_fail passes.thins _
  · exact both

theorem identifier_thins (parent : Node) (name : String) (may : ¬ parent.Quiet → scope.table ∉ gone) :
    Thins gone m m' (identifier rec parent name scope) (identifier rec parent name scope')
      (Value.thin gone) (Value.Rests gone) := by
  -- All three searches yield a slot; they differ in where they look.
  have slot {q q' : Store → Except Fault Slot} {n n' : Machine} (thins : n.Thins gone n')
      (same : q' n'.store = (q n.store).map (Slot.thin gone))
      (rests : ∀ slot, q n.store = .ok slot → slot.Held n.store ∧ slot.Spared gone) :
      Thins gone n n' (do return Value.slot (← Eval.query q)) (do return Value.slot (← Eval.query q'))
        (Value.thin gone) (Value.Rests gone) :=
    (thins_query (Q := fun slot s => slot.Held s ∧ slot.Spared gone) thins same rests).bind
      fun _ _ _ later rests => thins_pure later.thins rfl ⟨rests.1, rests.2⟩
  rw [identifier, identifier]
  split
  · have store := meets.thins.store
    exact slot meets.thins (store.lookup meets.frames name) fun _ found =>
      ⟨Store.held_of_lookup found, store.spared_of_lookup found⟩
  · refine (value_thins below meets parent may).bind fun v n n' passes rests => ?_
    have store := passes.thins.store
    obtain ⟨_, held, spared⟩ := rests
    cases v with
    | blueprint c =>
      exact slot passes.thins (store.classMember spared name) fun _ found =>
        ⟨Store.held_of_classMember found, Store.Thins.classMember_spared spared found⟩
    | object o =>
      exact slot passes.thins (store.objectMember spared name) fun _ found =>
        ⟨Store.held_of_objectMember held found, Store.Thins.objectMember_spared spared found⟩
    | _ => exact thins_fail passes.thins _

theorem usage_thins (node : Node) (may : ¬ node.Quiet → scope.table ∉ gone) :
    Thins gone m m' (usage rec node scope) (usage rec node scope') (Value.thin gone)
      (Value.Rests gone) := by
  refine (target_thins below meets node may).bind fun slot n n' passes rests => ?_
  have store := passes.thins.store
  exact thins_query passes.thins (store.read rests.2) fun v found =>
    ⟨(store.sound.read_kept rests.1 found).2, store.read_spared rests.2 found⟩

theorem assignment_thins (op : AssignOp) (variableNode operandNode : Node)
    (mayTarget : ¬ variableNode.Quiet → scope.table ∉ gone)
    (mayOperand : ¬ operandNode.Quiet → scope.table ∉ gone) :
    Thins gone m m' (assignment rec op variableNode operandNode scope)
      (assignment rec op variableNode operandNode scope') (Value.thin gone) (Value.Rests gone) := by
  refine (target_thins below meets variableNode mayTarget).bind fun slot n n' passes here => ?_
  have store {k k' : Machine} (thins : k.Thins gone k') {v : Value}
      (rests : v.Rests gone k.store) :
      Thins gone k k' (do Eval.write slot v; return v)
        (do Eval.write (slot.thin gone) (v.thin gone); return v.thin gone)
        (Value.thin gone) (Value.Rests gone) :=
    (thins_write thins here.2 rests).bind fun _ _ _ later _ =>
      thins_pure later.thins rfl (rests.later later.grown)
  have one : (Value.integer 1).Rests gone n.store := ⟨trivial, trivial⟩
  have value := value_thins below (passes.meets meets) operandNode mayOperand
  cases op.arithmetic? with
  | none =>
    dsimp only
    split
    · exact store passes.thins one
    · exact value.bind fun operand k k' later rests => store later.thins rests.2
  | some arithmetic =>
    -- The slot is read after its operand was evaluated, so at a later machine than it was found in.
    have combine {k k' : Machine} (thins : k.Thins gone k') (held : slot.Held k.store) {operand : Value}
        (rests : operand.Rests gone k.store) : Thins gone k k'
        (do
          let result ← Eval.ofExcept (Operation.apply arithmetic (← Eval.query (·.read slot)) operand)
          Eval.write slot result
          return result)
        (do
          let current ← Eval.query (·.read (slot.thin gone))
          let result ← Eval.ofExcept (Operation.apply arithmetic current (operand.thin gone))
          Eval.write (slot.thin gone) result
          return result) (Value.thin gone) (Value.Rests gone) := by
      refine (thins_query (Q := Value.Rests gone) thins (thins.store.read here.2) fun v found =>
        ⟨(thins.store.sound.read_kept held found).2, thins.store.read_spared here.2 found⟩).bind
        fun current l l' later old => ?_
      have rests := rests.later later.grown
      refine (thins_ofExcept (Q := Value.Rests gone) later.thins
        (later.thins.store.apply arithmetic old.held rests.held old.spared rests.spared)
        fun v found => rests_of_apply _ found).bind fun v _ _ last result => ?_
      exact store last.thins result
    dsimp only
    split
    · exact combine passes.thins here.1 one
    · exact value.bind fun operand k k' later rests =>
        combine later.thins (later.grown.heldSlot here.1) rests.2

/-! ### Calls -/

omit below meets in
theorem bindAll_thins {frame frame' : Scope} (bindings : List (String × Value))
    (inside : Meets gone frame frame' m m') (kept : frame.table ∉ gone)
    (rests : ∀ binding ∈ bindings, binding.2.Rests gone m.store) :
    Thins gone m m' (bindAll frame bindings)
      (bindAll frame' (bindings.map fun binding => (binding.1, binding.2.thin gone))) id
      fun _ _ => True := by
  induction bindings generalizing m m' with
  | nil => exact thins_pure inside.thins rfl trivial
  | cons binding rest ih =>
    obtain ⟨restsFirst, restsRest⟩ := List.forall_mem_cons.1 rests
    refine (thins_declare inside kept binding.1 .dynamic).bind fun slot n n' passes spared => ?_
    refine (thins_write passes.thins spared (restsFirst.later passes.grown)).bind fun _ l l' later _ => ?_
    have both := passes.trans later
    exact ih (both.meets inside) fun b member => (restsRest b member).later both.grown

theorem serve_thins (policy : Policy) (arguments : List Node)
    (may : ∀ node ∈ arguments, ¬ node.Quiet → scope.table ∉ gone) {host : Host} (ignores : host.IgnoresScope) :
    Thins gone m m' (serve policy rec arguments scope host) (serve policy rec arguments scope' host) id
      fun _ _ => True := by
  induction host generalizing m m' with
  | returns => exact thins_pure meets.thins rfl trivial
  | fails message => exact thins_throw meets.thins _
  | writes text next ih =>
    refine (thins_emit meets.thins policy text).bind fun wrote n n' passes _ => ?_
    exact ih wrote (passes.meets meets) (ignores wrote)
  | evaluates argument next ih =>
    rw [serve, serve]
    cases given : arguments[argument]? with
    | none => exact ih none meets (ignores none)
    | some node =>
      have mayNode := may node (List.mem_of_getElem? given)
      refine (below node meets mayNode).bind fun v n n' passes rests => Thins.get ?_
      have same : n'.store.text (v.thin gone) = n.store.text v := passes.thins.store.text rests.spared
      simp only [same, Value.kind_thin]
      exact ih _ (passes.meets meets) (ignores _)
  | looks next => exact ignores.elim

theorem callNative_thins (policy : Policy) {native : Native} (ignores : native.IgnoresScope)
    (arguments : List Node) (may : ∀ node ∈ arguments, ¬ node.Quiet → scope.table ∉ gone) :
    Thins gone m m' (callNative policy rec native arguments scope)
      (callNative policy rec native arguments scope') id fun _ _ => True := by
  cases native with
  | print ending =>
    refine (values_thins below meets arguments may).bind fun found n n' passes _ => ?_
    have same : (found.map (Value.thin gone)).map Value.text = found.map Value.text := by simp
    rw [same]
    refine (thins_emit passes.thins policy _).bind fun wrote l l' later _ => ?_
    cases wrote with
    | true => exact thins_pure later.thins rfl trivial
    | false => exact thins_throw later.thins _
  | host act => exact serve_thins below meets policy arguments may (ignores arguments.length)

theorem invoke_thins (policy : Policy) {f : FunctionValue} (closure : f.closure ∈ m.store.scopes)
    (spared : f.Spared gone) (arguments : List Node)
    (may : ∀ node ∈ arguments, ¬ node.Quiet → scope.table ∉ gone) :
    Thins gone m m' (invoke policy rec f arguments scope)
      (invoke policy rec (f.thin gone) arguments scope') id fun _ _ => True := by
  refine (thins_note meets.thins _).bind fun _ n n' passes _ => ?_
  have meets := passes.meets meets
  have enter : Thins gone n n'
      (do
        let found ← values rec scope arguments
        let frame ← Eval.nested f.closure
        bindAll frame (f.params.zip found)
        let _ ← rec f.body frame)
      (do
        let found ← values rec scope' arguments
        let frame ← Eval.nested (f.closure.thin gone)
        bindAll frame (f.params.zip found)
        let _ ← rec f.body frame) id fun _ _ => True := by
    refine (values_thins below meets arguments may).bind fun found k k' first rests => ?_
    -- The body runs in a frame inside the closure; the scope of the call matters to the arguments alone.
    have around : Meets gone f.closure (f.closure.thin gone) k k' :=
      ⟨first.thins, (passes.trans first).grown.mem closure, Scope.frames_thin spared.closure⟩
    refine Thins.nested around fun frame l l' second inside kept _ => ?_
    rw [List.zip_map_right]
    refine (bindAll_thins (f.params.zip found) inside kept fun binding member => ?_).bind
      fun _ _ _ third _ => ?_
    · exact (rests _ (List.of_mem_zip member).2).later second.grown
    · refine (below f.body (third.meets inside) fun _ => kept).bind fun _ _ _ last _ => ?_
      exact thins_pure last.thins rfl trivial
  have native : (f.thin gone).native = f.native := rfl
  have params : (f.thin gone).params = f.params := rfl
  simp only [native, params]
  cases is : f.native with
  | some native => exact callNative_thins below meets policy (spared.discreet native is) arguments may
  | none =>
    dsimp only
    split
    · exact thins_fail passes.thins _
    · exact enter

theorem call_thins (policy : Policy) (callee : Node) (arguments : List Node)
    (mayCallee : ¬ callee.Quiet → scope.table ∉ gone)
    (mayArguments : ∀ node ∈ arguments, ¬ node.Quiet → scope.table ∉ gone) :
    Thins gone m m' (call policy rec callee arguments scope) (call policy rec callee arguments scope')
      (Value.thin gone) (Value.Rests gone) := by
  refine (value_thins below meets callee mayCallee).bind fun v n n' passes rests => ?_
  obtain ⟨_, held, spared⟩ := rests
  cases v with
  | function f =>
    refine (invoke_thins below (passes.meets meets) policy held spared arguments mayArguments).bind ?_
    exact fun _ _ _ later _ => thins_pure later.thins rfl ⟨trivial, trivial⟩
  | _ => exact thins_fail passes.thins _

/-! ### Classes and objects -/

omit meets in
theorem instantiate_thins (thins : m.Thins gone m') {c : ClassValue} (held : c.Held m.store)
    (spared : c.Spared gone) :
    Thins gone m m' (instantiate rec c) (instantiate rec (c.thin gone)) (ObjectValue.thin gone)
      fun o s => o.Held s ∧ o.Spared gone := by
  have around : Meets gone c.members (c.members.thin gone) m m' :=
    ⟨thins, held.members, Scope.frames_thin spared.members⟩
  refine Thins.nested around fun inner n n' first inside kept parent => ?_
  refine (each_thins below inside c.fields fun _ _ _ => kept).bind fun _ k k' second _ => Thins.get ?_
  have same : (k'.store.declared (inner.thin gone)).length = (k.store.declared inner).length := by
    rw [second.thins.store.declared kept, Table.length_thin]
  dsimp only
  rw [same]
  refine (thins_note second.thins _).bind fun _ l l' third _ => ?_
  have since := second.trans third
  exact thins_pure third.thins rfl ⟨⟨since.grown.heldClass (first.grown.heldClass held),
    since.grown.mem inside.here, parent⟩, spared, kept⟩

theorem instantiation_thins (blueprint : Node) (arguments : List Node)
    (may : ¬ blueprint.Quiet → scope.table ∉ gone) :
    Thins gone m m' (instantiation rec blueprint arguments scope)
      (instantiation rec blueprint arguments scope') (Value.thin gone) (Value.Rests gone) := by
  refine (value_thins below meets blueprint may).bind fun v n n' passes rests => ?_
  obtain ⟨_, held, spared⟩ := rests
  cases v with
  | blueprint c =>
    dsimp only [Value.thin]
    split
    · exact thins_fail passes.thins _
    · refine (instantiate_thins below passes.thins held spared).bind fun o k k' later made => ?_
      exact thins_pure later.thins rfl ⟨made.1, made.2⟩
  | _ => exact thins_fail passes.thins _

omit below in
theorem newFunction_thins (kept : scope.table ∉ gone) (modifiers : Modifiers) (name : String)
    (params : List String) (body : Node) :
    Thins gone m m' (newFunction modifiers name params body scope)
      (newFunction modifiers name params body scope') (FunctionValue.thin gone)
      fun f _ => f.closure = scope ∧ f.Spared gone := by
  refine (thins_stamp meets.thins).bind fun _ _ _ later _ => ?_
  obtain rfl := Scope.eq_thin kept meets.frames
  exact thins_pure later.thins rfl ⟨rfl, kept, by rintro _ ⟨⟩⟩

omit meets in
theorem member_thins : Recursion.Thins gone (member rec) := by
  intro node scope scope' m m' meets may
  cases node with
  | variableDeclaration | functionDeclaration | classDeclaration => exact below _ meets may
  | _ => exact thins_throw meets.thins _

theorem methods_thins (className : String) (kept : scope.table ∉ gone) {collected : List FunctionValue}
    (nodes : List Node) (spared : ∀ f ∈ collected, f.Spared gone) :
    Thins gone m m' (methods rec className scope collected nodes)
      (methods rec className scope' (collected.map (FunctionValue.thin gone)) nodes)
      (List.map (FunctionValue.thin gone)) fun fs _ => ∀ f ∈ fs, f.Spared gone := by
  induction nodes generalizing m m' collected with
  | nil => exact thins_pure meets.thins rfl spared
  | cons node rest ih =>
    -- A static function is declared like any other, and not collected.
    have pass : Thins gone m m'
        (do let _ ← rec node scope; methods rec className scope collected rest)
        (do
          let _ ← rec node scope'
          methods rec className scope' (collected.map (FunctionValue.thin gone)) rest)
        (List.map (FunctionValue.thin gone)) fun fs _ => ∀ f ∈ fs, f.Spared gone :=
      (below node meets fun _ => kept).bind fun _ _ _ passes _ =>
        ih (passes.meets meets) spared
    cases node with
    | functionDeclaration span modifiers name params body =>
      have taken : (collected.map (FunctionValue.thin gone)).any (·.name = name)
          = collected.any (·.name = name) := by
        rw [List.any_map]
        rfl
      simp only [methods, taken]
      split
      · exact pass
      · split
        · exact thins_throw meets.thins _
        · refine (newFunction_thins meets kept modifiers name params body).bind
            fun f n n' passes made => ?_
          have spared : ∀ g ∈ collected ++ [f], g.Spared gone := fun g member =>
            (List.mem_append.1 member).elim (spared g) fun new => List.mem_singleton.1 new ▸ made.2
          have collects := ih (passes.meets meets) spared
          rw [List.map_append] at collects
          exact collects
    | _ => exact thins_throw meets.thins _

theorem newClass_thins (modifiers : Modifiers) (name : String) (fields functions classes : List Node) :
    Thins gone m m' (newClass rec modifiers name fields functions classes scope)
      (newClass rec modifiers name fields functions classes scope') (ClassValue.thin gone)
      fun c _ => c.Spared gone := by
  refine Thins.nested meets fun members n n' first inside kept _ => ?_
  have anywhere (nodes : List Node) : ∀ node ∈ nodes, ¬ node.Quiet → members.table ∉ gone :=
    fun _ _ _ => kept
  refine (each_thins (member_thins below) inside classes (anywhere _)).bind fun _ _ _ second _ => ?_
  have inside := second.meets inside
  refine (methods_thins below inside name kept functions (by simp)).bind fun prototype _ _ third spared => ?_
  have inside := third.meets inside
  refine (each_thins (member_thins below) inside _ (anywhere _)).bind fun _ k k' fourth _ => Thins.get ?_
  have same : (k'.store.declared (members.thin gone)).length = (k.store.declared members).length := by
    rw [fourth.thins.store.declared kept, Table.length_thin]
  simp only [same, List.length_map]
  refine (thins_note fourth.thins _).bind fun _ _ _ fifth _ => ?_
  exact thins_pure fifth.thins rfl ⟨kept, spared⟩

/-! ### Declarations and control flow -/

theorem variableDeclaration_thins (name : String) (type : DeclaredType) (initial : Node)
    (kept : scope.table ∉ gone) :
    Thins gone m m' (variableDeclaration rec name type initial scope)
      (variableDeclaration rec name type initial scope') (Value.thin gone) (Value.Rests gone) := by
  refine (thins_declare meets kept name type).bind fun _ n n' passes _ => ?_
  exact below initial (passes.meets meets) fun _ => kept

omit below in
theorem functionDeclaration_thins (modifiers : Modifiers) (name : String) (params : List String)
    (body : Node) (kept : scope.table ∉ gone) :
    Thins gone m m' (functionDeclaration modifiers name params body scope)
      (functionDeclaration modifiers name params body scope') (Value.thin gone) (Value.Rests gone) := by
  refine (thins_declare meets kept name .function).bind fun slot _ _ first here => ?_
  have meets := first.meets meets
  refine (newFunction_thins meets kept modifiers name params body).bind fun f n n' second made => ?_
  have rests : (Value.function f).Rests gone n.store := by
    refine ⟨?_, made.2⟩
    rw [Value.Held, made.1]
    exact second.grown.mem meets.here
  refine (thins_write second.thins here rests).bind fun _ _ _ third _ => ?_
  exact thins_pure third.thins rfl (rests.later third.grown)

theorem classDeclaration_thins (leads : rec.Leads) (modifiers : Modifiers) (name : String)
    (fields functions classes : List Node) (kept : scope.table ∉ gone) :
    Thins gone m m' (classDeclaration rec modifiers name fields functions classes scope)
      (classDeclaration rec modifiers name fields functions classes scope') (Value.thin gone)
      (Value.Rests gone) := by
  refine (thins_declare meets kept name .blueprint).bind fun slot _ _ first here => ?_
  have meets := first.meets meets
  have made := (newClass_thins below meets modifiers name fields functions classes).leads
    (newClass_leads leads modifiers name fields functions classes meets.stands)
  refine made.bind fun c n n' second made => ?_
  have rests : (Value.blueprint c).Rests gone n.store := ⟨made.1, made.2⟩
  refine (thins_write second.thins here rests).bind fun _ _ _ third _ => ?_
  exact thins_pure third.thins rfl (rests.later third.grown)

theorem block_thins (body : Node) :
    Thins gone m m' (block rec body scope) (block rec body scope') id fun _ _ => True := by
  refine Thins.nested meets fun inner n n' _ inside kept _ => ?_
  exact (below body inside fun _ => kept).bind fun _ _ _ later _ => thins_pure later.thins rfl trivial

theorem whileLoop_thins (budget : Nat) (test body : Node) (may : ¬ test.Quiet → scope.table ∉ gone) :
    Thins gone m m' (whileLoop rec budget test body scope) (whileLoop rec budget test body scope')
      (Value.thin gone) (Value.Rests gone) := by
  refine (thins_rounds meets.thins (fun n n' passes => ?_) budget).bind
    fun _ _ _ later _ => thins_pure later.thins rfl ⟨trivial, trivial⟩
  refine (condition_thins below (passes.meets meets) test may).bind fun holds k k' later _ => ?_
  cases holds with
  | true =>
    refine (block_thins below ((passes.trans later).meets meets) body).bind ?_
    exact fun _ _ _ last _ => thins_pure last.thins rfl trivial
  | false => exact thins_pure later.thins rfl trivial

theorem doWhileLoop_thins (budget : Nat) (test body : Node) (may : ¬ test.Quiet → scope.table ∉ gone) :
    Thins gone m m' (doWhileLoop rec budget test body scope) (doWhileLoop rec budget test body scope')
      (Value.thin gone) (Value.Rests gone) := by
  refine (thins_rounds meets.thins (fun n n' passes => ?_) budget).bind
    fun _ _ _ later _ => thins_pure later.thins rfl ⟨trivial, trivial⟩
  refine (block_thins below (passes.meets meets) body).bind fun _ k k' later _ => ?_
  exact condition_thins below ((passes.trans later).meets meets) test may

theorem forLoop_thins (budget : Nat) (declaration test round body : Node) :
    Thins gone m m' (forLoop rec budget declaration test round body scope)
      (forLoop rec budget declaration test round body scope') (Value.thin gone) (Value.Rests gone) := by
  refine Thins.nested meets fun loop _ _ _ inside kept _ => ?_
  refine (below declaration inside fun _ => kept).bind fun _ _ _ first _ => ?_
  have inside := first.meets inside
  refine (thins_rounds inside.thins (fun _ _ passes => ?_) budget).bind
    fun _ _ _ later _ => thins_pure later.thins rfl ⟨trivial, trivial⟩
  have inside := passes.meets inside
  refine (condition_thins below inside test fun _ => kept).bind fun holds _ _ second _ => ?_
  cases holds with
  | true =>
    have inside := second.meets inside
    refine (block_thins below inside body).bind fun _ _ _ third _ => ?_
    refine (below round (third.meets inside) fun _ => kept).bind fun _ _ _ last _ => ?_
    exact thins_pure last.thins rfl trivial
  | false => exact thins_pure second.thins rfl trivial

theorem branch_thins (test body alternative : Node) :
    Thins gone m m' (branch rec test body alternative scope) (branch rec test body alternative scope')
      (Value.thin gone) (Value.Rests gone) := by
  refine Thins.nested meets fun inner _ _ _ inside kept _ => ?_
  refine (condition_thins below inside test fun _ => kept).bind fun holds _ _ first _ => ?_
  have inside := first.meets inside
  cases holds with
  | true => exact below body inside fun _ => kept
  | false => exact below alternative inside fun _ => kept

/-! ## All nodes -/

theorem rule_thins (leads : rec.Leads) (policy : Policy) (budget : Nat) (node : Node)
    (may : ¬ node.Quiet → scope.table ∉ gone) :
    Thins gone m m' (rule policy rec budget node scope) (rule policy rec budget node scope')
      (Value.thin gone) (Value.Rests gone) := by
  -- A node that is not quiet needs a scope that is there, and so do the nodes whose operands are not quiet.
  cases node with
  | absent | null | integer | double | boolean =>
    exact thins_pure meets.thins rfl ⟨trivial, trivial⟩
  | foreign => exact thins_fail meets.thins _
  | tree span children =>
    have kept := may (by rintro ⟨⟩)
    exact statements_thins below meets .null children (fun _ _ _ => kept) ⟨trivial, trivial⟩
  | binary span op left right =>
    refine binary_thins below meets policy op left right (fun loud => may ?_) fun loud => may ?_
    · rintro ⟨⟩
      exact loud ‹_›
    · rintro ⟨⟩
      exact loud ‹_›
  | identifier span parent name =>
    refine identifier_thins below meets parent name fun loud => may ?_
    rintro ⟨⟩
    exact loud ‹_›
  | usage span target =>
    refine usage_thins below meets target fun loud => may ?_
    rintro ⟨⟩
    exact loud ‹_›
  | assignment span op target value =>
    refine assignment_thins below meets op target value (fun loud => may ?_) fun loud => may ?_
    · rintro ⟨⟩
      exact loud ‹_›
    · rintro ⟨⟩
      exact loud ‹_›
  | call span callee arguments =>
    refine call_thins below meets policy callee arguments (fun loud => may ?_)
      fun node member loud => may ?_
    · rintro ⟨⟩
      exact loud ‹_›
    · rintro ⟨⟩
      exact loud ((‹∀ node ∈ arguments, node.Quiet›) node member)
  | instantiation span blueprint arguments =>
    refine instantiation_thins below meets blueprint arguments fun loud => may ?_
    rintro ⟨⟩
    exact loud ‹_›
  | variableDeclaration span modifiers name type initial =>
    exact variableDeclaration_thins below meets name type initial (may (by rintro ⟨⟩))
  | whileLoop span test body =>
    refine whileLoop_thins below meets budget test body fun loud => may ?_
    rintro ⟨⟩
    exact loud ‹_›
  | doWhileLoop span test body =>
    refine doWhileLoop_thins below meets budget test body fun loud => may ?_
    rintro ⟨⟩
    exact loud ‹_›
  | forLoop span declaration test round body =>
    exact forLoop_thins below meets budget declaration test round body
  | branch span test body alternative => exact branch_thins below meets test body alternative
  | functionDeclaration span modifiers name params body =>
    exact functionDeclaration_thins meets modifiers name params body (may (by rintro ⟨⟩))
  | classDeclaration span modifiers name fields functions classes =>
    exact classDeclaration_thins below meets leads modifiers name fields functions classes
      (may (by rintro ⟨⟩))

end Rules

/-- Every node is evaluated alike with and without the scopes that are gone. -/
theorem eval_thins (gone : List TableId) (policy : Policy) (budget : Nat) :
    Recursion.Thins gone (eval policy budget) := by
  induction budget with
  | zero => exact fun _ _ _ _ _ meets _ => thins_throw meets.thins _
  | succ budget ih =>
    intro node scope scope' m m' meets may
    rw [eval, eval]
    have inner := rule_thins ih meets (eval_leads policy budget) policy budget node may
    exact inner.blaming node.span

end Evaluator

end ClassScript
