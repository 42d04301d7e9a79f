import ClassScript.Syntax.Node
import ClassScript.Token

/-! # Trees up to their spans

`Node.mapSpans` replaces every span of a tree.  Two replacements matter: `Node.shift` moves a tree to
another place of a source, and `Node.erase` forgets where it stood.
-/

namespace ClassScript

/-! ## Moving places -/

def Position.shift (bytes lines : Int) (p : Position) : Position :=
  ⟨p.offset + bytes, p.line + lines, p.column⟩

def Span.shift (bytes lines : Int) (s : Span) : Span :=
  ⟨s.first.shift bytes lines, s.last.shift bytes lines⟩

def Token.shift (bytes lines : Int) (t : Token) : Token :=
  { t with span := t.span.shift bytes lines }

section Shift

variable (bytes lines : Int)

@[simp] theorem Span.first_shift (s : Span) :
    (s.shift bytes lines).first = s.first.shift bytes lines := rfl

@[simp] theorem Span.last_shift (s : Span) :
    (s.shift bytes lines).last = s.last.shift bytes lines := rfl

@[simp] theorem Token.kind_shift (t : Token) : (t.shift bytes lines).kind = t.kind := rfl

@[simp] theorem Token.lexeme_shift (t : Token) : (t.shift bytes lines).lexeme = t.lexeme := rfl

@[simp] theorem Token.span_shift (t : Token) :
    (t.shift bytes lines).span = t.span.shift bytes lines := rfl

/-- Offsets keep their order when they are moved together. -/
@[simp] theorem Span.cover_shift (s other : Span) :
    (s.shift bytes lines).cover (other.shift bytes lines) = (s.cover other).shift bytes lines := by
  simp only [Span.cover, Span.shift, Position.shift, Int.add_lt_add_iff_right, Span.mk.injEq]
  constructor <;> split <;> rfl

@[simp] theorem Position.shift_zero (p : Position) : p.shift 0 0 = p := by
  simp [Position.shift]

@[simp] theorem Span.shift_zero (s : Span) : s.shift 0 0 = s := by
  simp [Span.shift]

@[simp] theorem Token.shift_zero (t : Token) : t.shift 0 0 = t := by
  simp [Token.shift]

end Shift

namespace Node

/-! ## Induction over trees -/

/-- What holds of every tree whose parts it holds of holds of all trees. -/
@[elab_as_elim]
theorem induct {motive : Node → Prop}
    (absent : motive .absent)
    (foreign : ∀ span typeName, motive (.foreign span typeName))
    (tree : ∀ span children, (∀ n ∈ children, motive n) → motive (.tree span children))
    (integer : ∀ span value, motive (.integer span value))
    (double : ∀ span value, motive (.double span value))
    (boolean : ∀ span value, motive (.boolean span value))
    (null : ∀ span, motive (.null span))
    (binary : ∀ span op left right, motive left → motive right →
      motive (.binary span op left right))
    (identifier : ∀ span parent name, motive parent → motive (.identifier span parent name))
    (usage : ∀ span target, motive target → motive (.usage span target))
    (assignment : ∀ span op target value, motive target → motive value →
      motive (.assignment span op target value))
    (call : ∀ span callee arguments, motive callee → (∀ n ∈ arguments, motive n) →
      motive (.call span callee arguments))
    (instantiation : ∀ span blueprint arguments, motive blueprint → (∀ n ∈ arguments, motive n) →
      motive (.instantiation span blueprint arguments))
    (variableDeclaration : ∀ span modifiers name type initial, motive initial →
      motive (.variableDeclaration span modifiers name type initial))
    (whileLoop : ∀ span condition body, motive condition → motive body →
      motive (.whileLoop span condition body))
    (doWhileLoop : ∀ span condition body, motive condition → motive body →
      motive (.doWhileLoop span condition body))
    (forLoop : ∀ span declaration condition round body, motive declaration → motive condition →
      motive round → motive body → motive (.forLoop span declaration condition round body))
    (branch : ∀ span condition body alternative, motive condition → motive body →
      motive alternative → motive (.branch span condition body alternative))
    (functionDeclaration : ∀ span modifiers name params body, motive body →
      motive (.functionDeclaration span modifiers name params body))
    (classDeclaration : ∀ span modifiers name fields methods classes, (∀ n ∈ fields, motive n) →
      (∀ n ∈ methods, motive n) → (∀ n ∈ classes, motive n) →
      motive (.classDeclaration span modifiers name fields methods classes))
    (n : Node) : motive n :=
  @Node.rec motive (fun ns => ∀ n ∈ ns, motive n) absent foreign tree integer
    double boolean null binary identifier usage assignment call instantiation variableDeclaration
    whileLoop doWhileLoop forLoop branch functionDeclaration classDeclaration (by simp)
    (fun _ _ head rest => List.forall_mem_cons.2 ⟨head, rest⟩) n

/-! ## Replacing spans -/

mutual

def mapSpans (f : Span → Span) : Node → Node
  | .absent => .absent
  | .foreign span typeName => .foreign (f span) typeName
  | .tree span children => .tree (f span) (mapAllSpans f children)
  | .integer span value => .integer (f span) value
  | .double span value => .double (f span) value
  | .boolean span value => .boolean (f span) value
  | .null span => .null (f span)
  | .binary span op left right => .binary (f span) op (left.mapSpans f) (right.mapSpans f)
  | .identifier span parent name => .identifier (f span) (parent.mapSpans f) name
  | .usage span target => .usage (f span) (target.mapSpans f)
  | .assignment span op target value =>
    .assignment (f span) op (target.mapSpans f) (value.mapSpans f)
  | .call span callee arguments => .call (f span) (callee.mapSpans f) (mapAllSpans f arguments)
  | .instantiation span blueprint arguments =>
    .instantiation (f span) (blueprint.mapSpans f) (mapAllSpans f arguments)
  | .variableDeclaration span modifiers name type initial =>
    .variableDeclaration (f span) modifiers name type (initial.mapSpans f)
  | .whileLoop span condition body => .whileLoop (f span) (condition.mapSpans f) (body.mapSpans f)
  | .doWhileLoop span condition body =>
    .doWhileLoop (f span) (condition.mapSpans f) (body.mapSpans f)
  | .forLoop span declaration condition round body =>
    .forLoop (f span) (declaration.mapSpans f) (condition.mapSpans f) (round.mapSpans f)
      (body.mapSpans f)
  | .branch span condition body alternative =>
    .branch (f span) (condition.mapSpans f) (body.mapSpans f) (alternative.mapSpans f)
  | .functionDeclaration span modifiers name params body =>
    .functionDeclaration (f span) modifiers name params (body.mapSpans f)
  | .classDeclaration span modifiers name fields methods classes =>
    .classDeclaration (f span) modifiers name (mapAllSpans f fields) (mapAllSpans f methods)
      (mapAllSpans f classes)

def mapAllSpans (f : Span → Span) : List Node → List Node
  | [] => []
  | n :: rest => n.mapSpans f :: mapAllSpans f rest

end

@[simp] theorem mapAllSpans_eq_map (f : Span → Span) (ns : List Node) :
    mapAllSpans f ns = ns.map (mapSpans f) := by
  induction ns with
  | nil => rfl
  | cons n ns ih => simp [mapAllSpans, ih]

@[simp] theorem isAbsent_mapSpans (f : Span → Span) (n : Node) :
    (n.mapSpans f).isAbsent = n.isAbsent := by
  cases n <;> rfl

theorem span_mapSpans (f : Span → Span) {n : Node} (present : n.isAbsent = false) :
    (n.mapSpans f).span = f n.span := by
  cases n with
  | absent => cases present
  | _ => rfl

theorem mapSpans_mapSpans (f g : Span → Span) (n : Node) :
    (n.mapSpans f).mapSpans g = n.mapSpans (g ∘ f) := by
  induction n using induct <;> simp_all [mapSpans]

theorem mapSpans_id (n : Node) : n.mapSpans id = n := by
  have mapAll {ns : List Node} (each : ∀ n ∈ ns, n.mapSpans id = n) : ns.map (mapSpans id) = ns := by
    rw [List.map_congr_left each, List.map_id']
  induction n using induct <;> simp_all [mapSpans]

def shift (bytes lines : Int) (n : Node) : Node := n.mapSpans (Span.shift bytes lines)

def erase (n : Node) : Node := n.mapSpans fun _ => .none

@[simp] theorem isAbsent_erase (n : Node) : n.erase.isAbsent = n.isAbsent := isAbsent_mapSpans _ n

@[simp] theorem span_erase (n : Node) : n.erase.span = .none := by
  cases n <;> rfl

theorem erase_tree (span : Span) (children : List Node) :
    (Node.tree span children).erase = .tree .none (children.map erase) := by
  rw [erase, mapSpans, mapAllSpans_eq_map]
  rfl

theorem erase_call (span : Span) (callee : Node) (arguments : List Node) :
    (Node.call span callee arguments).erase = .call .none callee.erase (arguments.map erase) := by
  rw [erase, mapSpans, mapAllSpans_eq_map]
  rfl

theorem erase_instantiation (span : Span) (blueprint : Node) (arguments : List Node) :
    (Node.instantiation span blueprint arguments).erase =
      .instantiation .none blueprint.erase (arguments.map erase) := by
  rw [erase, mapSpans, mapAllSpans_eq_map]
  rfl

theorem erase_classDeclaration (span : Span) (modifiers : Modifiers) (name : String)
    (fields methods classes : List Node) :
    (Node.classDeclaration span modifiers name fields methods classes).erase =
      .classDeclaration .none modifiers name (fields.map erase) (methods.map erase)
        (classes.map erase) := by
  rw [erase, mapSpans, mapAllSpans_eq_map, mapAllSpans_eq_map, mapAllSpans_eq_map]
  rfl

@[simp] theorem erase_shift (bytes lines : Int) (n : Node) : (n.shift bytes lines).erase = n.erase :=
  mapSpans_mapSpans _ _ n

@[simp] theorem shift_zero (n : Node) : n.shift 0 0 = n := by
  rw [shift, show Span.shift 0 0 = id from funext Span.shift_zero, mapSpans_id]

end Node

end ClassScript
