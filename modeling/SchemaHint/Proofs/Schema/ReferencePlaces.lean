import SchemaHint.Proofs.Schema.Acceptance

/-!
# The places of references

Where the types and directives of a schema use the names of types, and in which order these places
are visited.

* `Place`, `Place.reference?` : the places, and the reference that stands at each;
* `Place.Before` : the order of the visit;
* `placedReferences` : all places with their references, one after the other;
* `map_snd_placedReferences`, `mem_placedReferences_iff`, `ordered_placedReferences` : the list has
  all references as they are checked, each at its place, and in order.
-/

namespace SchemaHint

set_option autoImplicit false

/-! ## Places -/

/-- A place where a type or a directive uses the name of a type. Types, directives and their members
are told by their positions. -/
inductive Place
  | interface (type index : Nat)
  | field (type field : Nat)
  | argument (type field argument : Nat)
  | inputField (type field : Nat)
  | member (type index : Nat)
  | directiveArgument (directive argument : Nat)
deriving DecidableEq, Repr

namespace Place

/-- The way to a place. All types come before all directives, the interfaces of a type before its
fields, and the type of a field before those of its arguments. -/
def path : Place → List Nat
  | .interface t i => [0, t, 0, i]
  | .field t f => [0, t, 1, f, 0]
  | .argument t f a => [0, t, 1, f, 1, a]
  | .inputField t f => [0, t, 2, f]
  | .member t i => [0, t, 3, i]
  | .directiveArgument d a => [1, d, a]

/-- A place is visited before another one: the first position in which they differ is smaller. -/
def Before (p q : Place) : Prop := p.path < q.path

instance (p q : Place) : Decidable (p.Before q) := inferInstanceAs (Decidable (p.path < q.path))

/-- The use of a type name that stands at a place. -/
def reference? (types : Keyed NamedType) (directives : Keyed Directive) :
    Place → Option Reference
  | .interface t i => do
    let type ← types.values[t]?
    let names ← type.interfaceNames?
    let name ← names[i]?
    return ⟨name, type.location, .interfaceOf type.name⟩
  | .field t f => do
    let type ← types.values[t]?
    let fields ← type.fields?
    let field ← fields.values[f]?
    return ⟨field.type.innermostName, field.type.innermostLocation,
      .outputField type.name field.name field.location⟩
  | .argument t f a => do
    let type ← types.values[t]?
    let fields ← type.fields?
    let field ← fields.values[f]?
    let argument ← field.parameters.values[a]?
    return ⟨argument.type.innermostName, argument.type.innermostLocation,
      .parameter argument.name argument.location⟩
  | .inputField t f => do
    let type ← types.values[t]?
    let fields ← type.inputFields?
    let field ← fields.values[f]?
    return ⟨field.type.innermostName, field.type.innermostLocation,
      .inputField type.name field.name field.location⟩
  | .member t i => do
    let type ← types.values[t]?
    let members ← type.members?
    let member ← members.entries[i]?
    return ⟨member.1, member.2, .memberOf type.name⟩
  | .directiveArgument d a => do
    let directive ← directives.values[d]?
    let argument ← directive.parameters.values[a]?
    return ⟨argument.type.innermostName, argument.type.innermostLocation,
      .parameter argument.name argument.location⟩

end Place

/-! ## All places in order -/

/-- The places of a field. -/
def placedOfField (t f : Nat) (typeName : String) (field : Field) : List (Place × Reference) :=
  [[(.field t f, .ofAnnotated field.type (.outputField typeName field.name field.location))],
    field.parameters.values.mapIdx fun a p => (.argument t f a, .ofParameter p)].flatten

/-- The places of a type. -/
def placedOfType (t : Nat) (type : NamedType) : List (Place × Reference) :=
  [(type.interfaceNames?.elim [] id).mapIdx fun i name =>
      (.interface t i, ⟨name, type.location, .interfaceOf type.name⟩),
    ((type.fields?.elim [] Keyed.values).mapIdx fun f field =>
      placedOfField t f type.name field).flatten,
    (type.inputFields?.elim [] Keyed.values).mapIdx fun f field =>
      (.inputField t f, .ofAnnotated field.type (.inputField type.name field.name field.location)),
    (type.members?.elim [] Keyed.entries).mapIdx fun i m =>
      (.member t i, ⟨m.1, m.2, .memberOf type.name⟩)].flatten

/-- The places of a directive. -/
def placedOfDirective (d : Nat) (directive : Directive) : List (Place × Reference) :=
  directive.parameters.values.mapIdx fun a p => (.directiveArgument d a, .ofParameter p)

/-- Every place with the reference that stands there. -/
def placedReferences (types : Keyed NamedType) (directives : Keyed Directive) :
    List (Place × Reference) :=
  [(types.values.mapIdx placedOfType).flatten,
    (directives.values.mapIdx placedOfDirective).flatten].flatten

section Numbered
variable {α β γ : Type}

theorem map_mapIdx {f : Nat → α → β} {g : β → γ} {h : α → γ} (hfg : ∀ i a, g (f i a) = h a)
    (l : List α) : (l.mapIdx f).map g = l.map h := by
  apply List.ext_getElem?
  intro i
  rw [List.getElem?_map, List.getElem?_mapIdx, Option.map_map, List.getElem?_map]
  congr 1
  funext a
  exact hfg i a

theorem map_snd_mapIdx (label : Nat → β) (g : α → γ) (l : List α) :
    (l.mapIdx fun i a => (label i, g a)).map Prod.snd = l.map g := by
  apply map_mapIdx
  intro i a
  rfl

theorem map_snd_flatten_mapIdx {f : Nat → α → List (β × γ)} {g : α → List γ}
    (hfg : ∀ i a, (f i a).map Prod.snd = g a) (l : List α) :
    (l.mapIdx f).flatten.map Prod.snd = l.flatMap g := by
  rw [List.map_flatten, map_mapIdx hfg, List.flatMap_def]

theorem mem_mapIdx_iff {f : Nat → α → β} {l : List α} {b : β} :
    b ∈ l.mapIdx f ↔ ∃ i a, l[i]? = some a ∧ f i a = b := by
  simp only [List.mem_iff_getElem?, List.getElem?_mapIdx, Option.map_eq_some_iff]

theorem mem_flatten_mapIdx_iff {f : Nat → α → List β} {l : List α} {b : β} :
    b ∈ (l.mapIdx f).flatten ↔ ∃ i a, l[i]? = some a ∧ b ∈ f i a := by
  simp only [List.mem_flatten, mem_mapIdx_iff]
  constructor
  · rintro ⟨-, ⟨i, a, ha, rfl⟩, hb⟩
    exact ⟨i, a, ha, hb⟩
  · rintro ⟨i, a, ha, hb⟩
    exact ⟨_, ⟨i, a, ha, rfl⟩, hb⟩

end Numbered

theorem map_snd_placedOfField (t f : Nat) (typeName : String) (field : Field) :
    (placedOfField t f typeName field).map Prod.snd = Reference.ofField typeName field := by
  simp [placedOfField, Reference.ofField, map_snd_mapIdx]

theorem map_snd_placedOfType (t : Nat) (type : NamedType) :
    (placedOfType t type).map Prod.snd = Reference.ofType type := by
  have hfields := fun l => map_snd_flatten_mapIdx
    (fun f field => map_snd_placedOfField t f type.name field) l
  simp only [placedOfType, List.flatten_cons, List.flatten_nil, List.append_nil, List.map_append,
    map_snd_mapIdx, hfields]
  -- every kind has members of one or two sorts only
  cases type with
  | builtin s => rfl
  | defined h body =>
      cases body with
      | scalar => rfl
      | enum values => rfl
      | inputObject fields => exact List.append_nil _
      | interface fields interfaces =>
          show _ ++ (_ ++ []) = _
          rw [List.append_nil]
          rfl
      | object fields interfaces =>
          show _ ++ (_ ++ []) = _
          rw [List.append_nil]
          rfl
      | union members => rfl

/-- All references are placed, in the order in which they are checked. -/
theorem map_snd_placedReferences (types : Keyed NamedType) (directives : Keyed Directive) :
    (placedReferences types directives).map Prod.snd = allReferences types directives := by
  have hdirective : ∀ d directive,
      (placedOfDirective d directive).map Prod.snd = Reference.ofDirective directive :=
    fun d directive => map_snd_mapIdx _ _ _
  rw [placedReferences, List.flatten_cons, List.flatten_cons, List.flatten_nil, List.append_nil,
    List.map_append, map_snd_flatten_mapIdx map_snd_placedOfType,
    map_snd_flatten_mapIdx hdirective, allReferences]

/-! ### What stands at a place -/

theorem exists_getElem?_elim_iff {α β : Type} {o : Option α} {g : α → List β} {i : Nat}
    {q : β → Prop} :
    (∃ b, (o.elim [] g)[i]? = some b ∧ q b) ↔ ∃ a, o = some a ∧ ∃ b, (g a)[i]? = some b ∧ q b := by
  cases o with
  | none => simp
  | some a => simp

/-- A reference is placed where it stands. -/
theorem mem_placedReferences_iff {types : Keyed NamedType} {directives : Keyed Directive}
    {p : Place} {r : Reference} :
    (p, r) ∈ placedReferences types directives ↔ p.reference? types directives = some r := by
  simp only [placedReferences, placedOfType, placedOfField, placedOfDirective,
    Reference.ofParameter, Reference.ofAnnotated, List.flatten_cons, List.flatten_nil,
    List.append_nil, List.mem_append, List.mem_singleton, mem_flatten_mapIdx_iff, mem_mapIdx_iff,
    exists_getElem?_elim_iff, Prod.mk.injEq, @eq_comm _ p, @eq_comm _ r]
  -- only the list of its own sort has a place of the given form
  cases p with
  | _ => simp [Place.reference?, Option.bind_eq_some_iff]

/-! ### The order of the places -/

/-- The places of a list lie behind a way and come in order. -/
structure Ordered (way : List Nat) (placed : List (Place × Reference)) : Prop where
  behind : ∀ x ∈ placed, way <+: x.1.path
  sorted : placed.Pairwise fun x y => x.1.Before y.1

theorem lt_of_fork {way p q : List Nat} {i j : Nat} (hij : i < j) (hp : way ++ [i] <+: p)
    (hq : way ++ [j] <+: q) : p < q := by
  obtain ⟨p, rfl⟩ := hp
  obtain ⟨q, rfl⟩ := hq
  rw [List.append_assoc, List.append_assoc]
  induction way with
  | nil => exact List.cons_lt_cons_iff.mpr (Or.inl hij)
  | cons n way ih => exact List.cons_lt_cons_iff.mpr (Or.inr ⟨rfl, ih⟩)

namespace Ordered

variable {way : List Nat} {α : Type}

theorem singleton {x : Place × Reference} (h : way <+: x.1.path) : Ordered way [x] :=
  ⟨List.forall_mem_singleton.mpr h, List.pairwise_singleton _ x⟩

/-- Lists behind the turns of a fork, one turn after the other. -/
theorem flatten {lists : List (List (Place × Reference))}
    (h : ∀ i placed, lists[i]? = some placed → Ordered (way ++ [i]) placed) :
    Ordered way lists.flatten := by
  constructor
  · intro x hx
    obtain ⟨placed, hplaced, hx⟩ := List.mem_flatten.mp hx
    obtain ⟨i, hi⟩ := List.mem_iff_getElem?.mp hplaced
    exact (List.prefix_append way [i]).trans ((h i placed hi).behind x hx)
  · rw [List.pairwise_flatten, List.pairwise_iff_getElem]
    constructor
    · intro placed hplaced
      obtain ⟨i, hi⟩ := List.mem_iff_getElem?.mp hplaced
      exact (h i placed hi).sorted
    · intro i j hi hj hij x hx y hy
      exact lt_of_fork hij ((h i _ (List.getElem?_eq_getElem hi)).behind x hx)
        ((h j _ (List.getElem?_eq_getElem hj)).behind y hy)

theorem flatten_mapIdx {f : Nat → α → List (Place × Reference)}
    (h : ∀ i a, Ordered (way ++ [i]) (f i a)) (l : List α) : Ordered way (l.mapIdx f).flatten := by
  apply flatten
  intro i placed hplaced
  rw [List.getElem?_mapIdx, Option.map_eq_some_iff] at hplaced
  obtain ⟨a, -, rfl⟩ := hplaced
  exact h i a

theorem mapIdx {f : Nat → α → Place × Reference} (h : ∀ i a, way ++ [i] <+: (f i a).1.path)
    (l : List α) : Ordered way (l.mapIdx f) := by
  constructor
  · intro x hx
    obtain ⟨i, a, -, rfl⟩ := mem_mapIdx_iff.mp hx
    exact (List.prefix_append way [i]).trans (h i a)
  · rw [List.pairwise_iff_getElem]
    intro i j hi hj hij
    rw [List.getElem_mapIdx, List.getElem_mapIdx]
    exact lt_of_fork hij (h i _) (h j _)

end Ordered

theorem ordered_placedOfField (t f : Nat) (typeName : String) (field : Field) :
    Ordered [0, t, 1, f] (placedOfField t f typeName field) := by
  apply Ordered.flatten
  intro i placed hplaced
  match i with
  | 0 =>
      cases hplaced
      exact .singleton (List.prefix_refl _)
  | 1 =>
      cases hplaced
      exact .mapIdx (fun _ _ => List.prefix_refl _) _
  | i + 2 => cases hplaced

theorem ordered_placedOfType (t : Nat) (type : NamedType) :
    Ordered [0, t] (placedOfType t type) := by
  apply Ordered.flatten
  intro i placed hplaced
  match i with
  | 0 =>
      cases hplaced
      exact .mapIdx (fun _ _ => List.prefix_refl _) _
  | 1 =>
      cases hplaced
      exact .flatten_mapIdx (fun f field => ordered_placedOfField t f type.name field) _
  | 2 =>
      cases hplaced
      exact .mapIdx (fun _ _ => List.prefix_refl _) _
  | 3 =>
      cases hplaced
      exact .mapIdx (fun _ _ => List.prefix_refl _) _
  | i + 4 => cases hplaced

/-- The places come in the order in which they are visited. -/
theorem ordered_placedReferences (types : Keyed NamedType) (directives : Keyed Directive) :
    Ordered [] (placedReferences types directives) := by
  apply Ordered.flatten
  intro i placed hplaced
  match i with
  | 0 =>
      cases hplaced
      exact .flatten_mapIdx (fun t type => ordered_placedOfType t type) _
  | 1 =>
      cases hplaced
      exact .flatten_mapIdx (fun d directive => .mapIdx (fun _ _ => List.prefix_refl _) _) _
  | i + 2 => cases hplaced

end SchemaHint
