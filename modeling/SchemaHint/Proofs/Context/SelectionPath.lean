import SchemaHint.Proofs.Context.Steps
import SchemaHint.Proofs.Schema.WellFormed

/-!
# Ways into selection sets

A `SelectionPath` starts from an operation or a fragment and goes into fields and inline fragments.
It denotes a type of the schema (`SelectionPath.type?`): each field leads to the named type of its
annotation, and what is unknown stays unknown until an inline fragment names a type.

* `SelectionPath.Spells` : the states of a chain spell a path, with a selection set after each of
  them;
* `Context.AtSelectionSet` : the parent type is the named type of what is selected, which holds after
  every selection set and is all that the next step needs;
* `Context.parent_resolve_of_spells` : the parent type at the end of a path is the type it denotes.
-/

namespace SchemaHint

set_option autoImplicit false

open Chain (State)

/-! ## Paths and the types they denote -/

/-- Where a path starts: an operation, or the definition of a fragment on a type. -/
inductive SelectionRoot
  | operation (o : Operation)
  | fragment (typeName : String)

/-- A step into a selection set: that of a field, or that of an inline fragment, which need not name a
type. -/
inductive SelectionStep
  | field (name : String)
  | fragment (typeName : Option String)

/-- A way from the root of a document into nested selection sets. -/
structure SelectionPath where
  root : SelectionRoot
  steps : List SelectionStep

/-- The root type of the operation, or the type that the fragment is on. -/
def SelectionRoot.type? (s : Schema) : SelectionRoot → Option NamedType
  | .operation o => (s.root? o).bind s.type?
  | .fragment typeName => s.type? typeName

/-- The type to which a step leads from a type. A fragment leads to its own type from everywhere. -/
def SelectionStep.type? (s : Schema) (around : Option NamedType) : SelectionStep → Option NamedType
  | .field name => around.bind fun t => (s.field? t name).bind fun f => s.innermostType? f.type
  | .fragment typeName => typeName.bind s.type?

/-- The type that a path denotes. -/
def SelectionPath.type? (s : Schema) (path : SelectionPath) : Option NamedType :=
  path.steps.foldl (SelectionStep.type? s) (path.root.type? s)

/-! ## Chains that spell paths -/

/-- The state opens an operation, or a fragment on the type. -/
def SelectionRoot.Spells : SelectionRoot → State → Prop
  | .operation .query, state => state.kind = .query ∨ state.kind = .shortQuery
  | .operation .mutation, state => state.kind = .mutation
  | .operation .subscription, state => state.kind = .subscription
  | .fragment typeName, state =>
      state.kind = .fragmentDefinition ∧ state.typeName = some typeName

/-- The state selects the field, with or without an alias, or opens the inline fragment. -/
def SelectionStep.Spells : SelectionStep → State → Prop
  | .field name, state => state.kind.isField = true ∧ state.name = some name
  | .fragment typeName, state => state.kind = .inlineFragment ∧ state.typeName = typeName

/-- The states spell the steps one after the other, each with a selection set after it. -/
inductive SelectionStep.SpellAll : List SelectionStep → Chain → Prop
  | nil : SpellAll [] []
  | cons {step : SelectionStep} {steps : List SelectionStep} {state set : State} {rest : Chain}
      (hstep : step.Spells state) (hset : set.kind = .selectionSet) (hrest : SpellAll steps rest) :
      SpellAll (step :: steps) (state :: set :: rest)

/-- The chain spells the path: its root, a selection set, and the steps. -/
inductive SelectionPath.Spells (path : SelectionPath) : Chain → Prop
  | intro {state set : State} {rest : Chain} (hroot : path.root.Spells state)
      (hset : set.kind = .selectionSet) (hsteps : SelectionStep.SpellAll path.steps rest) :
      Spells path (state :: set :: rest)

/-! ## Resolution along a path -/

namespace Context

open Chain (Kind)

variable {s : Schema} {ctx : Context} {before : Option Kind} {state set : State}

/-- The parent type is the named type of what is selected. -/
def AtSelectionSet (s : Schema) (ctx : Context) : Prop :=
  ctx.parent = ctx.type.bind (ExprType.namedType? s)

theorem atSelectionSet_enter (hset : set.kind = .selectionSet) :
    AtSelectionSet s (enter s before ctx set) := by
  rw [enter_selectionSet hset]
  rfl

theorem bind_map_named (t? : Option NamedType) :
    (t?.map ExprType.named).bind (ExprType.namedType? s) = t? := by
  cases t? <;> rfl

theorem type_enter_root {root : SelectionRoot} (hroot : root.Spells state) :
    (enter s before ctx state).type = (root.type? s).map .named := by
  unfold enter
  cases root with
  | operation o =>
      cases o with
      | query => rcases hroot with hkind | hkind <;> rw [hkind] <;> rfl
      | mutation => rw [show state.kind = .mutation from hroot]; rfl
      | subscription => rw [show state.kind = .subscription from hroot]; rfl
  | fragment typeName =>
      obtain ⟨hkind, hname⟩ := hroot
      rw [hkind, hname]
      rfl

theorem parent_enter_root {root : SelectionRoot} (hroot : root.Spells state)
    (hset : set.kind = .selectionSet) :
    (enter s (some state.kind) (enter s before ctx state) set).parent = root.type? s := by
  rw [enter_selectionSet hset]
  change (enter s before ctx state).type.bind (ExprType.namedType? s) = root.type? s
  rw [type_enter_root hroot, bind_map_named]

/-- One step: a field or an inline fragment, with its selection set, leads from the parent type to
the type that the step denotes. -/
theorem AtSelectionSet.parent_enter (h : AtSelectionSet s ctx) {step : SelectionStep}
    (hstep : step.Spells state) (hset : set.kind = .selectionSet) :
    (enter s (some state.kind) (enter s before ctx state) set).parent =
      step.type? s ctx.parent := by
  rw [enter_selectionSet hset]
  change (enter s before ctx state).type.bind (ExprType.namedType? s) = step.type? s ctx.parent
  cases step with
  | field name =>
      obtain ⟨hfield, hname⟩ := hstep
      have hselected : ctx.selected? s state.name = ctx.parent.bind fun t => s.field? t name := by
        rw [selected?_eq, selectedOn?_eq_parent h, hname]
        rfl
      rw [enter_of_isField hfield, hselected]
      cases ctx.parent with
      | none => rfl
      | some t =>
          change ((s.field? t name).map _).bind _ = (s.field? t name).bind _
          cases s.field? t name <;> rfl
  | fragment typeName =>
      obtain ⟨hkind, rfl⟩ := hstep
      rw [enter_inlineFragment hkind]
      exact bind_map_named _

/-- A run: so do all the steps of a path. -/
theorem AtSelectionSet.parent_resolveFrom {steps : List SelectionStep} {c : Chain}
    (hsteps : SelectionStep.SpellAll steps c) (h : AtSelectionSet s ctx) :
    (resolveFrom s before ctx c).parent = steps.foldl (SelectionStep.type? s) ctx.parent := by
  induction hsteps generalizing before ctx with
  | nil => rfl
  | cons hstep hset hrest ih =>
      rw [resolveFrom, resolveFrom, ih (atSelectionSet_enter hset), h.parent_enter hstep hset,
        List.foldl_cons]

/-- In every schema, a chain that spells a path leads to the type that the path denotes, whatever
stands before the root of the path. -/
theorem parent_resolve_of_spells {path : SelectionPath} {c : Chain} (hpath : path.Spells c)
    (s : Schema) (p : Chain) : (resolve s (p ++ c)).parent = path.type? s := by
  obtain ⟨hroot, hset, hsteps⟩ := hpath
  rw [resolve_append, resolveFrom, resolveFrom,
    AtSelectionSet.parent_resolveFrom hsteps (atSelectionSet_enter hset),
    parent_enter_root hroot hset]
  rfl

/-- The way into `query { pets { ... on Dog { title: name { } } } }`. -/
def dogPath : SelectionPath where
  root := .operation .query
  steps := [.field "pets", .fragment (some "Dog"), .field "name"]

/-- The states of `dogPath`. -/
def dogChain : Chain :=
  [{ kind := .shortQuery }, { kind := .selectionSet }, { kind := .field, name := some "pets" },
    { kind := .selectionSet }, { kind := .inlineFragment, typeName := some "Dog" },
    { kind := .selectionSet }, { kind := .aliasedField, name := some "name" },
    { kind := .selectionSet }]

theorem parent_resolve_dogChain :
    ∃ docs s, Sdl.readAll? petTexts = some docs ∧ Schema.ofDocuments docs = .ok s ∧
      dogPath.Spells dogChain ∧
      (dogPath.type? s).map NamedType.name = some "ID" ∧
      (resolve s ([{ kind := .document }] ++ dogChain)).parent = dogPath.type? s := by
  have hspells : dogPath.Spells dogChain :=
    .intro (Or.inr rfl) rfl (.cons ⟨rfl, rfl⟩ rfl (.cons ⟨rfl, rfl⟩ rfl (.cons ⟨rfl, rfl⟩ rfl .nil)))
  obtain ⟨docs, s, hdocs, hs, hname⟩ :=
    @Schema.exists_ofDocuments_of_test petTexts
      (fun s => (dogPath.type? s).map NamedType.name = some "ID") _ (by decide +kernel)
  exact ⟨docs, s, hdocs, hs, hspells, hname, parent_resolve_of_spells hspells s _⟩

end Context

end SchemaHint
