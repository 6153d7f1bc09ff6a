import SchemaHint.Proofs.Context.ValuePath

/-!
# What does not matter to resolution

* `Kind.isNeutral`, `Context.isNeutral_iff` : the kinds of states that leave every context as it is;
* `Context.resolveFrom_congr_before` : the state before matters only to a list of arguments, and then
  only if arguments can belong to it;
* `Context.resolve_insert` : neutral states can be inserted anywhere but between a list of arguments
  and what it belongs to;
* `State.Alike`, `Context.resolve_congr` : steps do not matter, and type names only in fragments.
-/

namespace SchemaHint

set_option autoImplicit false

namespace Chain

/-- The kinds of states that say nothing about the types and definitions around the cursor. -/
def Kind.isNeutral : Kind → Bool
  | .booleanValue | .comment | .defaultValue | .document | .enumValue | .fragmentSpread | .invalid
  | .listType | .namedType | .nonNullType | .nullValue | .numberValue | .selection | .stringValue
  | .typeCondition | .variableUse | .variableDefinition | .variableDefinitions => true
  | _ => false

/-- The kinds of states that a list of arguments can belong to. -/
def Kind.takesArguments : Kind → Bool
  | .aliasedField | .field | .directive => true
  | _ => false

/-- The kinds of states whose type name is looked up. -/
def Kind.namesType : Kind → Bool
  | .fragmentDefinition | .inlineFragment => true
  | _ => false

/-- A list of arguments starts where two parts of a chain meet, and the first part ends in the state
that it belongs to. -/
def JoinArguments (front rest : Chain) : Prop :=
  (∃ state ∈ front.leaf, state.kind.takesArguments = true) ∧
    ∃ state ∈ rest.head?, state.kind = .arguments

/-- States that differ at most in their steps and, unless they are fragments, in their type names. -/
structure State.Alike (a b : State) : Prop where
  kind_eq : a.kind = b.kind
  name_eq : a.name = b.name
  typeName_eq : a.kind.namesType = true → a.typeName = b.typeName

theorem Kind.takesArguments_of_isNeutral {k : Kind} (h : k.isNeutral = true) :
    k.takesArguments = false := by
  cases k <;> first | rfl | cases h

end Chain

namespace Context

open Chain (JoinArguments Kind State)

variable {s : Schema} {before before' : Option Kind} {ctx : Context} {state : State}

/-! ## Neutral states -/

theorem enter_of_isNeutral (h : state.kind.isNeutral = true) : enter s before ctx state = ctx := by
  unfold enter
  cases hkind : state.kind <;> rw [hkind] at h <;> first | rfl | cases h

/-- A run: neutral states leave the context as it is. -/
theorem resolveFrom_of_isNeutral {states : List State}
    (h : ∀ state ∈ states, state.kind.isNeutral = true) : resolveFrom s before ctx states = ctx := by
  induction states generalizing before with
  | nil => rfl
  | cons state states ih =>
      rw [List.forall_mem_cons] at h
      rw [resolveFrom, enter_of_isNeutral h.1]
      exact ih h.2

/-- A schema that defines nothing. -/
def emptySchema : Schema :=
  { directives := .empty, mutation := none, query := "Query", subscription := none, types := .empty }

/-- A context in which everything is known. -/
def fullContext : Context :=
  { type := some (.annotated MetaField.typename.type)
    parent := some (.builtin .string)
    input := some MetaField.typename.type
    directive := some .skipIf
    field := some MetaField.typename
    argument := Directive.skipIf.parameters.values.head?
    arguments := some Directive.skipIf.parameters
    objectFields := some Directive.skipIf.parameters }

/-- The neutral kinds are all those that leave every context as it is. -/
theorem isNeutral_iff (k : Kind) :
    k.isNeutral = true ↔ ∀ s before ctx (state : State), state.kind = k →
      enter s before ctx state = ctx := by
  constructor
  · rintro h s before ctx state rfl
    exact enter_of_isNeutral h
  · intro h
    -- a state without a name makes something unknown in a schema without types
    have hfull := h emptySchema none fullContext { kind := k } rfl
    revert hfull
    cases k <;> decide

/-! ## The state before -/

theorem argumentsIn_eq_none (h : ∀ k ∈ before, k.takesArguments = false) :
    ctx.argumentsIn before = none := by
  cases before with
  | none => rfl
  | some k =>
      have hk : k.takesArguments = false := h k rfl
      cases k <;> first | rfl | cases hk

/-- Only a list of arguments depends on the state before, and only on one that it can belong to. -/
theorem enter_congr_before
    (h : state.kind = .arguments →
      (∀ k ∈ before, k.takesArguments = false) ∧ ∀ k ∈ before', k.takesArguments = false) :
    enter s before ctx state = enter s before' ctx state := by
  by_cases hkind : state.kind = .arguments
  · obtain ⟨hbefore, hbefore'⟩ := h hkind
    rw [enter_arguments hkind, enter_arguments hkind, argumentsIn_eq_none hbefore,
      argumentsIn_eq_none hbefore']
  · unfold enter
    cases hk : state.kind <;> first | rfl | exact absurd hk hkind

theorem resolveFrom_congr_before {rest : Chain}
    (h : ∀ state ∈ rest.head?, state.kind = .arguments →
      (∀ k ∈ before, k.takesArguments = false) ∧ ∀ k ∈ before', k.takesArguments = false) :
    resolveFrom s before ctx rest = resolveFrom s before' ctx rest := by
  cases rest with
  | nil => rfl
  | cons state rest =>
      rw [resolveFrom, resolveFrom, enter_congr_before (h state rfl)]

/-- Neutral states can be inserted anywhere but between a list of arguments and what it belongs to. -/
theorem resolve_insert {front states rest : Chain}
    (hneutral : ∀ state ∈ states, state.kind.isNeutral = true)
    (hjoin : ¬ JoinArguments front rest) :
    resolve s (front ++ states ++ rest) = resolve s (front ++ rest) := by
  rw [resolve_append, resolve_append, resolve_append, resolveFrom_of_isNeutral hneutral]
  apply resolveFrom_congr_before
  intro state hstate harguments
  have hfront : ∀ k ∈ front.leaf.map State.kind, k.takesArguments = false := by
    intro k hk
    obtain ⟨last, hlast, rfl⟩ := Option.map_eq_some_iff.mp hk
    by_contra htakes
    exact hjoin ⟨⟨last, hlast, by simpa using htakes⟩, state, hstate, harguments⟩
  refine ⟨?_, hfront⟩
  -- the state before is now the last of the inserted ones, if there are any
  intro k hk
  obtain ⟨last, hlast, rfl⟩ := Option.map_eq_some_iff.mp hk
  rw [Chain.leaf, List.getLast?_append] at hlast
  cases hstates : states.getLast? with
  | none =>
      rw [hstates, Option.none_or] at hlast
      exact hfront _ (Option.mem_map_of_mem _ hlast)
  | some m =>
      rw [hstates, Option.some_or, Option.some.injEq] at hlast
      subst hlast
      exact Kind.takesArguments_of_isNeutral (hneutral m (List.mem_of_getLast? hstates))

/-! ## Steps and type names -/

theorem enter_congr {a b : State} (h : a.Alike b) : enter s before ctx a = enter s before ctx b := by
  obtain ⟨hkind, hname, htype⟩ := h
  by_cases hnames : a.kind.namesType = true
  · unfold enter
    rw [← hkind, hname, htype hnames]
  · unfold enter
    rw [← hkind, hname]
    cases hk : a.kind <;> rw [hk] at hnames <;> first | rfl | exact absurd rfl hnames

/-- A run: states that are alike lead to the same context. -/
theorem resolveFrom_congr {c c' : Chain} (h : List.Forall₂ State.Alike c c') :
    resolveFrom s before ctx c = resolveFrom s before ctx c' := by
  induction h generalizing before ctx with
  | nil => rfl
  | cons hstate _ ih =>
      rw [resolveFrom, resolveFrom, enter_congr hstate, hstate.kind_eq]
      exact ih

theorem resolve_congr {c c' : Chain} (h : List.Forall₂ State.Alike c c') :
    resolve s c = resolve s c' :=
  resolveFrom_congr h

/-- In every schema, states of the kinds without a rule change nothing wherever they are inserted, but
between a list of arguments and what it belongs to; steps change nothing, nor do type names outside
fragments. -/
theorem resolve_ignores (s : Schema) :
    (∀ k : Kind, k.isNeutral = true ↔ ∀ s before ctx (state : State), state.kind = k →
      enter s before ctx state = ctx) ∧
    (∀ front states rest : Chain, (∀ state ∈ states, state.kind.isNeutral = true) →
      ¬ JoinArguments front rest → resolve s (front ++ states ++ rest) = resolve s (front ++ rest)) ∧
    ∀ c c' : Chain, List.Forall₂ State.Alike c c' → resolve s c = resolve s c' :=
  ⟨isNeutral_iff, fun _ _ _ => resolve_insert, fun _ _ => resolve_congr⟩

/-- Neutral states before a field change nothing, nor does the step of a list of arguments; a neutral
state between the two makes the arguments unknown. -/
theorem resolve_ignores_filterChain :
    let comment : Chain := [{ kind := .comment, name := some "later" }, { kind := .selection }]
    let field : Chain := [{ kind := .field, name := some "find", typeName := some "Int" }]
    let arguments : Chain := [{ kind := .arguments, step := 1 }]
    ∃ docs s, Sdl.readAll? filterTexts = some docs ∧ Schema.ofDocuments docs = .ok s ∧
      resolve s (queryChain ++ comment ++ (field ++ arguments)) =
        resolve s (queryChain ++ (field ++ arguments)) ∧
      resolve s (queryChain ++ field ++ arguments) = resolve s (queryChain ++ filterChain.take 2) ∧
      (resolve s (queryChain ++ field ++ arguments)).arguments.isSome = true ∧
      (resolve s (queryChain ++ field ++ comment ++ arguments)).arguments = none := by
  intro comment field arguments
  obtain ⟨docs, s, hdocs, hs, hknown, hunknown⟩ :=
    @Schema.exists_ofDocuments_of_test filterTexts
      (fun s => (resolve s (queryChain ++ field ++ arguments)).arguments.isSome = true ∧
        (resolve s (queryChain ++ field ++ comment ++ arguments)).arguments = none)
      _ (by decide +kernel)
  obtain ⟨-, hinsert, halike⟩ := resolve_ignores s
  refine ⟨docs, s, hdocs, hs, hinsert _ _ _ (by decide) ?_, halike _ _ ?_, hknown, hunknown⟩
  · rintro ⟨⟨state, hstate, htakes⟩, -⟩
    cases hstate
    cases htakes
  · have hrefl : ∀ state : State, state.Alike state := fun _ => ⟨rfl, rfl, fun _ => rfl⟩
    exact .cons (hrefl _) (.cons (hrefl _) (.cons ⟨rfl, rfl, fun h => by cases h⟩
      (.cons ⟨rfl, rfl, fun h => by cases h⟩ .nil)))

end Context

end SchemaHint
