import SchemaHint.Proofs.Context.Typing

/-!
# Ways into values

A `ValuePath` starts from an argument of a field or a directive and goes into the items of lists and
the fields of input objects. `ValuePath.type?` is the annotation it denotes: that of the argument,
taken apart step by step.

* `ArgumentOwner.parameters?` : the arguments of a field on a type, or of a directive. Nothing else
  of what is around them counts;
* `ValuePath.Spells` : the states of a chain spell a path;
* `Context.parametersIn_enter` : the arguments belong to what is found at the owner itself, not to
  what is known from further out;
* `Context.input_resolveFrom` : what the steps into a value make of the expected type, whatever else
  is known around it;
* `Context.input_resolve_of_ofDocuments` : the type expected at the end of a path is the annotation
  it denotes.
-/

namespace SchemaHint

set_option autoImplicit false

open Chain (State)

/-! ## Paths and the annotations they denote -/

/-- What arguments are given to. Its name may not be written yet. -/
inductive ArgumentOwner
  | field (name : Option String)
  | directive (name : Option String)

/-- A step into a value: to the items of a list, or to a field of an input object. -/
inductive ValueStep
  | item
  | inputField (name : String)

/-- A way from an argument into its value. -/
structure ValuePath where
  owner : ArgumentOwner
  argument : String
  steps : List ValueStep

/-- The arguments that belong to an owner, where fields are selected on the given type. -/
def ArgumentOwner.parameters? (s : Schema) (on : Option NamedType) :
    ArgumentOwner → Option (Keyed InputValue)
  | .field name =>
      on.bind fun t => name.bind fun n => (s.field? t n).map Field.parameters
  | .directive name => name.bind fun n => (s.directive? n).map Directive.parameters

/-- The annotation to which a step leads from an annotation. -/
def ValueStep.type? (s : Schema) (a : AnnotatedType) : ValueStep → Option AnnotatedType
  | .item => a.item?
  | .inputField name =>
      (s.innermostType? a).bind fun t => t.inputFields?.bind fun fields =>
        (fields.get? name).map InputValue.type

/-- The annotation of the argument that a path starts from. -/
def ValuePath.argumentType? (s : Schema) (on : Option NamedType) (path : ValuePath) :
    Option AnnotatedType :=
  (path.owner.parameters? s on).bind fun parameters =>
    (parameters.get? path.argument).map InputValue.type

/-- The annotation that a path denotes. -/
def ValuePath.type? (s : Schema) (on : Option NamedType) (path : ValuePath) :
    Option AnnotatedType :=
  (path.argumentType? s on).bind (path.steps.foldlM (ValueStep.type? s))

theorem ValuePath.type?_append (s : Schema) (on : Option NamedType) (path : ValuePath)
    {start rest : List ValueStep} (h : path.steps = start ++ rest) :
    path.type? s on =
      (ValuePath.type? s on { path with steps := start }).bind
        (rest.foldlM (ValueStep.type? s)) := by
  rw [ValuePath.type?, h, ValuePath.type?, Option.bind_assoc]
  congr 1
  funext a
  exact List.foldlM_append

/-- The number of lists around the name. -/
def AnnotatedType.listLevels : AnnotatedType → Nat
  | .list item _ _ => item.listLevels + 1
  | .named .. => 0

theorem foldlM_item_isSome_iff (s : Schema) (k : Nat) (a : AnnotatedType) :
    ((List.replicate k ValueStep.item).foldlM (ValueStep.type? s) a).isSome = true ↔
      k ≤ a.listLevels := by
  induction k generalizing a with
  | zero => simp
  | succ k ih =>
      rw [List.replicate_succ, List.foldlM_cons]
      cases a with
      | list item nullable location =>
          change ((List.replicate k ValueStep.item).foldlM (ValueStep.type? s) item).isSome = true ↔ _
          rw [ih, AnnotatedType.listLevels]
          omega
      | named name nullable location => simp [ValueStep.type?, AnnotatedType.item?,
          AnnotatedType.listLevels]

/-! ## Chains that spell paths -/

/-- The state selects the field, with or without an alias, or applies the directive. -/
def ArgumentOwner.Spells : ArgumentOwner → State → Prop
  | .field name, state => state.kind.isField = true ∧ state.name = name
  | .directive name, state => state.kind = .directive ∧ state.name = name

/-- The states spell the steps one after the other: a list, or an object and a field of it. -/
inductive ValueStep.SpellAll : List ValueStep → Chain → Prop
  | nil : SpellAll [] []
  | item {steps : List ValueStep} {list : State} {rest : Chain} (hlist : list.kind = .listValue)
      (hrest : SpellAll steps rest) : SpellAll (.item :: steps) (list :: rest)
  | inputField {steps : List ValueStep} {object field : State} {rest : Chain} {name : String}
      (hobject : object.kind = .objectValue) (hfield : field.kind = .objectField)
      (hname : field.name = some name) (hrest : SpellAll steps rest) :
      SpellAll (.inputField name :: steps) (object :: field :: rest)

/-- The chain spells the path: its owner, a list of arguments, the argument, and the steps. -/
inductive ValuePath.Spells (path : ValuePath) : Chain → Prop
  | intro {owner arguments argument : State} {rest : Chain} (howner : path.owner.Spells owner)
      (harguments : arguments.kind = .arguments) (hargument : argument.kind = .argument)
      (hname : argument.name = some path.argument)
      (hsteps : ValueStep.SpellAll path.steps rest) :
      Spells path (owner :: arguments :: argument :: rest)

/-! ## Resolution along a path -/

namespace Context

open Chain (Kind)

variable {s : Schema} {ctx : Context} {before : Option Kind}

theorem input_enter_item {list : State} (hlist : list.kind = .listValue) :
    (enter s before ctx list).input = ctx.input.bind fun a => ValueStep.type? s a .item := by
  rw [enter_listValue hlist]
  rfl

/-- The object is looked up in the type expected so far, so that no input fields known from further
out are left when its field is reached. -/
theorem input_enter_inputField {object field : State} {name : String}
    (hobject : object.kind = .objectValue) (hfield : field.kind = .objectField)
    (hname : field.name = some name) :
    (enter s (some object.kind) (enter s before ctx object) field).input =
      ctx.input.bind fun a => ValueStep.type? s a (.inputField name) := by
  rw [enter_objectField hfield, enter_objectValue hobject, hname]
  change ((ctx.input.bind s.innermostType?).bind NamedType.inputFields?).bind _ = _
  rw [Option.bind_assoc, Option.bind_assoc]
  rfl

/-- A run: steps into a value change the expected type as they say. -/
theorem input_resolveFrom {steps : List ValueStep} {c : Chain}
    (hsteps : ValueStep.SpellAll steps c) :
    (resolveFrom s before ctx c).input =
      ctx.input.bind (steps.foldlM (ValueStep.type? s)) := by
  induction hsteps generalizing before ctx with
  | nil => exact (Option.bind_fun_some ctx.input).symm
  | item hlist hrest ih =>
      rw [resolveFrom, ih, input_enter_item hlist, Option.bind_assoc]
      rfl
  | inputField hobject hfield hname hrest ih =>
      rw [resolveFrom, resolveFrom, ih, input_enter_inputField hobject hfield hname,
        Option.bind_assoc]
      rfl

/-- The arguments of the innermost field, or of the innermost directive. -/
def parametersIn (ctx : Context) : ArgumentOwner → Option (Keyed InputValue)
  | .field _ => ctx.field.map Field.parameters
  | .directive _ => ctx.directive.map Directive.parameters

theorem parametersIn_enter {owner : ArgumentOwner} {state : State} (howner : owner.Spells state) :
    (enter s before ctx state).parametersIn owner = owner.parameters? s ctx.selectedOn? := by
  cases owner with
  | field name =>
      obtain ⟨hfield, rfl⟩ := howner
      rw [enter_of_isField hfield, selected?_eq, ArgumentOwner.parameters?]
      cases ctx.selectedOn? with
      | none => rfl
      | some t => cases state.name <;> rfl
  | directive name =>
      obtain ⟨hkind, rfl⟩ := howner
      rw [enter_directive hkind]
      cases state.name <;> rfl

theorem argumentsIn_of_spells {owner : ArgumentOwner} {state : State} (howner : owner.Spells state)
    (ctx : Context) : ctx.argumentsIn (some state.kind) = ctx.parametersIn owner := by
  cases owner with
  | field name =>
      have hfield := howner.1
      cases hkind : state.kind <;> rw [hkind] at hfield <;> first | rfl | cases hfield
  | directive name =>
      rw [howner.1]
      rfl

/-- The arguments in a list of arguments are those of the state just before it. -/
theorem arguments_enter_of_spells {owner : ArgumentOwner} {state arguments : State}
    (howner : owner.Spells state) (harguments : arguments.kind = .arguments) :
    (enter s (some state.kind) (enter s before ctx state) arguments).arguments =
      owner.parameters? s ctx.selectedOn? := by
  rw [enter_arguments harguments]
  change argumentsIn (enter s before ctx state) (some state.kind) = _
  rw [argumentsIn_of_spells howner, parametersIn_enter howner]

theorem input_enter_argument (hs : s.WellFormed) (hctx : WellTyped s ctx) {state : State}
    (hkind : state.kind = .argument) {name : String} (hname : state.name = some name) :
    (enter s before ctx state).input =
      ctx.arguments.bind fun parameters => (parameters.get? name).map InputValue.type := by
  have hinput : (enter s before ctx state).input =
      (enter s before ctx state).argument.map InputValue.type := by
    rw [enter_argument hkind]
  rw [hinput, hctx.argument_enter hs before hkind hname, Option.map_bind]
  rfl

theorem input_resolve_of_spells (hs : s.WellFormed) {path : ValuePath} {c : Chain}
    (hpath : path.Spells c) (p : Chain) :
    (resolve s (p ++ c)).input = path.type? s (resolve s p).selectedOn? := by
  obtain ⟨howner, harguments, hargument, hname, hsteps⟩ := hpath
  have hctx := wellTyped_resolve hs p
  rw [resolve_append, resolveFrom, resolveFrom, resolveFrom, input_resolveFrom hsteps,
    input_enter_argument hs ((hctx.enter hs _ _).enter hs _ _) hargument hname,
    arguments_enter_of_spells howner harguments]
  rfl

theorem parametersIn_resolve_of_spells {path : ValuePath} {c : Chain} (hpath : path.Spells c)
    (s : Schema) (p : Chain) :
    (resolve s (p ++ c.take 1)).parametersIn path.owner =
      path.owner.parameters? s (resolve s p).selectedOn? := by
  obtain ⟨howner, -⟩ := hpath
  rw [List.take_succ_cons, List.take_zero, resolve_append_singleton]
  exact parametersIn_enter howner

/-- In every schema that is built, a chain that spells a path into a value leads to the annotation
that the path denotes, whatever stands before it: only the type on which fields are selected there
counts, and through it the field or directive that the first state of the path stands for. From
wherever the path has led, steps into lists lead on as long as there are lists. -/
theorem input_resolve_of_ofDocuments {docs : List (Option String × Sdl.Document)} {s : Schema}
    (h : Schema.ofDocuments docs = .ok s) {path : ValuePath} {c : Chain} (hpath : path.Spells c)
    (p : Chain) :
    (resolve s (p ++ c)).input = path.type? s (resolve s p).selectedOn? ∧
      (resolve s (p ++ c.take 1)).parametersIn path.owner =
        path.owner.parameters? s (resolve s p).selectedOn? ∧
      ∀ start k, path.steps = start ++ List.replicate k .item →
        ((resolve s (p ++ c)).input.isSome = true ↔
          ∃ a, ValuePath.type? s (resolve s p).selectedOn? { path with steps := start } = some a ∧
            k ≤ a.listLevels) := by
  obtain ⟨hvalid, hdescribes⟩ := Schema.ofDocuments_eq_ok_iff.mp h
  have hinput := input_resolve_of_spells (hdescribes.wellFormed hvalid) hpath p
  refine ⟨hinput, parametersIn_resolve_of_spells hpath s p, fun start k hsteps => ?_⟩
  rw [hinput, ValuePath.type?_append s _ path hsteps]
  cases ValuePath.type? s (resolve s p).selectedOn? { path with steps := start } with
  | none => simp
  | some a =>
      rw [Option.bind_some, foldlM_item_isSome_iff]
      simp

/-- An input object inside lists that has itself as a field, and a directive with a list. -/
def filterTexts : List (Option String × String) :=
  [(none, "type Query { find(by: [[Filter!]]): Int } input Filter { any: [Filter], name: String }"),
    (none, "directive @limit(to: [Int]) on FIELD")]

/-- The selection set of a query. -/
def queryChain : Chain := [{ kind := .query }, { kind := .selectionSet }]

/-- The way into `find(by: [[{ any: [...] }]])`. -/
def filterPath : ValuePath where
  owner := .field (some "find")
  argument := "by"
  steps := [.item, .item, .inputField "any", .item]

/-- The states of `filterPath`. -/
def filterChain : Chain :=
  [{ kind := .field, name := some "find" }, { kind := .arguments },
    { kind := .argument, name := some "by", step := 2 }, { kind := .listValue, step := 1 },
    { kind := .listValue, step := 1 }, { kind := .objectValue },
    { kind := .objectField, name := some "any", step := 2 }, { kind := .listValue, step := 1 }]

/-- The way into `@limit(to: [[...]])`, which has one list too many. -/
def limitPath : ValuePath where
  owner := .directive (some "limit")
  argument := "to"
  steps := List.replicate 2 .item

/-- The states of `limitPath`. -/
def limitChain : Chain :=
  [{ kind := .directive, name := some "limit" }, { kind := .arguments },
    { kind := .argument, name := some "to", step := 2 }, { kind := .listValue, step := 1 },
    { kind := .listValue, step := 1 }]

theorem input_resolve_filterChain :
    ∃ docs s, Sdl.readAll? filterTexts = some docs ∧ Schema.ofDocuments docs = .ok s ∧
      filterPath.Spells filterChain ∧ limitPath.Spells limitChain ∧
      (filterPath.type? s (resolve s queryChain).selectedOn?).map AnnotatedType.text =
        some "Filter" ∧
      (resolve s (queryChain ++ filterChain)).input =
        filterPath.type? s (resolve s queryChain).selectedOn? ∧
      (limitPath.argumentType? s none).map AnnotatedType.listLevels = some 1 ∧
      ((resolve s (queryChain ++ filterChain ++ limitChain)).input.isSome = true ↔
        ∃ a, ValuePath.type? s (resolve s (queryChain ++ filterChain)).selectedOn?
          { limitPath with steps := [] } = some a ∧ 2 ≤ a.listLevels) := by
  have hfilter : filterPath.Spells filterChain :=
    .intro ⟨rfl, rfl⟩ rfl rfl rfl (.item rfl (.item rfl (.inputField rfl rfl rfl (.item rfl .nil))))
  have hlimit : limitPath.Spells limitChain :=
    .intro ⟨rfl, rfl⟩ rfl rfl rfl (.item rfl (.item rfl .nil))
  obtain ⟨docs, s, hdocs, hs, htype, hlevels⟩ :=
    @Schema.exists_ofDocuments_of_test filterTexts
      (fun s => (filterPath.type? s (resolve s queryChain).selectedOn?).map AnnotatedType.text =
          some "Filter" ∧
        (limitPath.argumentType? s none).map AnnotatedType.listLevels = some 1)
      _ (by decide +kernel)
  exact ⟨docs, s, hdocs, hs, hfilter, hlimit, htype,
    (input_resolve_of_ofDocuments hs hfilter queryChain).1, hlevels,
    (input_resolve_of_ofDocuments hs hlimit (queryChain ++ filterChain)).2.2 [] 2 rfl⟩

end Context

end SchemaHint
