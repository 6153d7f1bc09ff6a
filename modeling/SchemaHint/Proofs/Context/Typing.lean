import SchemaHint.Proofs.Context.Steps
import SchemaHint.Proofs.Schema.WellFormed

/-!
# Well-typed contexts

Along a chain, whatever its states and their order:

* types, fields and directives of the context are those of the schema, meta fields included;
* arguments and input fields belong to such a field or directive, or to an input object;
* the type of the innermost value can be given as input.

`Context.WellTyped.enter` is one step, `Context.WellTyped.resolveFrom` a run.
-/

namespace SchemaHint

set_option autoImplicit false

/-! ## Elements of a schema -/

namespace Schema

/-- The fields that the language adds. -/
def metaFields : List Field := [MetaField.schema, MetaField.type, MetaField.typename]

/-- A meta field, or a field that an object or an interface declares. -/
def IsField (s : Schema) (f : Field) : Prop :=
  f ∈ metaFields ∨
    ∃ t fields, s.type? t.name = some t ∧ t.fields? = some fields ∧ f ∈ fields.values

/-- The arguments of a field or of a directive. -/
def IsParameters (s : Schema) (parameters : Keyed InputValue) : Prop :=
  (∃ f, s.IsField f ∧ f.parameters = parameters) ∨
    ∃ d, s.directive? d.name = some d ∧ d.parameters = parameters

/-- The fields of an input object. -/
def IsInputFields (s : Schema) (fields : Keyed InputValue) : Prop :=
  ∃ t, s.type? t.name = some t ∧ t.inputFields? = some fields

theorem isField_of_field? {s : Schema} {parent : NamedType} (hparent : s.type? parent.name = some parent)
    {name : String} {f : Field} (h : s.field? parent name = some f) : s.IsField f := by
  rw [Schema.field?] at h
  split at h
  · cases h
    exact Or.inl (by simp [Schema.metaFields])
  split at h
  · cases h
    exact Or.inl (by simp [Schema.metaFields])
  split at h
  · cases h
    exact Or.inl (by simp [Schema.metaFields])
  · obtain ⟨fields, hfields, hf⟩ := Option.bind_eq_some_iff.mp h
    refine Or.inr ⟨parent, fields, hparent, hfields, ?_⟩
    exact Keyed.mem_values_iff.mpr ⟨name, Keyed.get?_eq_some_iff.mp hf⟩

end Schema

namespace Schema.WellFormed

variable {s : Schema} (hs : s.WellFormed)
include hs

theorem type?_eq_some_iff {name : String} {t : NamedType} :
    s.type? name = some t ↔ t ∈ s.types.values ∧ t.name = name :=
  hs.types_indexed.get?_eq_some_iff

theorem type?_name {name : String} {t : NamedType} (h : s.type? name = some t) :
    s.type? t.name = some t := by
  rw [((hs.type?_eq_some_iff).mp h).2]
  exact h

theorem directive?_name {name : String} {d : Directive} (h : s.directive? name = some d) :
    s.directive? d.name = some d := by
  have hname : d.name = name := (hs.directives_indexed.get?_eq_some_iff.mp h).2
  rw [hname]
  exact h

theorem typeFits {name : String} {t : NamedType} (h : s.type? name = some t) : s.TypeFits t :=
  hs.types_fit t (hs.type?_eq_some_iff.mp h).1

/-- The arguments of a meta field are of built-in scalars. -/
theorem parametersFit_of_mem_metaFields {f : Field} (hf : f ∈ Schema.metaFields) :
    s.ParametersFit f.parameters := by
  have hindexed : ∀ f ∈ Schema.metaFields, f.parameters.IndexedBy InputValue.name := by
    simp only [Keyed.indexedBy_iff]
    decide
  have hscalars : ∀ f ∈ Schema.metaFields, ∀ p ∈ f.parameters.values,
      ∃ b ∈ BuiltinScalar.all, p.type.innermostName = b.name := by
    decide
  refine ⟨hindexed f hf, fun p hp => ?_⟩
  obtain ⟨b, -, hname⟩ := hscalars f hf p hp
  refine ⟨.builtin b, (hs.builtin_type _ b).mpr hname, ?_⟩
  cases b <;> rfl

theorem parametersFit {parameters : Keyed InputValue} (h : s.IsParameters parameters) :
    s.ParametersFit parameters := by
  rcases h with ⟨f, hf | ⟨t, fields, ht, hfields, hf⟩, rfl⟩ | ⟨d, hd, rfl⟩
  · exact hs.parametersFit_of_mem_metaFields hf
  · exact ((hs.typeFits ht).fields_fit fields hfields f hf).parameters
  · exact hs.directives_fit d (hs.directives_indexed.get?_eq_some_iff.mp hd).1

theorem inputFields_indexed {fields : Keyed InputValue} (h : s.IsInputFields fields) :
    fields.IndexedBy InputValue.name := by
  obtain ⟨t, ht, hfields⟩ := h
  exact (hs.typeFits ht).inputFields_indexed fields hfields

end Schema.WellFormed

/-! ## Contexts -/

namespace Context

open Chain (Kind State)

/-- What is known at the cursor belongs to the schema. -/
structure WellTyped (s : Schema) (ctx : Context) : Prop where
  parent : ∀ t, ctx.parent = some t → s.type? t.name = some t
  named : ∀ t, ctx.type = some (.named t) → s.type? t.name = some t
  annotated : ∀ a, ctx.type = some (.annotated a) → ∃ f, s.IsField f ∧ f.type = a
  field : ∀ f, ctx.field = some f → s.IsField f
  directive : ∀ d, ctx.directive = some d → s.directive? d.name = some d
  arguments : ∀ parameters, ctx.arguments = some parameters → s.IsParameters parameters
  argument : ∀ p, ctx.argument = some p →
    ∃ parameters, s.IsParameters parameters ∧ p ∈ parameters.values
  objectFields : ∀ fields, ctx.objectFields = some fields → s.IsInputFields fields
  input : ∀ a, ctx.input = some a → s.IsInput a

theorem wellTyped_unknown (s : Schema) : WellTyped s unknown := by
  constructor
  all_goals
    intro _ h
    cases h

namespace WellTyped

variable {s : Schema} {ctx : Context}

/-! ### What each state determines -/

theorem isField_of_selected? (h : WellTyped s ctx) {name : Option String} {f : Field}
    (hf : ctx.selected? s name = some f) : s.IsField f := by
  simp only [selected?, Option.bind_eq_bind, Option.bind_eq_some_iff] at hf
  obtain ⟨_, _, parent, hparent, n, _, hf⟩ := hf
  exact Schema.isField_of_field? (h.parent parent hparent) hf

theorem set_named (hs : s.WellFormed) (h : WellTyped s ctx) {t? : Option NamedType}
    (ht : ∀ t, t? = some t → ∃ name, s.type? name = some t) :
    WellTyped s { ctx with type := t?.map .named } where
  __ := h
  named t htype := by
    obtain ⟨t', ht', heq⟩ := Option.map_eq_some_iff.mp htype
    cases heq
    obtain ⟨name, hname⟩ := ht t ht'
    exact hs.type?_name hname
  annotated a htype := by
    obtain ⟨t', -, heq⟩ := Option.map_eq_some_iff.mp htype
    cases heq

theorem set_field (h : WellTyped s ctx) {f? : Option Field} (hf : ∀ f, f? = some f → s.IsField f) :
    WellTyped s { ctx with field := f?, type := f?.map fun f => .annotated f.type } where
  __ := h
  field := hf
  named t htype := by
    obtain ⟨f, -, heq⟩ := Option.map_eq_some_iff.mp htype
    cases heq
  annotated a htype := by
    obtain ⟨f, hf', heq⟩ := Option.map_eq_some_iff.mp htype
    cases heq
    exact ⟨f, hf f hf', rfl⟩

theorem set_parent (hs : s.WellFormed) (h : WellTyped s ctx) :
    WellTyped s { ctx with parent := ctx.type.bind (ExprType.namedType? s) } where
  __ := h
  parent t ht := by
    obtain ⟨e, he, ht⟩ := Option.bind_eq_some_iff.mp ht
    cases e with
    | annotated a => exact hs.type?_name ht
    | named t' =>
        cases ht
        exact h.named t he

theorem set_directive (hs : s.WellFormed) (h : WellTyped s ctx) (name : Option String) :
    WellTyped s { ctx with directive := name.bind s.directive? } where
  __ := h
  directive d hd := by
    obtain ⟨n, -, hd⟩ := Option.bind_eq_some_iff.mp hd
    exact hs.directive?_name hd

theorem isParameters_of_argumentsIn (h : WellTyped s ctx) {before : Option Kind}
    {parameters : Keyed InputValue} (hp : ctx.argumentsIn before = some parameters) :
    s.IsParameters parameters := by
  unfold argumentsIn at hp
  split at hp
  · obtain ⟨f, hf, rfl⟩ := Option.map_eq_some_iff.mp hp
    exact Or.inl ⟨f, h.field f hf, rfl⟩
  · obtain ⟨f, hf, rfl⟩ := Option.map_eq_some_iff.mp hp
    exact Or.inl ⟨f, h.field f hf, rfl⟩
  · obtain ⟨d, hd, rfl⟩ := Option.map_eq_some_iff.mp hp
    exact Or.inr ⟨d, h.directive d hd, rfl⟩
  · cases hp

theorem set_argument (hs : s.WellFormed) (h : WellTyped s ctx) {p? : Option InputValue}
    (hp : ∀ p, p? = some p → ∃ parameters, ctx.arguments = some parameters ∧ p ∈ parameters.values) :
    WellTyped s { ctx with argument := p?, input := p?.map InputValue.type } where
  __ := h
  argument p hp? := by
    obtain ⟨parameters, harguments, hmem⟩ := hp p hp?
    exact ⟨parameters, h.arguments parameters harguments, hmem⟩
  input a ha := by
    obtain ⟨p, hp?, rfl⟩ := Option.map_eq_some_iff.mp ha
    obtain ⟨parameters, harguments, hmem⟩ := hp p hp?
    exact (hs.parametersFit (h.arguments parameters harguments)).input p hmem

theorem set_item (h : WellTyped s ctx) :
    WellTyped s { ctx with input := ctx.input.bind AnnotatedType.item? } where
  __ := h
  input a ha := by
    obtain ⟨list, hlist, ha⟩ := Option.bind_eq_some_iff.mp ha
    have hinput := h.input list hlist
    cases list with
    | named name nullable location => cases ha
    | list item nullable location =>
        cases ha
        exact hinput

theorem set_objectFields (hs : s.WellFormed) (h : WellTyped s ctx) :
    WellTyped s { ctx with
      objectFields := (ctx.input.bind s.innermostType?).bind NamedType.inputFields? } where
  __ := h
  objectFields fields hfields := by
    obtain ⟨t, ht, hfields⟩ := Option.bind_eq_some_iff.mp hfields
    obtain ⟨a, -, ht⟩ := Option.bind_eq_some_iff.mp ht
    exact ⟨t, hs.type?_name ht, hfields⟩

theorem set_objectField (hs : s.WellFormed) (h : WellTyped s ctx) (name : Option String) :
    WellTyped s { ctx with
      input := ctx.objectFields.bind fun fields => name.bind fun n =>
        (fields.get? n).map InputValue.type } where
  __ := h
  input a ha := by
    obtain ⟨fields, hfields, ha⟩ := Option.bind_eq_some_iff.mp ha
    obtain ⟨n, -, ha⟩ := Option.bind_eq_some_iff.mp ha
    obtain ⟨f, hf, rfl⟩ := Option.map_eq_some_iff.mp ha
    obtain ⟨t, ht, hinput⟩ := h.objectFields fields hfields
    refine (hs.typeFits ht).inputFields_input fields hinput f ?_
    exact Keyed.mem_values_iff.mpr ⟨n, Keyed.get?_eq_some_iff.mp hf⟩

/-! ### Steps and runs -/

/-- One step: every state leaves a context well typed. -/
theorem enter (hs : s.WellFormed) (h : WellTyped s ctx) (before : Option Kind) (state : State) :
    WellTyped s (Context.enter s before ctx state) := by
  unfold Context.enter
  cases state.kind with
  | query | shortQuery => exact h.set_named hs fun t ht => ⟨_, ht⟩
  | mutation | subscription | fragmentDefinition | inlineFragment =>
      refine h.set_named hs fun t ht => ?_
      obtain ⟨name, -, ht⟩ := Option.bind_eq_some_iff.mp ht
      exact ⟨name, ht⟩
  | aliasedField | field => exact h.set_field fun f hf => h.isField_of_selected? hf
  | selectionSet => exact h.set_parent hs
  | directive => exact h.set_directive hs state.name
  | arguments => exact { h with arguments := fun _ hp => h.isParameters_of_argumentsIn hp }
  | argument =>
      refine h.set_argument hs fun p hp => ?_
      obtain ⟨parameters, harguments, hp⟩ := Option.bind_eq_some_iff.mp hp
      obtain ⟨n, -, hp⟩ := Option.bind_eq_some_iff.mp hp
      exact ⟨parameters, harguments, List.mem_of_find?_eq_some hp⟩
  | listValue => exact h.set_item
  | objectValue => exact h.set_objectFields hs
  | objectField => exact h.set_objectField hs state.name
  | _ => exact h

/-- A run: so do all the states of a chain. -/
theorem resolveFrom (hs : s.WellFormed) (h : WellTyped s ctx) (before : Option Kind)
    (states : List State) : WellTyped s (Context.resolveFrom s before ctx states) := by
  induction states generalizing before ctx with
  | nil => exact h
  | cons state rest ih => exact ih (h.enter hs before state) (some state.kind)

/-- An argument that is given by its name is the one that stands under that name. -/
theorem argument_enter (hs : s.WellFormed) (h : WellTyped s ctx) (before : Option Kind)
    {state : State} (hkind : state.kind = .argument) {name : String}
    (hname : state.name = some name) :
    (Context.enter s before ctx state).argument =
      ctx.arguments.bind fun parameters => parameters.get? name := by
  rw [enter_argument hkind, hname]
  cases harguments : ctx.arguments with
  | none => rfl
  | some parameters =>
      have hindexed := (hs.parametersFit (h.arguments parameters harguments)).indexed
      exact hindexed.find?_values name

end WellTyped

theorem wellTyped_resolve {s : Schema} (hs : s.WellFormed) (c : Chain) :
    WellTyped s (resolve s c) :=
  (wellTyped_unknown s).resolveFrom hs none c

/-- In every schema that is built, every chain leads to a well-typed context. -/
theorem wellTyped_resolve_of_ofDocuments {docs : List (Option String × Sdl.Document)} {s : Schema}
    (h : Schema.ofDocuments docs = .ok s) (c : Chain) : WellTyped s (resolve s c) := by
  obtain ⟨hvalid, hs⟩ := Schema.ofDocuments_eq_ok_iff.mp h
  exact wellTyped_resolve (hs.wellFormed hvalid) c

/-- The cursor on the value of `first` in `query { pets(first: ...) }`. -/
def petChain : Chain :=
  [{ kind := .query }, { kind := .selectionSet }, { kind := .field, name := some "pets" },
    { kind := .arguments }, { kind := .argument, name := some "first", step := 2 }]

theorem wellTyped_petChain :
    ∃ docs s, Sdl.readAll? petTexts = some docs ∧ Schema.ofDocuments docs = .ok s ∧
      (resolve s petChain).input.map AnnotatedType.text = some "Int" ∧
      WellTyped s (resolve s petChain) := by
  obtain ⟨docs, s, hdocs, hs, hinput⟩ :=
    @Schema.exists_ofDocuments_of_test petTexts
      (fun s => (resolve s petChain).input.map AnnotatedType.text = some "Int") _
      (by decide +kernel)
  exact ⟨docs, s, hdocs, hs, hinput, wellTyped_resolve_of_ofDocuments hs petChain⟩

end Context

end SchemaHint
