import SchemaHint.Proofs.Schema.WellFormed

/-!
# Arguments by name

Arguments are gathered by name without a check for repeated names: of several arguments of one name
the last one stays, at the place of the first, and only what stays is checked.

* `Gathers` : how parameters come from the arguments of a definition;
* `gathers_parametersOf`, `values_parametersOf_eq_iff` : nothing is lost iff no name is repeated;
* `Schema.Holds` : a schema has such parameters, and has checked them;
* `Schema.Describes.holds_field`, `Schema.Describes.holds_directive` : the parameters of every field
  and of every directive that is defined.
-/

namespace SchemaHint

set_option autoImplicit false

/-! ## Parameters of a list of arguments -/

/-- How parameters come from the arguments of a definition in a text with the given path. -/
structure Gathers (path : Option String) (arguments : List Sdl.InputDef)
    (parameters : Keyed InputValue) : Prop where
  /-- Every name stands once, where it came first. -/
  keys_eq : parameters.keys = (arguments.map Sdl.InputDef.name).eraseDups
  /-- Under a name stands the last argument of that name. -/
  get?_eq : ∀ name, parameters.get? name =
    (arguments.reverse.find? fun a => a.name = name).map (InputValue.ofDef path)
  /-- There is one entry for each argument, in order, iff no name is repeated. -/
  values_eq_iff : parameters.values = arguments.map (InputValue.ofDef path) ↔
    (arguments.map Sdl.InputDef.name).Nodup

theorem lookup_map_eq {δ α : Type} (name : δ → String) (make : δ → α) (defs : List δ)
    (key : String) :
    (defs.map fun d => (name d, make d)).lookup key =
      (defs.find? fun d => name d = key).map make := by
  induction defs with
  | nil => rfl
  | cons d defs ih =>
    by_cases hkey : name d = key
    · simp [hkey]
    · have hne : (key == name d) = false := beq_eq_false_iff_ne.mpr (Ne.symm hkey)
      simp [List.lookup_cons, hne, hkey, ih]

section Parameters
variable (path : Option String) (arguments : List Sdl.InputDef)

theorem parametersOf_eq : parametersOf (arguments.map (InputValue.ofDef path)) =
    .ofList (arguments.map fun a => (a.name, InputValue.ofDef path a)) := by
  rw [parametersOf, List.map_map]
  rfl

theorem values_parametersOf_eq_iff :
    (parametersOf (arguments.map (InputValue.ofDef path))).values =
        arguments.map (InputValue.ofDef path) ↔
      (arguments.map Sdl.InputDef.name).Nodup := by
  have hnames : (arguments.map (InputValue.ofDef path)).map InputValue.name =
      arguments.map Sdl.InputDef.name := by
    rw [List.map_map]
    rfl
  constructor
  · intro h
    have hindexed := Keyed.indexedBy_ofList InputValue.name (arguments.map (InputValue.ofDef path))
    rw [← hnames, ← h]
    exact hindexed.2
  · intro h
    have hfst : (arguments.map fun a => (a.name, InputValue.ofDef path a)).map Prod.fst =
        arguments.map Sdl.InputDef.name := by
      rw [List.map_map]
      rfl
    rw [parametersOf_eq, Keyed.values, Keyed.entries_ofList (by rwa [hfst]), List.map_map]
    rfl

theorem gathers_parametersOf :
    Gathers path arguments (parametersOf (arguments.map (InputValue.ofDef path))) where
  keys_eq := by
    rw [parametersOf_eq, Keyed.keys_ofList, List.map_map]
    rfl
  get?_eq name := by
    rw [parametersOf_eq, Keyed.get?_ofList, ← List.map_reverse]
    exact lookup_map_eq _ _ _ _
  values_eq_iff := values_parametersOf_eq_iff path arguments

end Parameters

/-! ## Parameters of a schema -/

/-- A schema has checked the types of parameters that come from the arguments of a definition. -/
structure Schema.Holds (s : Schema) (path : Option String) (arguments : List Sdl.InputDef)
    (parameters : Keyed InputValue) : Prop extends Gathers path arguments parameters where
  checked : ∀ p ∈ parameters.values,
    Reference.ofParameter p ∈ allReferences s.types s.directives ∧ s.IsInput p.type

/-- The field of a type. -/
def Schema.fieldOf? (s : Schema) (typeName field : String) : Option Field := do
  let t ← s.type? typeName
  let fields ← t.fields?
  fields.get? field

/-- A schema has the arguments of every field and directive that is defined. -/
structure Schema.HoldsArguments (s : Schema) (ds : Definitions) : Prop where
  definitions : ∀ d ∈ ds.types, ∀ f ∈ d.2.body.fields,
    ∃ field, s.fieldOf? d.2.name f.name = some field ∧ s.Holds d.1 f.arguments field.parameters
  extensions : ∀ e ∈ ds.extensions, ∀ f ∈ e.2.body.fields,
    ∃ field, s.fieldOf? e.2.name f.name = some field ∧ s.Holds e.1 f.arguments field.parameters
  directives : ∀ d ∈ ds.directives, ∃ directive, s.directive? d.2.name = some directive ∧
    s.Holds d.1 d.2.arguments directive.parameters

namespace Schema.Describes

variable {ds : Definitions} {s : Schema} (hs : s.Describes ds) (hv : ds.Valid)
include hs hv

theorem holds_of_forall_mem {path : Option String} {arguments : List Sdl.InputDef}
    {parameters : Keyed InputValue} (h : Gathers path arguments parameters)
    (hmem : ∀ p ∈ parameters.values,
      Reference.ofParameter p ∈ allReferences s.types s.directives) :
    s.Holds path arguments parameters := by
  refine ⟨h, fun p hp => ⟨hmem p hp, ?_⟩⟩
  exact isInput_of_good (hs.references_good hv _ (hmem p hp))

theorem holds_directive {d : Option String × Sdl.DirectiveDef} (hd : d ∈ ds.directives) :
    ∃ directive, s.directive? d.2.name = some directive ∧
      s.Holds d.1 d.2.arguments directive.parameters := by
  have hmem : Directive.ofDef d.1 d.2 ∈ s.directives.values :=
    (hs.mem_directives_iff hv).mpr (Or.inr ⟨d, hd, rfl⟩)
  refine ⟨.ofDef d.1 d.2, ?_, hs.holds_of_forall_mem hv (gathers_parametersOf d.1 d.2.arguments) ?_⟩
  · exact (hs.directives_indexed hv).get?_eq_some_iff.mpr ⟨hmem, rfl⟩
  · intro p hp
    rw [allReferences, List.mem_append]
    refine Or.inr (List.mem_flatMap.mpr ⟨_, hmem, ?_⟩)
    exact List.mem_map_of_mem hp

section Fields
variable {d : Option String × Sdl.TypeDef} {c : Contribution} {f : Sdl.FieldDef}
  (hd : d ∈ ds.types) (hc : c ∈ contributions ds.extensions d) (hf : f ∈ c.body.fields)
include hd hc hf

omit hs in
/-- A definition to which some contribution adds a field is that of an object or an interface. -/
theorem fields?_of_contribution :
    (NamedType.ofDefinition ds.extensions d).fields? =
      some (.ofList ((contributions ds.extensions d).flatMap Contribution.fields)) := by
  have hkind := hv.extensionsFit.kind_of_mem hv.loadable.types_fit hd hc
  have hcomposite : d.2.body.kind = .object ∨ d.2.body.kind = .interface := by
    by_contra h
    rw [← hkind, not_or] at h
    exact List.ne_nil_of_mem hf (Sdl.Body.fields_eq_nil h.1 h.2)
  rw [NamedType.ofDefinition]
  cases hbody : d.2.body <;> rw [hbody] at hcomposite
  case object => rfl
  case interface => rfl
  all_goals rcases hcomposite with h | h <;> cases h

omit hs in
theorem get?_field_of_contribution :
    (Keyed.ofList ((contributions ds.extensions d).flatMap Contribution.fields)).get? f.name =
      some (.ofDef c.path f) := by
  have hnodup := (hv.extensionsFit.members_fit d hd).fields_nodup
  rw [← Contribution.map_fst_entries Sdl.Body.fields Sdl.FieldDef.name fun c => Field.ofDef c.path]
    at hnodup
  rw [Keyed.get?_eq_some_iff, Contribution.fields, Keyed.entries_ofList hnodup, List.mem_flatMap]
  exact ⟨c, hc, List.mem_map_of_mem hf⟩

theorem fieldOf?_of_contribution : s.fieldOf? d.2.name f.name = some (.ofDef c.path f) := by
  have htype : s.type? d.2.name = some (.ofDefinition ds.extensions d) :=
    (hs.types_indexed hv).get?_eq_some_iff.mpr
      ⟨(hs.mem_types_iff hv).mpr (Or.inr ⟨d, hd, rfl⟩), rfl⟩
  rw [Schema.fieldOf?, htype]
  simp only [Option.bind_eq_bind, Option.bind_some, fields?_of_contribution hv hd hc hf]
  exact get?_field_of_contribution hv hd hc hf

theorem holds_field : ∃ field, s.fieldOf? d.2.name f.name = some field ∧
    s.Holds c.path f.arguments field.parameters := by
  refine ⟨_, hs.fieldOf?_of_contribution hv hd hc hf,
    hs.holds_of_forall_mem hv (gathers_parametersOf c.path f.arguments) ?_⟩
  intro p hp
  have htype : NamedType.ofDefinition ds.extensions d ∈ s.types.values :=
    (hs.mem_types_iff hv).mpr (Or.inr ⟨d, hd, rfl⟩)
  have hfield := Keyed.mem_values_iff.mpr
    ⟨_, Keyed.get?_eq_some_iff.mp (get?_field_of_contribution hv hd hc hf)⟩
  obtain ⟨header, names, href⟩ := Reference.ofType_of_fields? (fields?_of_contribution hv hd hc hf)
  rw [allReferences, List.mem_append]
  refine Or.inl (List.mem_flatMap.mpr ⟨_, htype, ?_⟩)
  rw [href, Reference.ofComposite, List.mem_append]
  refine Or.inr (List.mem_flatMap.mpr ⟨_, hfield, ?_⟩)
  exact List.mem_cons_of_mem _ (List.mem_map_of_mem hp)

end Fields

end Schema.Describes

/-- The arguments of every field and every directive that is defined are gathered by name. -/
theorem Schema.holdsArguments_of_ofDocuments {docs : List (Option String × Sdl.Document)}
    {s : Schema} (h : Schema.ofDocuments docs = .ok s) :
    s.HoldsArguments (.ofDocuments docs) := by
  obtain ⟨hvalid, hs⟩ := Schema.ofDocuments_eq_ok_iff.mp h
  refine ⟨fun d hd f hf => ?_, fun e he f hf => ?_, fun d hd => hs.holds_directive hvalid hd⟩
  · have hc : .ofTypeDef d ∈ contributions (Definitions.ofDocuments docs).extensions d :=
      List.mem_cons_self
    exact hs.holds_field hvalid hd hc hf
  · obtain ⟨d, hd, hname, -⟩ := hvalid.extended e he
    have hc : .ofExtension e ∈ contributions (Definitions.ofDocuments docs).extensions d := by
      refine List.mem_cons_of_mem _ (List.mem_map_of_mem (List.mem_filter.mpr ⟨he, ?_⟩))
      exact decide_eq_true hname.symm
    rw [← hname]
    exact hs.holds_field hvalid hd hc hf

/-- Texts with repeated arguments, of which the replaced ones have types that are not defined. -/
def repeatedTexts : List (Option String × String) :=
  [(none, "type Query { f(a: Gone, b: ID, a: Int = 1): Int } directive @d(x: Lost, x: [ID]) on FIELD"),
    (some "more.graphql", "extend type Query { g(c: Gone, c: Int!): Int }")]

/-- The name and the type of each parameter, in order. -/
def parameterTexts (parameters : Keyed InputValue) : List (String × String) :=
  parameters.entries.map fun e => (e.1, e.2.type.text)

theorem Schema.holdsArguments_repeatedTexts :
    ∃ docs s, Sdl.readAll? repeatedTexts = some docs ∧ Schema.ofDocuments docs = .ok s ∧
      s.HoldsArguments (.ofDocuments docs) ∧
      (s.fieldOf? "Query" "f").map (fun f => parameterTexts f.parameters) =
        some [("a", "Int"), ("b", "ID")] ∧
      (s.fieldOf? "Query" "g").map (fun f => parameterTexts f.parameters) = some [("c", "Int!")] ∧
      (s.directive? "d").map (fun d => parameterTexts d.parameters) = some [("x", "[ID]")] ∧
      s.type? "Gone" = none ∧ s.type? "Lost" = none := by
  obtain ⟨docs, s, hdocs, hs, hparameters⟩ :=
    @Schema.exists_ofDocuments_of_test repeatedTexts
      (fun s => (s.fieldOf? "Query" "f").map (fun f => parameterTexts f.parameters) =
          some [("a", "Int"), ("b", "ID")] ∧
        (s.fieldOf? "Query" "g").map (fun f => parameterTexts f.parameters) = some [("c", "Int!")] ∧
        (s.directive? "d").map (fun d => parameterTexts d.parameters) = some [("x", "[ID]")] ∧
        s.type? "Gone" = none ∧ s.type? "Lost" = none)
      _ (by decide +kernel)
  exact ⟨docs, s, hdocs, hs, Schema.holdsArguments_of_ofDocuments hs, hparameters⟩

end SchemaHint
