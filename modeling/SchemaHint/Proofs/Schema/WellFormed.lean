import SchemaHint.Proofs.Schema.Acceptance

/-!
# Well-formed schemas

What holds of every schema that is built, whatever the definitions and extensions it comes from.

* `Schema.HasKind`, `Schema.IsInput`, `Schema.IsOutput` : what a name or an annotation stands for in
  a schema;
* `Schema.ParametersFit`, `Schema.FieldFits`, `Schema.TypeFits` : what arguments, fields and types
  satisfy;
* `Schema.WellFormed` : what the whole schema satisfies;
* `Schema.Describes.wellFormed` : the schema of valid definitions is well formed.
-/

namespace SchemaHint

set_option autoImplicit false

/-! ## What schemas satisfy -/

namespace Schema

/-- The name is that of a type of the kind. -/
def HasKind (s : Schema) (name : String) (kind : TypeKind) : Prop :=
  ∃ t, s.type? name = some t ∧ t.kind = kind

/-- The innermost type of an annotation is there and can be given as input. -/
def IsInput (s : Schema) (a : AnnotatedType) : Prop :=
  ∃ t, s.innermostType? a = some t ∧ t.isInput = true

/-- The innermost type of an annotation is there and is no input object. -/
def IsOutput (s : Schema) (a : AnnotatedType) : Prop :=
  ∃ t, s.innermostType? a = some t ∧ t.kind ≠ .inputObject

/-- Arguments stand under their names and can be given as input. -/
structure ParametersFit (s : Schema) (parameters : Keyed InputValue) : Prop where
  indexed : parameters.IndexedBy InputValue.name
  input : ∀ p ∈ parameters.values, s.IsInput p.type

structure FieldFits (s : Schema) (f : Field) : Prop where
  name_open : isReserved f.name = false
  output : s.IsOutput f.type
  parameters : s.ParametersFit f.parameters

/-- The members of a type stand under their names and fit the other types. -/
structure TypeFits (s : Schema) (t : NamedType) : Prop where
  name_open : isReserved t.name = false
  fields_indexed : ∀ fields, t.fields? = some fields → fields.IndexedBy Field.name
  fields_fit : ∀ fields, t.fields? = some fields → ∀ f ∈ fields.values, s.FieldFits f
  interfaces_nodup : ∀ names, t.interfaceNames? = some names → names.Nodup
  interfaces_not_self : ∀ names, t.interfaceNames? = some names → t.name ∉ names
  interfaces : ∀ names, t.interfaceNames? = some names → ∀ name ∈ names, s.HasKind name .interface
  members : ∀ members, t.members? = some members → ∀ name ∈ members.keys, s.HasKind name .object
  values_indexed : ∀ values, t.enumValues? = some values → values.IndexedBy EnumValue.name
  values_nonempty : ∀ values, t.enumValues? = some values → values.values ≠ []
  inputFields_indexed : ∀ fields, t.inputFields? = some fields → fields.IndexedBy InputValue.name
  inputFields_input : ∀ fields, t.inputFields? = some fields →
    ∀ f ∈ fields.values, s.IsInput f.type

/-- What holds of every schema that is built. -/
structure WellFormed (s : Schema) : Prop where
  types_indexed : s.types.IndexedBy NamedType.name
  directives_indexed : s.directives.IndexedBy Directive.name
  /-- The built-in scalars come first, and every other type is defined. -/
  types_split : ∃ rest, s.types.values = BuiltinScalar.all.map .builtin ++ rest ∧
    ∀ t ∈ rest, ∃ header body, t = .defined header body
  builtin_type : ∀ name b, s.type? name = some (.builtin b) ↔ name = b.name
  /-- The built-in directives come first. -/
  directives_split : Directive.builtins <+: s.directives.values
  isBuiltin_iff : ∀ d ∈ s.directives.values, d.isBuiltin = true ↔ d ∈ Directive.builtins
  types_fit : ∀ t ∈ s.types.values, s.TypeFits t
  directiveNames_open : ∀ d ∈ s.directives.values, isReserved d.name = false
  directives_fit : ∀ d ∈ s.directives.values, s.ParametersFit d.parameters
  /-- The root types are objects, and different ones for different operations. -/
  roots_object : ∀ o name, s.root? o = some name → s.HasKind name .object
  roots_differ : ∀ o o' name, s.root? o = some name → s.root? o' = some name → o = o'

end Schema

/-! ## What good references say about members -/

section References
variable {s : Schema} {t : NamedType}

theorem Schema.isOutput_of_good {a : AnnotatedType} {typeName field : String} {defined : Location}
    (h : (Reference.ofAnnotated a (.outputField typeName field defined)).Good s.types) :
    s.IsOutput a := by
  obtain ⟨t, ht, hkind⟩ := h
  exact ⟨t, ht, by simpa [Use.allows, Reference.ofAnnotated] using hkind⟩

theorem Schema.isInput_of_good {p : InputValue} (h : (Reference.ofParameter p).Good s.types) :
    s.IsInput p.type :=
  h

theorem Reference.ofType_of_fields? {fields : Keyed Field} (h : t.fields? = some fields) :
    ∃ header names, Reference.ofType t = Reference.ofComposite header fields names := by
  cases t with
  | builtin b => cases h
  | defined header body =>
      cases body <;> cases h
      all_goals exact ⟨_, _, rfl⟩

theorem Reference.ofType_of_interfaceNames? {names : List String}
    (h : t.interfaceNames? = some names) :
    ∃ header fields, Reference.ofType t = Reference.ofComposite header fields names := by
  cases t with
  | builtin b => cases h
  | defined header body =>
      cases body <;> cases h
      all_goals exact ⟨_, _, rfl⟩

variable (hgood : ∀ r ∈ Reference.ofType t, r.Good s.types)
include hgood

theorem Schema.forall_field_of_good {fields : Keyed Field} (h : t.fields? = some fields) :
    ∀ f ∈ fields.values, s.IsOutput f.type ∧ ∀ p ∈ f.parameters.values, s.IsInput p.type := by
  obtain ⟨header, names, href⟩ := Reference.ofType_of_fields? h
  rw [href, Reference.ofComposite, List.forall_mem_append, List.forall_mem_flatMap] at hgood
  intro f hf
  have hfield := hgood.2 f hf
  rw [Reference.ofField, List.forall_mem_cons, List.forall_mem_map] at hfield
  exact ⟨isOutput_of_good hfield.1, fun p hp => isInput_of_good (hfield.2 p hp)⟩

theorem Schema.forall_interface_of_good {names : List String}
    (h : t.interfaceNames? = some names) : ∀ name ∈ names, s.HasKind name .interface := by
  obtain ⟨header, fields, href⟩ := Reference.ofType_of_interfaceNames? h
  rw [href, Reference.ofComposite, List.forall_mem_append, List.forall_mem_map] at hgood
  intro name hname
  obtain ⟨t', ht', hkind⟩ := hgood.1 name hname
  exact ⟨t', ht', by simpa [Use.allows] using hkind⟩

theorem Schema.forall_member_of_good {members : Keyed Location} (h : t.members? = some members) :
    ∀ name ∈ members.keys, s.HasKind name .object := by
  cases t with
  | builtin b => cases h
  | defined header body =>
      cases body <;> cases h
      rw [Reference.ofType, List.forall_mem_map] at hgood
      intro name hname
      obtain ⟨location, hmem⟩ := Keyed.mem_keys_iff.mp hname
      obtain ⟨t', ht', hkind⟩ := hgood _ hmem
      exact ⟨t', ht', by simpa [Use.allows] using hkind⟩

theorem Schema.forall_inputField_of_good {fields : Keyed InputValue}
    (h : t.inputFields? = some fields) : ∀ f ∈ fields.values, s.IsInput f.type := by
  cases t with
  | builtin b => cases h
  | defined header body =>
      cases body <;> cases h
      rw [Reference.ofType, List.forall_mem_map] at hgood
      exact hgood

end References

/-! ## What definitions say about members -/

section Definitions
variable {es : List (Option String × Sdl.TypeExtension)} {d : Option String × Sdl.TypeDef}

theorem NamedType.fields?_ofDefinition {fields : Keyed Field}
    (h : (NamedType.ofDefinition es d).fields? = some fields) :
    fields = .ofList ((contributions es d).flatMap Contribution.fields) := by
  rw [NamedType.ofDefinition] at h
  cases hbody : d.2.body <;> rw [hbody] at h <;> cases h <;> rfl

theorem NamedType.interfaceNames?_ofDefinition {names : List String}
    (h : (NamedType.ofDefinition es d).interfaceNames? = some names) :
    names = ((contributions es d).map Contribution.body).flatMap Sdl.Body.interfaces := by
  rw [NamedType.ofDefinition] at h
  cases hbody : d.2.body <;> rw [hbody] at h <;> cases h <;> rfl

theorem NamedType.inputFields?_ofDefinition {fields : Keyed InputValue}
    (h : (NamedType.ofDefinition es d).inputFields? = some fields) :
    fields = .ofList ((contributions es d).flatMap Contribution.inputFields) := by
  rw [NamedType.ofDefinition] at h
  cases hbody : d.2.body <;> rw [hbody] at h <;> cases h
  rfl

theorem NamedType.enumValues?_ofDefinition {values : Keyed EnumValue}
    (h : (NamedType.ofDefinition es d).enumValues? = some values) :
    (∃ defs, d.2.body = .enum defs) ∧
      values = .ofList ((contributions es d).flatMap Contribution.values) := by
  rw [NamedType.ofDefinition] at h
  cases hbody : d.2.body <;> rw [hbody] at h <;> cases h
  exact ⟨⟨_, rfl⟩, rfl⟩

theorem Schema.typeFits_builtin (s : Schema) (b : BuiltinScalar) : s.TypeFits (.builtin b) := by
  constructor
  case name_open => cases b <;> decide
  all_goals
    intro _ h
    cases h

/-- The fields of a definition and its extensions, as far as they do not depend on other types. -/
theorem forall_field_ofDefinition (hfit : MembersFit d.2.name ((contributions es d).map Contribution.body))
    {fields : Keyed Field} (h : (NamedType.ofDefinition es d).fields? = some fields) :
    ∀ f ∈ fields.values,
      isReserved f.name = false ∧ f.parameters.IndexedBy InputValue.name := by
  rw [NamedType.fields?_ofDefinition h, Contribution.fields, forall_values_iff hfit.fields_nodup]
  intro c hc x hx
  refine ⟨hfit.fields_open x ?_, Keyed.indexedBy_ofList InputValue.name _⟩
  rw [List.flatMap_map, List.mem_flatMap]
  exact ⟨c, hc, hx⟩

theorem enumValues_ofDefinition_ne_nil (henum : d.2.body ≠ .enum []) {values : Keyed EnumValue}
    (h : (NamedType.ofDefinition es d).enumValues? = some values) : values.values ≠ [] := by
  obtain ⟨⟨defs, hbody⟩, rfl⟩ := NamedType.enumValues?_ofDefinition h
  cases defs with
  | nil => exact absurd hbody henum
  | cons v defs =>
      have hkey : v.name ∈ (Keyed.ofList ((contributions es d).flatMap Contribution.values)).keys := by
        rw [Keyed.mem_keys_ofList, Contribution.values, Contribution.map_fst_entries, contributions,
          List.map_cons, List.flatMap_cons]
        simp [Contribution.ofTypeDef, hbody, Sdl.Body.values]
      obtain ⟨value, hvalue⟩ := Keyed.mem_keys_iff.mp hkey
      exact List.ne_nil_of_mem (Keyed.mem_values_iff.mpr ⟨_, hvalue⟩)

theorem Schema.typeFits_ofDefinition {s : Schema} (hname : isReserved d.2.name = false)
    (henum : d.2.body ≠ .enum [])
    (hfit : MembersFit d.2.name ((contributions es d).map Contribution.body))
    (hgood : ∀ r ∈ Reference.ofType (.ofDefinition es d), r.Good s.types) :
    s.TypeFits (.ofDefinition es d) where
  name_open := hname
  fields_indexed fields h := by
    rw [NamedType.fields?_ofDefinition h, Contribution.fields]
    apply Contribution.indexedBy_ofList
    intro c x
    rfl
  fields_fit fields h f hf := by
    obtain ⟨hopen, hindexed⟩ := forall_field_ofDefinition hfit h f hf
    obtain ⟨houtput, hinput⟩ := forall_field_of_good hgood h f hf
    exact ⟨hopen, houtput, hindexed, hinput⟩
  interfaces_nodup names h := by
    rw [NamedType.interfaceNames?_ofDefinition h]
    exact hfit.interfaces_nodup
  interfaces_not_self names h := by
    rw [NamedType.interfaceNames?_ofDefinition h]
    exact hfit.not_self
  interfaces names h := forall_interface_of_good hgood h
  members members h := forall_member_of_good hgood h
  values_indexed values h := by
    rw [(NamedType.enumValues?_ofDefinition h).2, Contribution.values]
    apply Contribution.indexedBy_ofList
    intro c x
    rfl
  values_nonempty values h := enumValues_ofDefinition_ne_nil henum h
  inputFields_indexed fields h := by
    rw [NamedType.inputFields?_ofDefinition h, Contribution.inputFields]
    apply Contribution.indexedBy_ofList
    intro c x
    rfl
  inputFields_input fields h := forall_inputField_of_good hgood h

end Definitions

/-! ## Schemas of valid definitions -/

namespace Schema.Describes

variable {ds : Definitions} {s : Schema} (hs : s.Describes ds) (hv : ds.Valid)
include hs hv

theorem entries_types : s.types.entries = typeEntries ds.types ds.extensions := by
  rw [hs.types, hv.loadable.types_fit.entries_ofList]

theorem entries_directives : s.directives.entries = directiveEntries ds.directives := by
  rw [hs.directives, hv.loadable.directives_fit.entries_ofList]

theorem values_types : s.types.values =
    BuiltinScalar.all.map .builtin ++ ds.types.map (.ofDefinition ds.extensions) := by
  rw [Keyed.values, hs.entries_types hv, typeEntries, List.map_append, List.map_map, List.map_map]
  rfl

theorem values_directives : s.directives.values =
    Directive.builtins ++ ds.directives.map fun d => .ofDef d.1 d.2 := by
  rw [Keyed.values, hs.entries_directives hv, directiveEntries, List.map_append, List.map_map,
    List.map_map]
  congr 1

theorem mem_types_iff {t : NamedType} :
    t ∈ s.types.values ↔
      (∃ b, t = .builtin b) ∨ ∃ d ∈ ds.types, t = .ofDefinition ds.extensions d := by
  simp only [Keyed.mem_values_iff, hs.entries_types hv, mem_typeEntries_iff]
  constructor
  · rintro ⟨name, ⟨b, -, rfl⟩ | ⟨d, hd, -, rfl⟩⟩
    · exact Or.inl ⟨b, rfl⟩
    · exact Or.inr ⟨d, hd, rfl⟩
  · rintro (⟨b, rfl⟩ | ⟨d, hd, rfl⟩)
    · exact ⟨b.name, Or.inl ⟨b, rfl, rfl⟩⟩
    · exact ⟨d.2.name, Or.inr ⟨d, hd, rfl, rfl⟩⟩

theorem mem_directives_iff {d : Directive} :
    d ∈ s.directives.values ↔
      d ∈ Directive.builtins ∨ ∃ c ∈ ds.directives, d = .ofDef c.1 c.2 := by
  simp only [Keyed.mem_values_iff, hs.entries_directives hv, mem_directiveEntries_iff]
  constructor
  · rintro ⟨name, ⟨hd, -⟩ | ⟨c, hc, -, rfl⟩⟩
    · exact Or.inl hd
    · exact Or.inr ⟨c, hc, rfl⟩
  · rintro (hd | ⟨c, hc, rfl⟩)
    · exact ⟨d.name, Or.inl ⟨hd, rfl⟩⟩
    · exact ⟨c.2.name, Or.inr ⟨c, hc, rfl, rfl⟩⟩

theorem references_good : ∀ r ∈ allReferences s.types s.directives, r.Good s.types := by
  rw [← referenceErrors_eq_nil_iff, hs.types, hs.directives,
    referenceErrors_eq_nil_iff_of_fit hv.loadable.types_fit hv.extensionsFit
      hv.loadable.directives_fit]
  exact ⟨hv.bodies_refer, hv.directives_refer⟩

theorem hasKind_of_defines {name : String} {kind : TypeKind} (h : ds.Defines name kind) :
    s.HasKind name kind := by
  rw [HasKind, type?, hs.types, exists_get?_iff hv.loadable.types_fit fun k => k = kind]
  exact ⟨kind, h, rfl⟩

theorem types_indexed : s.types.IndexedBy NamedType.name := by
  rw [Keyed.indexedBy_iff, hs.entries_types hv]
  rintro ⟨name, t⟩ he
  rcases mem_typeEntries_iff.mp he with ⟨b, rfl, rfl⟩ | ⟨d, -, rfl, rfl⟩
  · rfl
  · rfl

theorem directives_indexed : s.directives.IndexedBy Directive.name := by
  rw [Keyed.indexedBy_iff, hs.entries_directives hv]
  rintro ⟨name, d⟩ he
  rcases mem_directiveEntries_iff.mp he with ⟨-, rfl⟩ | ⟨c, -, rfl, rfl⟩
  · rfl
  · rfl

theorem types_split : ∃ rest, s.types.values = BuiltinScalar.all.map .builtin ++ rest ∧
    ∀ t ∈ rest, ∃ header body, t = .defined header body := by
  refine ⟨ds.types.map (.ofDefinition ds.extensions), hs.values_types hv, ?_⟩
  rw [List.forall_mem_map]
  intro d hd
  exact ⟨_, _, rfl⟩

theorem builtin_type (name : String) (b : BuiltinScalar) :
    s.type? name = some (.builtin b) ↔ name = b.name := by
  rw [type?, (hs.types_indexed hv).get?_eq_some_iff, hs.mem_types_iff hv, eq_comm]
  exact and_iff_right (Or.inl ⟨b, rfl⟩)

theorem directives_split : Directive.builtins <+: s.directives.values :=
  ⟨_, (hs.values_directives hv).symm⟩

theorem isBuiltin_iff : ∀ d ∈ s.directives.values, d.isBuiltin = true ↔ d ∈ Directive.builtins := by
  have hbuiltins : ∀ d ∈ Directive.builtins, d.isBuiltin = true := by
    decide
  intro d hd
  refine ⟨fun h => ?_, hbuiltins d⟩
  rcases (hs.mem_directives_iff hv).mp hd with hd | ⟨⟨path, c⟩, -, rfl⟩
  · exact hd
  · cases path <;> cases h

theorem types_fit : ∀ t ∈ s.types.values, s.TypeFits t := by
  have hgood := hs.references_good hv
  rw [allReferences, List.forall_mem_append, List.forall_mem_flatMap] at hgood
  intro t ht
  rcases (hs.mem_types_iff hv).mp ht with ⟨b, rfl⟩ | ⟨d, hd, rfl⟩
  · exact s.typeFits_builtin b
  · exact typeFits_ofDefinition (hv.typeNames_open d hd) (hv.enums_nonempty d hd)
      (hv.extensionsFit.members_fit d hd) (hgood.1 _ ht)

theorem directiveNames_open : ∀ d ∈ s.directives.values, isReserved d.name = false := by
  have hbuiltins : ∀ d ∈ Directive.builtins, isReserved d.name = false := by
    decide
  intro d hd
  rcases (hs.mem_directives_iff hv).mp hd with hd | ⟨c, hc, rfl⟩
  · exact hbuiltins d hd
  · exact hv.directiveNames_open c hc

theorem directives_fit : ∀ d ∈ s.directives.values, s.ParametersFit d.parameters := by
  have hgood := hs.references_good hv
  rw [allReferences, List.forall_mem_append, List.forall_mem_flatMap, List.forall_mem_flatMap] at hgood
  have hbuiltins : ∀ d ∈ Directive.builtins, d.parameters.IndexedBy InputValue.name := by
    simp only [Keyed.indexedBy_iff]
    decide
  intro d hd
  have hinput := hgood.2 d hd
  rw [Reference.ofDirective, List.forall_mem_map] at hinput
  refine ⟨?_, fun p hp => isInput_of_good (hinput p hp)⟩
  rcases (hs.mem_directives_iff hv).mp hd with hd | ⟨c, hc, rfl⟩
  · exact hbuiltins d hd
  · exact Keyed.indexedBy_ofList InputValue.name _

theorem roots_object (o : Operation) (name : String) (h : s.root? o = some name) :
    s.HasKind name .object := by
  apply hs.hasKind_of_defines hv
  rcases (hs.roots o name).mp h with ⟨c, hc, rfl⟩ | ⟨-, rfl, hdefines⟩
  · exact hv.roots_defined o c hc
  · exact hdefines

theorem roots_differ (o o' : Operation) (name : String) (h : s.root? o = some name)
    (h' : s.root? o' = some name) : o = o' :=
  hv.roots_differ o o' name ((hs.roots o name).mp h) ((hs.roots o' name).mp h')

/-- The schema of valid definitions is well formed. -/
theorem wellFormed : s.WellFormed where
  types_indexed := hs.types_indexed hv
  directives_indexed := hs.directives_indexed hv
  types_split := hs.types_split hv
  builtin_type := hs.builtin_type hv
  directives_split := hs.directives_split hv
  isBuiltin_iff := hs.isBuiltin_iff hv
  types_fit := hs.types_fit hv
  directiveNames_open := hs.directiveNames_open hv
  directives_fit := hs.directives_fit hv
  roots_object := hs.roots_object hv
  roots_differ := hs.roots_differ hv

end Schema.Describes

/-- Every schema that is built is well formed. -/
theorem Schema.wellFormed_of_ofDocuments {docs : List (Option String × Sdl.Document)} {s : Schema}
    (h : Schema.ofDocuments docs = .ok s) : s.WellFormed := by
  obtain ⟨hvalid, hs⟩ := Schema.ofDocuments_eq_ok_iff.mp h
  exact hs.wellFormed hvalid

/-- Texts of which the first extends a type that the last one defines. -/
def petTexts : List (Option String × String) :=
  [(none, "extend type Query { pets(first: Int): [Pet!] }"),
    (none, "interface Pet { name: ID } type Dog implements Pet { name: ID }"),
    (some "query.graphql",
      "union Any = Dog enum Kind { DOG } input In { kind: Kind } type Query { any(in: In): Any }")]

theorem Schema.wellFormed_petTexts :
    ∃ docs s, Sdl.readAll? petTexts = some docs ∧ Schema.ofDocuments docs = .ok s ∧
      s.types.keys = ["Boolean", "Float", "ID", "Int", "String", "Pet", "Dog", "Any", "Kind", "In",
        "Query"] ∧
      s.WellFormed := by
  obtain ⟨docs, s, hdocs, hs, hkeys⟩ :=
    @Schema.exists_ofDocuments_of_test petTexts
      (fun s => s.types.keys = ["Boolean", "Float", "ID", "Int", "String", "Pet", "Dog", "Any",
        "Kind", "In", "Query"]) _ (by decide +kernel)
  exact ⟨docs, s, hdocs, hs, hkeys, Schema.wellFormed_of_ofDocuments hs⟩

end SchemaHint
