import SchemaHint.Proofs.Schema.WellFormed

/-!
# Definitions in another order

The order in which definitions and extensions are loaded decides neither whether they make up a
schema nor, but for the order of names and members, which one.

* `Definitions.Valid.of_perm` : definitions stay valid in another order;
* `NamedType.SameUpToOrder` : two types differ in the order of their members only;
* `Schema.SameUpToOrder` : two schemas differ in the order of types, directives and members only;
* `Schema.Describes.sameUpToOrder` : the schemas of definitions in two orders are such schemas.
-/

namespace SchemaHint

set_option autoImplicit false

/-! ## Validity -/

namespace Definitions

section Mono
variable {ds ds' : Definitions} (h : ∀ name kind, ds.Defines name kind → ds'.Defines name kind)
include h

theorem InputType.mono {t : Sdl.TypeExpr} : ds.InputType t → ds'.InputType t := by
  rintro ⟨kind, hdefines, hkind⟩
  exact ⟨kind, h _ _ hdefines, hkind⟩

theorem OutputType.mono {t : Sdl.TypeExpr} : ds.OutputType t → ds'.OutputType t := by
  rintro ⟨kind, hdefines, hkind⟩
  exact ⟨kind, h _ _ hdefines, hkind⟩

theorem ArgumentsFit.mono {arguments : List Sdl.InputDef} (hfit : ds.ArgumentsFit arguments) :
    ds'.ArgumentsFit arguments :=
  fun a ha => (hfit a ha).mono h

/-- A body that refers well does so where more is defined. -/
theorem RefersWell.mono {b : Sdl.Body} (hb : ds.RefersWell b) : ds'.RefersWell b where
  interfaces name hname := h _ _ (hb.interfaces name hname)
  members name hname := h _ _ (hb.members name hname)
  fields f hf := (hb.fields f hf).mono h
  arguments f hf := (hb.arguments f hf).mono h
  inputFields f hf := (hb.inputFields f hf).mono h

end Mono

section Perm
variable {ds ds' : Definitions} (h : ds.Perm ds')
include h

theorem perm_types : ds.types.Perm ds'.types := h.filterMap _

theorem perm_extensions : ds.extensions.Perm ds'.extensions := h.filterMap _

theorem perm_directives : ds.directives.Perm ds'.directives := h.filterMap _

theorem perm_roots (o : Operation) : (ds.roots o).Perm (ds'.roots o) :=
  (h.filterMap _).filterMap _

theorem perm_bodies (d : Option String × Sdl.TypeDef) : (ds.bodies d).Perm (ds'.bodies d) :=
  (((perm_extensions h).filter _).map _).cons _

theorem defines_iff_of_perm {name : String} {kind : TypeKind} :
    ds.Defines name kind ↔ ds'.Defines name kind := by
  simp only [Defines, (perm_types h).mem_iff]

theorem isRoot_iff_of_perm {o : Operation} {name : String} :
    ds.IsRoot o name ↔ ds'.IsRoot o name := by
  have hnil : ds.roots o = [] ↔ ds'.roots o = [] := by
    rw [← List.length_eq_zero_iff, (perm_roots h o).length_eq, List.length_eq_zero_iff]
  simp only [IsRoot, (perm_roots h o).mem_iff, hnil, defines_iff_of_perm h]

theorem Linked.of_perm (hl : ds.Linked) : ds'.Linked where
  roots_defined o c hc := by
    rw [← defines_iff_of_perm h]
    exact hl.roots_defined o c ((perm_roots h o).mem_iff.mpr hc)
  query_root := by
    obtain ⟨name, hname⟩ := hl.query_root
    exact ⟨name, (isRoot_iff_of_perm h).mp hname⟩
  roots_differ o o' name ho ho' :=
    hl.roots_differ o o' name ((isRoot_iff_of_perm h).mpr ho) ((isRoot_iff_of_perm h).mpr ho')
  bodies_refer d hd b hb := by
    have hrefers := hl.bodies_refer d ((perm_types h).mem_iff.mpr hd) b
      ((perm_bodies h d).mem_iff.mpr hb)
    exact hrefers.mono fun _ _ => (defines_iff_of_perm h).mp
  directives_refer d hd := by
    have hfit := hl.directives_refer d ((perm_directives h).mem_iff.mpr hd)
    exact hfit.mono fun _ _ => (defines_iff_of_perm h).mp

end Perm

end Definitions

theorem MembersFit.of_perm {typeName : String} {bs bs' : List Sdl.Body} (h : bs.Perm bs')
    (hfit : MembersFit typeName bs) : MembersFit typeName bs' where
  fields_nodup := ((h.flatMap_right _).map _).nodup_iff.mp hfit.fields_nodup
  fields_open f hf := hfit.fields_open f ((h.flatMap_right _).mem_iff.mpr hf)
  interfaces_nodup := (h.flatMap_right _).nodup_iff.mp hfit.interfaces_nodup
  not_self hself := hfit.not_self ((h.flatMap_right _).mem_iff.mpr hself)
  members_nodup := (h.flatMap_right _).nodup_iff.mp hfit.members_nodup
  values_nodup := ((h.flatMap_right _).map _).nodup_iff.mp hfit.values_nodup
  inputFields_nodup := ((h.flatMap_right _).map _).nodup_iff.mp hfit.inputFields_nodup

/-- Definitions stay valid in another order. -/
theorem Definitions.Valid.of_perm {ds ds' : Definitions} (h : ds.Perm ds') (hv : ds.Valid) :
    ds'.Valid where
  toLinked := hv.toLinked.of_perm h
  typeNames_nodup :=
    (((perm_types h).map _).append_left _).nodup_iff.mp hv.typeNames_nodup
  typeNames_open d hd := hv.typeNames_open d ((perm_types h).mem_iff.mpr hd)
  directiveNames_nodup :=
    (((perm_directives h).map _).append_left _).nodup_iff.mp hv.directiveNames_nodup
  directiveNames_open d hd := hv.directiveNames_open d ((perm_directives h).mem_iff.mpr hd)
  roots_once o := by
    rw [← (perm_roots h o).length_eq]
    exact hv.roots_once o
  enums_nonempty d hd := hv.enums_nonempty d ((perm_types h).mem_iff.mpr hd)
  extended e he := by
    obtain ⟨d, hd, hname, hkind⟩ := hv.extended e ((perm_extensions h).mem_iff.mpr he)
    exact ⟨d, (perm_types h).mem_iff.mp hd, hname, hkind⟩
  members_fit d hd :=
    (hv.members_fit d ((perm_types h).mem_iff.mpr hd)).of_perm (perm_bodies h d)

/-! ## Schemas up to order -/

/-- Types that differ in the order of their members only. -/
structure NamedType.SameUpToOrder (t t' : NamedType) : Prop where
  name : t.name = t'.name
  kind : t.kind = t'.kind
  description : t.description = t'.description
  location : t.location = t'.location
  fields : Option.Rel Keyed.SameEntries t.fields? t'.fields?
  enumValues : Option.Rel Keyed.SameEntries t.enumValues? t'.enumValues?
  inputFields : Option.Rel Keyed.SameEntries t.inputFields? t'.inputFields?
  interfaces : Option.Rel List.Perm t.interfaceNames? t'.interfaceNames?
  members : Option.Rel Keyed.SameEntries t.members? t'.members?

/-- Schemas that differ in the order of types, directives and members only. -/
structure Schema.SameUpToOrder (s s' : Schema) : Prop where
  roots : ∀ o, s.root? o = s'.root? o
  typeNames : s.types.keys.Perm s'.types.keys
  types : ∀ name, Option.Rel NamedType.SameUpToOrder (s.type? name) (s'.type? name)
  directiveNames : s.directives.keys.Perm s'.directives.keys
  directives : ∀ name, s.directive? name = s'.directive? name

theorem NamedType.sameUpToOrder_builtin (b : BuiltinScalar) :
    (NamedType.builtin b).SameUpToOrder (.builtin b) :=
  ⟨rfl, rfl, rfl, rfl, .none, .none, .none, .none, .none⟩

section Contributions
variable {cs cs' : List Contribution} (h : cs.Perm cs')
include h

theorem Contribution.sameEntries_ofList {δ α : Type} {view : Sdl.Body → List δ} {name : δ → String}
    {make : Contribution → δ → α}
    (hnd : (((cs.map Contribution.body).flatMap view).map name).Nodup) :
    (Keyed.ofList (cs.flatMap (entries view name make))).SameEntries
      (.ofList (cs'.flatMap (entries view name make))) := by
  apply Keyed.sameEntries_ofList (h.flatMap_right _)
  rw [map_fst_entries]
  exact hnd

/-- A type of one header with the members of contributions in two orders. -/
theorem NamedType.sameUpToOrder_ofContributions {typeName : String}
    (hfit : MembersFit typeName (cs.map Contribution.body)) (header : Header) (b : Sdl.Body) :
    (NamedType.defined header (.ofContributions cs b)).SameUpToOrder
      (.defined header (.ofContributions cs' b)) := by
  -- a type of each kind has members of one or two sorts; it lists none of the others
  have hinterfaces : ((cs.map Contribution.body).flatMap Sdl.Body.interfaces).Perm
      ((cs'.map Contribution.body).flatMap Sdl.Body.interfaces) :=
    (h.map _).flatMap_right _
  have hmembers : (((cs.map Contribution.body).flatMap Sdl.Body.members).map id).Nodup := by
    rw [List.map_id]
    exact hfit.members_nodup
  cases b with
  | scalar => exact ⟨rfl, rfl, rfl, rfl, .none, .none, .none, .none, .none⟩
  | object _ _ =>
      exact ⟨rfl, rfl, rfl, rfl, .some (Contribution.sameEntries_ofList h hfit.fields_nodup), .none,
        .none, .some hinterfaces, .none⟩
  | interface _ _ =>
      exact ⟨rfl, rfl, rfl, rfl, .some (Contribution.sameEntries_ofList h hfit.fields_nodup), .none,
        .none, .some hinterfaces, .none⟩
  | union _ =>
      exact ⟨rfl, rfl, rfl, rfl, .none, .none, .none, .none,
        .some (Contribution.sameEntries_ofList h hmembers)⟩
  | enum _ =>
      exact ⟨rfl, rfl, rfl, rfl, .none, .some (Contribution.sameEntries_ofList h hfit.values_nodup),
        .none, .none, .none⟩
  | inputObject _ =>
      exact ⟨rfl, rfl, rfl, rfl, .none, .none,
        .some (Contribution.sameEntries_ofList h hfit.inputFields_nodup), .none, .none⟩

end Contributions

section Describes
variable {ds ds' : Definitions} (h : ds.Perm ds') (hv : ds.Valid)
include h hv

theorem Definitions.Valid.sameUpToOrder_ofDefinition {d : Option String × Sdl.TypeDef}
    (hd : d ∈ ds.types) :
    (NamedType.ofDefinition ds.extensions d).SameUpToOrder (.ofDefinition ds'.extensions d) :=
  NamedType.sameUpToOrder_ofContributions
    ((((Definitions.perm_extensions h).filter _).map _).cons _)
    (hv.extensionsFit.members_fit d hd) _ _

/-- A type that the schema of definitions has is one of the schema of the same definitions in
another order, up to the order of members. -/
theorem Schema.Describes.exists_type? {s s' : Schema} (hs : s.Describes ds) (hs' : s'.Describes ds')
    {name : String} {t : NamedType} (ht : s.type? name = some t) :
    ∃ t', s'.type? name = some t' ∧ t.SameUpToOrder t' := by
  rw [type?, hs.types, hv.loadable.types_fit.get?_ofList_iff] at ht
  rw [type?, hs'.types]
  have hfit' : TypesFit ds'.types := (hv.of_perm h).loadable.types_fit
  simp only [hfit'.get?_ofList_iff]
  rcases ht with ⟨b, hname, rfl⟩ | ⟨d, hd, hname, rfl⟩
  · exact ⟨_, Or.inl ⟨b, hname, rfl⟩, NamedType.sameUpToOrder_builtin b⟩
  · have hd' : d ∈ ds'.types := (Definitions.perm_types h).mem_iff.mp hd
    exact ⟨_, Or.inr ⟨d, hd', hname, rfl⟩, hv.sameUpToOrder_ofDefinition h hd⟩

/-- The schemas of definitions in two orders differ in the order of names and members only. -/
theorem Schema.Describes.sameUpToOrder {s s' : Schema} (hs : s.Describes ds)
    (hs' : s'.Describes ds') : s.SameUpToOrder s' := by
  have hv' : ds'.Valid := hv.of_perm h
  have htypeNames : s.types.keys.Perm s'.types.keys := by
    rw [Keyed.keys, Keyed.keys, hs.entries_types hv, hs'.entries_types hv', map_fst_typeEntries,
      map_fst_typeEntries]
    exact ((Definitions.perm_types h).map _).append_left _
  have hdirectives : s.directives.SameEntries s'.directives := by
    rw [Keyed.SameEntries, hs.entries_directives hv, hs'.entries_directives hv']
    exact ((Definitions.perm_directives h).map _).append_left _
  refine ⟨?_, htypeNames, ?_, hdirectives.keys, hdirectives.get?⟩
  · intro o
    apply Option.ext
    intro name
    rw [hs.roots, hs'.roots, Definitions.isRoot_iff_of_perm h]
  · intro name
    cases ht : s.type? name with
    | some t =>
        obtain ⟨t', ht', hsame⟩ := hs.exists_type? h hv hs' ht
        rw [ht']
        exact .some hsame
    | none =>
        have hnone : s'.type? name = none := by
          rw [type?, Keyed.get?_eq_none_iff] at ht ⊢
          rwa [← htypeNames.mem_iff]
        rw [hnone]
        exact .none

end Describes

theorem Schema.exists_ofDocuments_of_perm {docs docs' : List (Option String × Sdl.Document)}
    (h : (Definitions.ofDocuments docs).Perm (Definitions.ofDocuments docs')) :
    (∃ s, Schema.ofDocuments docs = .ok s) → ∃ s', Schema.ofDocuments docs' = .ok s' := by
  rintro ⟨s, hs⟩
  have hv' : (Definitions.ofDocuments docs').Valid := (ofDocuments_eq_ok_iff.mp hs).1.of_perm h
  obtain ⟨s', hs'⟩ := hv'.exists_describes
  exact ⟨s', ofDocuments_eq_ok_iff.mpr ⟨hv', hs'⟩⟩

/-- Documents with the same definitions in two orders both make up a schema or both do not, and the
two schemas differ in the order of names and members only. -/
theorem Schema.sameUpToOrder_of_perm {docs docs' : List (Option String × Sdl.Document)}
    (h : (Definitions.ofDocuments docs).Perm (Definitions.ofDocuments docs')) :
    ((∃ s, Schema.ofDocuments docs = .ok s) ↔ ∃ s', Schema.ofDocuments docs' = .ok s') ∧
      ∀ s s', Schema.ofDocuments docs = .ok s → Schema.ofDocuments docs' = .ok s' →
        s.SameUpToOrder s' := by
  refine ⟨⟨exists_ofDocuments_of_perm h, exists_ofDocuments_of_perm h.symm⟩, ?_⟩
  intro s s' hs hs'
  obtain ⟨hv, hdescribes⟩ := ofDocuments_eq_ok_iff.mp hs
  obtain ⟨-, hdescribes'⟩ := ofDocuments_eq_ok_iff.mp hs'
  exact hdescribes.sameUpToOrder h hv hdescribes'

theorem Schema.sameUpToOrder_petTexts_reverse :
    ∃ docs s s', Sdl.readAll? petTexts = some docs ∧ Schema.ofDocuments docs = .ok s ∧
      Schema.ofDocuments docs.reverse = .ok s' ∧
      s.types.keys.drop 5 = ["Pet", "Dog", "Any", "Kind", "In", "Query"] ∧
      s'.types.keys.drop 5 = ["Any", "Kind", "In", "Query", "Pet", "Dog"] ∧
      s.SameUpToOrder s' := by
  have hbuilt : ∀ {docs : List (Option String × Sdl.Document)} {names : List String},
      (Schema.ofDocuments docs).toOption.any (fun s => s.types.keys.drop 5 = names) = true →
        ∃ s, Schema.ofDocuments docs = .ok s ∧ s.types.keys.drop 5 = names := by
    intro docs names h
    cases hs : Schema.ofDocuments docs with
    | error e =>
        rw [hs] at h
        cases h
    | ok s =>
        rw [hs] at h
        exact ⟨s, rfl, of_decide_eq_true h⟩
  have htest : (Sdl.readAll? petTexts).any (fun docs =>
      (Schema.ofDocuments docs).toOption.any (fun s =>
        s.types.keys.drop 5 = ["Pet", "Dog", "Any", "Kind", "In", "Query"]) &&
      (Schema.ofDocuments docs.reverse).toOption.any (fun s =>
        s.types.keys.drop 5 = ["Any", "Kind", "In", "Query", "Pet", "Dog"])) = true := by
    decide +kernel
  obtain ⟨docs, hdocs, htests⟩ := (Option.any_eq_true _ _).mp htest
  rw [Bool.and_eq_true] at htests
  obtain ⟨s, hs, hnames⟩ := hbuilt htests.1
  obtain ⟨s', hs', hnames'⟩ := hbuilt htests.2
  have hperm : (Definitions.ofDocuments docs).Perm (Definitions.ofDocuments docs.reverse) :=
    (List.reverse_perm docs).symm.flatMap_right _
  exact ⟨docs, s, s', hdocs, hs, hs', hnames, hnames',
    (Schema.sameUpToOrder_of_perm hperm).2 s s' hs hs'⟩

end SchemaHint
