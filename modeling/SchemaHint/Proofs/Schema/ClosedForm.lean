import SchemaHint.Proofs.Schema.WellFormed

/-!
# The closed form of a schema

A schema is determined by its definitions in the order of loading and by its extensions in the order
of loading; where the extensions stand among the definitions does not matter.

* `Definitions.proper` : the definitions without the extensions;
* `Body.Collects` : a body has the members that contributions list, in order;
* `NamedType.MadeFrom` : a type is that of a definition with the members of its extensions;
* `Schema.MadeOf` : a schema is that of definitions and extensions;
* `Schema.MadeOf.unique` : there is only one such schema;
* `Schema.Describes.madeOf` : the schema of valid definitions has the closed form.
-/

namespace SchemaHint

set_option autoImplicit false

/-! ## Definitions without extensions -/

def Sdl.Definition.isExtension : Sdl.Definition → Bool
  | .extension _ => true
  | _ => false

namespace Definitions

/-- The definitions without the extensions, in the order of loading. -/
def proper (ds : Definitions) : Definitions := ds.filter fun d => !d.2.isExtension

theorem filterMap_proper {α : Type} {f : Option String × Sdl.Definition → Option α}
    (hf : ∀ path e, f (path, .extension e) = none) (ds : Definitions) :
    ds.proper.filterMap f = ds.filterMap f := by
  rw [proper, List.filterMap_filter]
  apply List.filterMap_congr
  intro d hd
  obtain ⟨path, d⟩ := d
  cases d with
  | extension e => rw [hf]; rfl
  | _ => rfl

theorem types_proper (ds : Definitions) : ds.proper.types = ds.types :=
  filterMap_proper (fun _ _ => rfl) ds

theorem directives_proper (ds : Definitions) : ds.proper.directives = ds.directives :=
  filterMap_proper (fun _ _ => rfl) ds

theorem roots_proper (ds : Definitions) (o : Operation) : ds.proper.roots o = ds.roots o := by
  have hschemas : ds.proper.schemas = ds.schemas := filterMap_proper (fun _ _ => rfl) ds
  rw [roots, hschemas, roots]

theorem isRoot_proper_iff {ds : Definitions} {o : Operation} {name : String} :
    ds.proper.IsRoot o name ↔ ds.IsRoot o name := by
  unfold IsRoot Defines
  rw [roots_proper, types_proper]

end Definitions

/-! ## Types and schemas in closed form -/

/-- A body has the members that contributions list, in order. Each is made from its own definition
and the path of the text that it stands in; a member of a union stands at the place of the
contribution. -/
def Body.Collects (cs : List Contribution) : Body → Prop
  | .scalar => True
  | .enum values => values.entries = cs.flatMap Contribution.values
  | .inputObject fields => fields.entries = cs.flatMap Contribution.inputFields
  | .interface fields interfaces =>
    fields.entries = cs.flatMap Contribution.fields ∧
      interfaces = cs.flatMap fun c => c.body.interfaces
  | .object fields interfaces =>
    fields.entries = cs.flatMap Contribution.fields ∧
      interfaces = cs.flatMap fun c => c.body.interfaces
  | .union members => members.entries = cs.flatMap Contribution.members

/-- A type has the location, description, name and kind of a definition, the members of the
definition and after them those of its extensions. -/
def NamedType.MadeFrom (es : List (Option String × Sdl.TypeExtension))
    (d : Option String × Sdl.TypeDef) (t : NamedType) : Prop :=
  ∃ body, t = .defined (.ofDefinition d) body ∧ body.kind = d.2.body.kind ∧
    body.Collects (contributions es d)

/-- A schema is that of definitions and extensions, both in the order of loading. -/
structure Schema.MadeOf (s : Schema) (ds : Definitions)
    (es : List (Option String × Sdl.TypeExtension)) : Prop where
  types_indexed : s.types.IndexedBy NamedType.name
  /-- The types are the built-in scalars and those of the definitions, in order. -/
  types : ∃ made, s.types.values = BuiltinScalar.all.map .builtin ++ made ∧
    List.Forall₂ (NamedType.MadeFrom es) ds.types made
  directives_indexed : s.directives.IndexedBy Directive.name
  /-- The directives are the built-in ones and those of the definitions, in order. -/
  directives : s.directives.values =
    Directive.builtins ++ ds.directives.map fun d => .ofDef d.1 d.2
  roots : ∀ o name, s.root? o = some name ↔ ds.IsRoot o name

/-! ## Uniqueness -/

theorem Keyed.entries_eq_of_indexedBy {α : Type} {name : α → String} {m : Keyed α}
    (h : m.IndexedBy name) : m.entries = m.values.map fun v => (name v, v) := by
  rw [Keyed.values, List.map_map]
  conv_lhs => rw [← List.map_id m.entries]
  apply List.map_congr_left
  intro e he
  exact Prod.ext (Keyed.indexedBy_iff.mp h e he) rfl

theorem Keyed.IndexedBy.ext {α : Type} {name : α → String} {m m' : Keyed α}
    (h : m.IndexedBy name) (h' : m'.IndexedBy name) (hvalues : m.values = m'.values) : m = m' := by
  rw [Keyed.ext_iff, entries_eq_of_indexedBy h, entries_eq_of_indexedBy h', hvalues]

theorem Body.Collects.unique {cs : List Contribution} {b b' : Body} (hkind : b.kind = b'.kind)
    (h : b.Collects cs) (h' : b'.Collects cs) : b = b' := by
  cases b <;> cases b' <;> cases hkind
  · rfl
  · rw [Keyed.ext (h.trans h'.symm)]
  · rw [Keyed.ext (h.trans h'.symm)]
  · rw [Keyed.ext (h.1.trans h'.1.symm), h.2.trans h'.2.symm]
  · rw [Keyed.ext (h.1.trans h'.1.symm), h.2.trans h'.2.symm]
  · rw [Keyed.ext (h.trans h'.symm)]

section Unique
variable {es : List (Option String × Sdl.TypeExtension)}

theorem NamedType.MadeFrom.unique {d : Option String × Sdl.TypeDef} {t t' : NamedType}
    (h : t.MadeFrom es d) (h' : t'.MadeFrom es d) : t = t' := by
  obtain ⟨body, rfl, hkind, hbody⟩ := h
  obtain ⟨body', rfl, hkind', hbody'⟩ := h'
  rw [hbody.unique (hkind.trans hkind'.symm) hbody']

theorem Schema.eq_of_root? {s s' : Schema} (htypes : s.types = s'.types)
    (hdirectives : s.directives = s'.directives) (hroots : ∀ o, s.root? o = s'.root? o) :
    s = s' := by
  have hquery : some s.query = some s'.query := hroots .query
  have hmutation : s.mutation = s'.mutation := hroots .mutation
  have hsubscription : s.subscription = s'.subscription := hroots .subscription
  cases s
  cases s'
  simp_all

/-- Definitions and extensions determine the schema. -/
theorem Schema.MadeOf.unique {s s' : Schema} {ds : Definitions} (h : s.MadeOf ds es)
    (h' : s'.MadeOf ds es) : s = s' := by
  obtain ⟨made, hmade, hfrom⟩ := h.types
  obtain ⟨made', hmade', hfrom'⟩ := h'.types
  have heq : made = made' :=
    List.right_unique_forall₂' (fun _ _ _ h h' => h.unique h') hfrom hfrom'
  have htypes : s.types = s'.types := by
    apply h.types_indexed.ext h'.types_indexed
    rw [hmade, hmade', heq]
  have hdirectives : s.directives = s'.directives := by
    apply h.directives_indexed.ext h'.directives_indexed
    rw [h.directives, h'.directives]
  refine Schema.eq_of_root? htypes hdirectives fun o => ?_
  apply Option.ext
  intro name
  rw [h.roots, h'.roots]

end Unique

/-! ## The schema of valid definitions -/

theorem Body.collects_ofContributions {typeName : String} {cs : List Contribution}
    (hfit : MembersFit typeName (cs.map Contribution.body)) (b : Sdl.Body) :
    (Body.ofContributions cs b).Collects cs := by
  have hentries : ∀ {δ α : Type} {view : Sdl.Body → List δ} {name : δ → String}
      {make : Contribution → δ → α}, (((cs.map Contribution.body).flatMap view).map name).Nodup →
      (Keyed.ofList (cs.flatMap (Contribution.entries view name make))).entries =
        cs.flatMap (Contribution.entries view name make) := by
    intro δ α view name make hnd
    apply Keyed.entries_ofList
    rwa [Contribution.map_fst_entries]
  have hinterfaces : (cs.map Contribution.body).flatMap Sdl.Body.interfaces =
      cs.flatMap fun c => c.body.interfaces := List.flatMap_map ..
  cases b with
  | scalar => trivial
  | object _ _ => exact ⟨hentries hfit.fields_nodup, hinterfaces⟩
  | interface _ _ => exact ⟨hentries hfit.fields_nodup, hinterfaces⟩
  | union _ =>
      apply hentries
      rw [List.map_id]
      exact hfit.members_nodup
  | enum _ => exact hentries hfit.values_nodup
  | inputObject _ => exact hentries hfit.inputFields_nodup

theorem Definitions.Valid.madeFrom_ofDefinition {ds : Definitions} (hv : ds.Valid)
    {d : Option String × Sdl.TypeDef} (hd : d ∈ ds.types) :
    (NamedType.ofDefinition ds.extensions d).MadeFrom ds.extensions d :=
  ⟨_, rfl, Body.kind_ofContributions _ _,
    Body.collects_ofContributions (hv.extensionsFit.members_fit d hd) d.2.body⟩

/-- The schema of valid definitions is made of its definitions and its extensions. -/
theorem Schema.Describes.madeOf {s : Schema} {ds : Definitions} (hs : s.Describes ds)
    (hv : ds.Valid) : s.MadeOf ds.proper ds.extensions where
  types_indexed := hs.types_indexed hv
  types := by
    refine ⟨ds.types.map (.ofDefinition ds.extensions), hs.values_types hv, ?_⟩
    rw [Definitions.types_proper, List.forall₂_map_right_iff, List.forall₂_same]
    intro d hd
    exact hv.madeFrom_ofDefinition hd
  directives_indexed := hs.directives_indexed hv
  directives := by
    rw [Definitions.directives_proper]
    exact hs.values_directives hv
  roots := by
    intro o name
    rw [hs.roots, Definitions.isRoot_proper_iff]

/-! ## Where the extensions stand -/

/-- Definitions are taken up alike wherever the extensions stand among them. -/
theorem Draft.addAll_eq_of_proper_eq {ds ds' : Definitions} {draft : Draft}
    (hproper : ds.proper = ds'.proper) (hextensions : ds.extensions = ds'.extensions)
    (h : Draft.start.addAll ds = .ok draft) : Draft.start.addAll ds' = .ok draft := by
  have htypes : ds.types = ds'.types := by
    rw [← ds.types_proper, hproper, ds'.types_proper]
  have hdirectives : ds.directives = ds'.directives := by
    rw [← ds.directives_proper, hproper, ds'.directives_proper]
  have hroots : ∀ o, ds.roots o = ds'.roots o := by
    intro o
    rw [← ds.roots_proper, hproper, ds'.roots_proper]
  rw [Draft.addAll_eq_ok_iff, loadable_iff, Draft.ofDefinitions] at h ⊢
  simpa only [htypes, hdirectives, hroots, hextensions] using h

/-- A schema that is built has the closed form, is the only one that has it, and is built as well
when the extensions stand in other places. -/
theorem Schema.madeOf_of_ofDocuments {docs : List (Option String × Sdl.Document)} {s : Schema}
    (h : Schema.ofDocuments docs = .ok s) :
    s.MadeOf (Definitions.ofDocuments docs).proper (Definitions.ofDocuments docs).extensions ∧
      (∀ s' : Schema, s'.MadeOf (Definitions.ofDocuments docs).proper
        (Definitions.ofDocuments docs).extensions → s' = s) ∧
      ∀ docs', (Definitions.ofDocuments docs).proper = (Definitions.ofDocuments docs').proper →
        (Definitions.ofDocuments docs).extensions = (Definitions.ofDocuments docs').extensions →
        Schema.ofDocuments docs' = .ok s := by
  obtain ⟨hvalid, hs⟩ := Schema.ofDocuments_eq_ok_iff.mp h
  have hmade := hs.madeOf hvalid
  refine ⟨hmade, fun s' hs' => hs'.unique hmade, ?_⟩
  -- the draft is already the same, so what is built from it is
  intro docs' hproper hextensions
  rw [Schema.ofDocuments, Draft.addDocuments_eq, bind_eq_ok_iff] at h ⊢
  obtain ⟨draft, hdraft, hbuild⟩ := h
  exact ⟨draft, Draft.addAll_eq_of_proper_eq hproper hextensions hdraft, hbuild⟩

/-- Texts of which the first and the last extend types that the one between them defines. -/
def scatteredTexts : List (Option String × String) :=
  [(some "more.graphql", "extend union Pet = Dog extend type Query { pet: Pet }"),
    (some "base.graphql",
      "type Query { cat: Cat } union Pet = Cat type Cat { id: ID } type Dog { id: ID }"),
    (none, "extend type Query { dog: Dog }")]

theorem Schema.madeOf_scatteredTexts :
    ∃ docs s, Sdl.readAll? scatteredTexts = some docs ∧ Schema.ofDocuments docs = .ok s ∧
      s.MadeOf (Definitions.ofDocuments docs).proper (Definitions.ofDocuments docs).extensions ∧
      ((s.type? "Query").bind NamedType.fields?).map (fun fields =>
          fields.values.map fun f => (f.name, f.location)) =
        some [("cat", .file "base.graphql" ⟨1, 14⟩), ("pet", .file "more.graphql" ⟨1, 44⟩),
          ("dog", .text)] ∧
      ((s.type? "Pet").bind NamedType.members?).map Keyed.entries =
        some [("Cat", .file "base.graphql" ⟨1, 25⟩), ("Dog", .file "more.graphql" ⟨1, 8⟩)] := by
  obtain ⟨docs, s, hdocs, hs, hmembers⟩ :=
    @Schema.exists_ofDocuments_of_test scatteredTexts
      (fun s => ((s.type? "Query").bind NamedType.fields?).map (fun fields =>
            fields.values.map fun f => (f.name, f.location)) =
          some [("cat", .file "base.graphql" ⟨1, 14⟩), ("pet", .file "more.graphql" ⟨1, 44⟩),
            ("dog", .text)] ∧
        ((s.type? "Pet").bind NamedType.members?).map Keyed.entries =
          some [("Cat", .file "base.graphql" ⟨1, 25⟩), ("Dog", .file "more.graphql" ⟨1, 8⟩)])
      _ (by decide +kernel)
  exact ⟨docs, s, hdocs, hs, (Schema.madeOf_of_ofDocuments hs).1, hmembers⟩

end SchemaHint
