import SchemaHint.Proofs.Schema.Contribution

/-!
# What has been loaded

A draft is determined by the definitions that it has taken up, and in a closed form: `Draft.ofDefinitions`.

* `Definitions` : the definitions of all texts in the order of loading, and its parts by sort;
* `Loadable` : the definitions pass the checks that are made while they are taken up;
* `Draft.add_ofDefinitions_iff` : taking up one definition more (one step);
* `Draft.addAll_eq_ok_iff` : taking up all of them (a run).
-/

namespace SchemaHint

set_option autoImplicit false

/-! ## Definitions by sort -/

/-- The definitions of several texts in the order in which they are loaded, each with the path of
its text. -/
abbrev Definitions := List (Option String × Sdl.Definition)

/-- The type that a schema definition chooses as the root of an operation. -/
def Sdl.SchemaDef.root (d : Sdl.SchemaDef) : Operation → Option String
  | .mutation => d.mutation
  | .query => d.query
  | .subscription => d.subscription

namespace Definitions

/-- The definitions of documents, one document after the other. -/
def ofDocuments (docs : List (Option String × Sdl.Document)) : Definitions :=
  docs.flatMap fun doc => doc.2.map fun d => (doc.1, d)

def types (ds : Definitions) : List (Option String × Sdl.TypeDef) :=
  ds.filterMap fun
    | (path, .type d) => some (path, d)
    | _ => none

def extensions (ds : Definitions) : List (Option String × Sdl.TypeExtension) :=
  ds.filterMap fun
    | (path, .extension e) => some (path, e)
    | _ => none

def directives (ds : Definitions) : List (Option String × Sdl.DirectiveDef) :=
  ds.filterMap fun
    | (path, .directive d) => some (path, d)
    | _ => none

def schemas (ds : Definitions) : List (Option String × Sdl.SchemaDef) :=
  ds.filterMap fun
    | (path, .schema d) => some (path, d)
    | _ => none

/-- The types that schema definitions choose as the root of an operation. -/
def roots (ds : Definitions) (o : Operation) : List RootChoice :=
  ds.schemas.filterMap fun d =>
    (d.2.root o).map fun name => ⟨Location.ofPosition d.1 d.2.position, name⟩

end Definitions

/-! ## Closed forms -/

/-- What a definition and the extensions of its type contribute, the definition first. -/
def contributions (es : List (Option String × Sdl.TypeExtension))
    (d : Option String × Sdl.TypeDef) : List Contribution :=
  .ofTypeDef d :: (es.filter fun e => e.2.name = d.2.name).map .ofExtension

def Header.ofDefinition (d : Option String × Sdl.TypeDef) : Header :=
  ⟨Location.ofPosition d.1 d.2.position, d.2.description, d.2.name⟩

/-- The type of a definition with the extensions that belong to it. -/
def NamedType.ofDefinition (es : List (Option String × Sdl.TypeExtension))
    (d : Option String × Sdl.TypeDef) : NamedType :=
  .defined (.ofDefinition d) (Body.ofContributions (contributions es d) d.2.body)

/-- The entries of the built-in scalars and of the given definitions. -/
def typeEntries (tds : List (Option String × Sdl.TypeDef))
    (es : List (Option String × Sdl.TypeExtension)) : List (String × NamedType) :=
  (BuiltinScalar.all.map fun s => (s.name, .builtin s)) ++
    tds.map fun d => (d.2.name, .ofDefinition es d)

/-- The entries of the built-in directives and of the given definitions. -/
def directiveEntries (dds : List (Option String × Sdl.DirectiveDef)) : List (String × Directive) :=
  (Directive.builtins.map fun d => (d.name, d)) ++ dds.map fun d => (d.2.name, .ofDef d.1 d.2)

/-- The draft that has taken up the given definitions. -/
def Draft.ofDefinitions (ds : Definitions) : Draft :=
  { directives := .ofList (directiveEntries ds.directives)
    extensions := ds.extensions
    mutation := (ds.roots .mutation).head?
    query := (ds.roots .query).head?
    subscription := (ds.roots .subscription).head?
    types := .ofList (typeEntries ds.types []) }

/-- Type definitions that can be taken up together: their names are new and not reserved, enums have
values and the members of each fit. -/
structure TypesFit (tds : List (Option String × Sdl.TypeDef)) : Prop where
  names_nodup : (BuiltinScalar.all.map BuiltinScalar.name ++ tds.map fun d => d.2.name).Nodup
  names_open : ∀ d ∈ tds, isReserved d.2.name = false
  enums_nonempty : ∀ d ∈ tds, d.2.body ≠ .enum []
  members_fit : ∀ d ∈ tds, MembersFit d.2.name [d.2.body]

/-- Directive definitions that can be taken up together. -/
structure DirectivesFit (dds : List (Option String × Sdl.DirectiveDef)) : Prop where
  names_nodup : (Directive.builtins.map Directive.name ++ dds.map fun d => d.2.name).Nodup
  names_open : ∀ d ∈ dds, isReserved d.2.name = false

/-- The definitions pass the checks that are made while they are taken up. -/
@[mk_iff]
structure Loadable (ds : Definitions) : Prop where
  types_fit : TypesFit ds.types
  directives_fit : DirectivesFit ds.directives
  roots_once : ∀ o, (ds.roots o).length ≤ 1

theorem map_fst_typeEntries (tds : List (Option String × Sdl.TypeDef))
    (es : List (Option String × Sdl.TypeExtension)) :
    (typeEntries tds es).map Prod.fst =
      BuiltinScalar.all.map BuiltinScalar.name ++ tds.map fun d => d.2.name := by
  simp [typeEntries, Function.comp_def]

theorem map_fst_directiveEntries (dds : List (Option String × Sdl.DirectiveDef)) :
    (directiveEntries dds).map Prod.fst =
      Directive.builtins.map Directive.name ++ dds.map fun d => d.2.name := by
  simp [directiveEntries, Function.comp_def]

/-! ## One definition -/

namespace Draft

theorem extend_start_eq_ok_iff {path : Option String} {d : Sdl.TypeDef} {b : Body} :
    (Body.start d.body).extend path d.name (Location.ofPosition path d.position) d.body = .ok b ↔
      MembersFit d.name [d.body] ∧ b = Body.ofContributions [.ofTypeDef (path, d)] d.body := by
  have hextend := @Body.extend_eq_ok_iff d.name [] (.ofTypeDef (path, d)) d.body b
    (MembersFit.nil d.name)
  rw [Body.start_eq]
  exact hextend.trans (and_iff_right rfl)

theorem isEmptyEnum_ofContributions (d : Option String × Sdl.TypeDef)
    (hfit : MembersFit d.2.name [d.2.body]) :
    (Body.ofContributions [.ofTypeDef d] d.2.body).isEmptyEnum = true ↔ d.2.body = .enum [] := by
  cases hbody : d.2.body with
  | enum defs =>
      have hnd : (([Contribution.ofTypeDef d].flatMap Contribution.values).map Prod.fst).Nodup := by
        rw [Contribution.values, Contribution.map_fst_entries]
        exact hfit.values_nodup
      rw [Body.ofContributions, Body.isEmptyEnum, Keyed.entries_ofList hnd]
      simp [Contribution.values, Contribution.entries, Contribution.ofTypeDef, hbody,
        Sdl.Body.values]
  | _ => simp [Body.ofContributions, Body.isEmptyEnum]

theorem addType_eq_ok_iff {draft draft' : Draft} {path : Option String} {d : Sdl.TypeDef} :
    draft.addType path d = .ok draft' ↔
      MembersFit d.name [d.body] ∧ d.body ≠ .enum [] ∧ isReserved d.name = false ∧
        d.name ∉ draft.types.keys ∧
        draft' = { draft with types := draft.types.insert d.name (.ofDefinition [] (path, d)) } := by
  simp only [addType, bind_eq_ok_iff, extend_start_eq_ok_iff, check_eq_ok_iff, pure_eq_ok_iff,
    Keyed.add_eq_ok_iff, Bool.not_eq_true]
  constructor
  · rintro ⟨b, ⟨hfit, rfl⟩, henum, hopen, types, ⟨hkey, rfl⟩, rfl⟩
    refine ⟨hfit, fun h => ?_, hopen, hkey, rfl⟩
    rw [(isEmptyEnum_ofContributions (path, d) hfit).mpr h] at henum
    cases henum
  · rintro ⟨hfit, henum, hopen, hkey, rfl⟩
    refine ⟨_, ⟨hfit, rfl⟩, ?_, hopen, _, ⟨hkey, rfl⟩, rfl⟩
    rw [← Bool.not_eq_true, isEmptyEnum_ofContributions (path, d) hfit]
    exact henum

theorem addDirective_eq_ok_iff {draft draft' : Draft} {path : Option String}
    {d : Sdl.DirectiveDef} :
    draft.addDirective path d = .ok draft' ↔
      isReserved d.name = false ∧ d.name ∉ draft.directives.keys ∧
        draft' = { draft with directives := draft.directives.insert d.name (.ofDef path d) } := by
  rw [addDirective, ← Keyed.get?_eq_none_iff]
  cases draft.directives.get? d.name with
  | some old => by_cases hold : old.isBuiltin = true <;> simp [hold]
  | none => cases isReserved d.name <;> simp [eq_comm]

theorem chooseRoot_eq_ok_iff {o : Operation} {location : Location} {chosen r : Option RootChoice}
    {typeName : Option String} :
    chooseRoot o location chosen typeName = .ok r ↔
      (typeName = none ∨ chosen = none) ∧
        r = chosen.or (typeName.map fun name => ⟨location, name⟩) := by
  cases typeName <;> cases chosen <;> simp [chooseRoot, eq_comm]

theorem addRoots_eq_ok_iff {draft draft' : Draft} {path : Option String} {d : Sdl.SchemaDef} :
    draft.addRoots path d = .ok draft' ↔
      ((d.query = none ∨ draft.query = none) ∧ (d.mutation = none ∨ draft.mutation = none) ∧
        (d.subscription = none ∨ draft.subscription = none)) ∧
      draft' = { draft with
        query := draft.query.or (d.query.map fun name => ⟨.ofPosition path d.position, name⟩)
        mutation :=
          draft.mutation.or (d.mutation.map fun name => ⟨.ofPosition path d.position, name⟩)
        subscription :=
          draft.subscription.or
            (d.subscription.map fun name => ⟨.ofPosition path d.position, name⟩) } := by
  simp only [addRoots, bind_eq_ok_iff, chooseRoot_eq_ok_iff, pure_eq_ok_iff]
  constructor
  · rintro ⟨q, ⟨hq, rfl⟩, m, ⟨hm, rfl⟩, s, ⟨hs, rfl⟩, rfl⟩
    exact ⟨⟨hq, hm, hs⟩, rfl⟩
  · rintro ⟨⟨hq, hm, hs⟩, rfl⟩
    exact ⟨_, ⟨hq, rfl⟩, _, ⟨hm, rfl⟩, _, ⟨hs, rfl⟩, rfl⟩

end Draft

/-! ## One definition more -/

namespace Definitions

variable (ds : Definitions) (path : Option String) (d : Sdl.Definition)

theorem types_snoc : types (ds ++ [(path, d)]) =
    ds.types ++ match d with | .type t => [(path, t)] | _ => [] := by
  rw [types, List.filterMap_append]
  cases d <;> rfl

theorem extensions_snoc : extensions (ds ++ [(path, d)]) =
    ds.extensions ++ match d with | .extension e => [(path, e)] | _ => [] := by
  rw [extensions, List.filterMap_append]
  cases d <;> rfl

theorem directives_snoc : directives (ds ++ [(path, d)]) =
    ds.directives ++ match d with | .directive t => [(path, t)] | _ => [] := by
  rw [directives, List.filterMap_append]
  cases d <;> rfl

theorem roots_snoc (o : Operation) : roots (ds ++ [(path, d)]) o =
    ds.roots o ++ match d with
      | .schema t => ((t.root o).map fun name => ⟨Location.ofPosition path t.position, name⟩).toList
      | _ => [] := by
  rw [roots, schemas, List.filterMap_append, List.filterMap_append]
  cases d with
  | schema t => cases h : t.root o <;> simp [roots, schemas, h]
  | _ => rfl

end Definitions

section Snoc
variable {ds : Definitions} {path : Option String}

theorem nodup_append_singleton_iff {as bs : List String} {b : String} (h : (as ++ bs).Nodup) :
    (as ++ (bs ++ [b])).Nodup ↔ b ∉ as ++ bs := by
  rw [← List.append_assoc, List.nodup_append]
  constructor
  · rintro ⟨-, -, hdisjoint⟩ hb
    exact hdisjoint b hb b (List.mem_singleton_self b) rfl
  · intro hb
    refine ⟨h, List.nodup_singleton b, ?_⟩
    rintro a ha c hc rfl
    exact hb (List.mem_singleton.mp hc ▸ ha)

theorem TypesFit.snoc_iff {tds : List (Option String × Sdl.TypeDef)} (htds : TypesFit tds)
    {d : Option String × Sdl.TypeDef} :
    TypesFit (tds ++ [d]) ↔ MembersFit d.2.name [d.2.body] ∧ d.2.body ≠ .enum [] ∧
      isReserved d.2.name = false ∧
      d.2.name ∉ BuiltinScalar.all.map BuiltinScalar.name ++ tds.map fun d => d.2.name := by
  have hnames := @nodup_append_singleton_iff _ _ d.2.name htds.names_nodup
  constructor
  · rintro ⟨h₁, h₂, h₃, h₄⟩
    rw [List.map_append, List.map_singleton, hnames] at h₁
    have hmem : d ∈ tds ++ [d] := by simp
    exact ⟨h₄ d hmem, h₃ d hmem, h₂ d hmem, h₁⟩
  · rintro ⟨hfit, henum, hopen, hname⟩
    constructor
    · rwa [List.map_append, List.map_singleton, hnames]
    · rw [List.forall_mem_append, List.forall_mem_singleton]
      exact ⟨htds.names_open, hopen⟩
    · rw [List.forall_mem_append, List.forall_mem_singleton]
      exact ⟨htds.enums_nonempty, henum⟩
    · rw [List.forall_mem_append, List.forall_mem_singleton]
      exact ⟨htds.members_fit, hfit⟩

theorem DirectivesFit.snoc_iff {dds : List (Option String × Sdl.DirectiveDef)}
    (hdds : DirectivesFit dds) {d : Option String × Sdl.DirectiveDef} :
    DirectivesFit (dds ++ [d]) ↔ isReserved d.2.name = false ∧
      d.2.name ∉ Directive.builtins.map Directive.name ++ dds.map fun d => d.2.name := by
  have hnames := @nodup_append_singleton_iff _ _ d.2.name hdds.names_nodup
  constructor
  · rintro ⟨h₁, h₂⟩
    rw [List.map_append, List.map_singleton, hnames] at h₁
    exact ⟨h₂ d (by simp), h₁⟩
  · rintro ⟨hopen, hname⟩
    constructor
    · rwa [List.map_append, List.map_singleton, hnames]
    · rw [List.forall_mem_append, List.forall_mem_singleton]
      exact ⟨hdds.names_open, hopen⟩

theorem Loadable.nil : Loadable [] := by
  refine ⟨⟨by decide, by simp [Definitions.types], by simp [Definitions.types],
    by simp [Definitions.types]⟩, ⟨by decide, by simp [Definitions.directives]⟩, fun o => ?_⟩
  simp [Definitions.roots, Definitions.schemas]

theorem TypesFit.of_append {tds tds' : List (Option String × Sdl.TypeDef)}
    (h : TypesFit (tds ++ tds')) : TypesFit tds := by
  obtain ⟨h₁, h₂, h₃, h₄⟩ := h
  rw [List.map_append, ← List.append_assoc] at h₁
  exact ⟨h₁.of_append_left, fun d hd => h₂ d (List.mem_append_left _ hd),
    fun d hd => h₃ d (List.mem_append_left _ hd), fun d hd => h₄ d (List.mem_append_left _ hd)⟩

theorem DirectivesFit.of_append {dds dds' : List (Option String × Sdl.DirectiveDef)}
    (h : DirectivesFit (dds ++ dds')) : DirectivesFit dds := by
  obtain ⟨h₁, h₂⟩ := h
  rw [List.map_append, ← List.append_assoc] at h₁
  exact ⟨h₁.of_append_left, fun d hd => h₂ d (List.mem_append_left _ hd)⟩

theorem Loadable.of_snoc {d : Option String × Sdl.Definition} (h : Loadable (ds ++ [d])) :
    Loadable ds := by
  obtain ⟨htypes, hdirectives, hroots⟩ := h
  rw [Definitions.types_snoc] at htypes
  rw [Definitions.directives_snoc] at hdirectives
  refine ⟨htypes.of_append, hdirectives.of_append, fun o => ?_⟩
  have ho := hroots o
  rw [Definitions.roots_snoc, List.length_append] at ho
  omega

theorem roots_once_snoc_iff {d : Sdl.SchemaDef} (o : Operation) (hds : (ds.roots o).length ≤ 1) :
    (Definitions.roots (ds ++ [(path, .schema d)]) o).length ≤ 1 ↔
      d.root o = none ∨ (ds.roots o).head? = none := by
  rw [Definitions.roots_snoc, List.length_append, List.head?_eq_none_iff, ← List.length_eq_zero_iff]
  dsimp only
  cases d.root o with
  | none => simp [hds]
  | some name => simp

theorem forall_operation_iff {p : Operation → Prop} :
    (∀ o, p o) ↔ p .query ∧ p .mutation ∧ p .subscription :=
  ⟨fun h => ⟨h _, h _, h _⟩, fun ⟨hq, hm, hs⟩ o => by cases o <;> assumption⟩

namespace Draft

theorem mem_keys_types_ofDefinitions (ds : Definitions) (key : String) :
    key ∈ (ofDefinitions ds).types.keys ↔
      key ∈ BuiltinScalar.all.map BuiltinScalar.name ++ ds.types.map fun d => d.2.name := by
  rw [ofDefinitions, Keyed.mem_keys_ofList, map_fst_typeEntries]

theorem mem_keys_directives_ofDefinitions (ds : Definitions) (key : String) :
    key ∈ (ofDefinitions ds).directives.keys ↔
      key ∈ Directive.builtins.map Directive.name ++ ds.directives.map fun d => d.2.name := by
  rw [ofDefinitions, Keyed.mem_keys_ofList, map_fst_directiveEntries]

theorem ofDefinitions_snoc_type (ds : Definitions) (path : Option String) (d : Sdl.TypeDef) :
    ofDefinitions (ds ++ [(path, .type d)]) =
      { ofDefinitions ds with
        types := (ofDefinitions ds).types.insert d.name (.ofDefinition [] (path, d)) } := by
  simp only [ofDefinitions, Definitions.types_snoc, Definitions.extensions_snoc,
    Definitions.directives_snoc, Definitions.roots_snoc, List.append_nil, typeEntries,
    List.map_append, List.map_singleton, ← List.append_assoc, Keyed.ofList_append_singleton]

theorem ofDefinitions_snoc_directive (ds : Definitions) (path : Option String)
    (d : Sdl.DirectiveDef) :
    ofDefinitions (ds ++ [(path, .directive d)]) =
      { ofDefinitions ds with
        directives := (ofDefinitions ds).directives.insert d.name (.ofDef path d) } := by
  simp only [ofDefinitions, Definitions.types_snoc, Definitions.extensions_snoc,
    Definitions.directives_snoc, Definitions.roots_snoc, List.append_nil, directiveEntries,
    List.map_append, List.map_singleton, ← List.append_assoc, Keyed.ofList_append_singleton]

theorem ofDefinitions_snoc_extension (ds : Definitions) (path : Option String)
    (e : Sdl.TypeExtension) :
    ofDefinitions (ds ++ [(path, .extension e)]) =
      { ofDefinitions ds with extensions := (ofDefinitions ds).extensions ++ [(path, e)] } := by
  simp only [ofDefinitions, Definitions.types_snoc, Definitions.extensions_snoc,
    Definitions.directives_snoc, Definitions.roots_snoc, List.append_nil]

theorem ofDefinitions_snoc_schema (ds : Definitions) (path : Option String) (d : Sdl.SchemaDef) :
    ofDefinitions (ds ++ [(path, .schema d)]) =
      { ofDefinitions ds with
        query := (ofDefinitions ds).query.or
          (d.query.map fun name => ⟨.ofPosition path d.position, name⟩)
        mutation := (ofDefinitions ds).mutation.or
          (d.mutation.map fun name => ⟨.ofPosition path d.position, name⟩)
        subscription := (ofDefinitions ds).subscription.or
          (d.subscription.map fun name => ⟨.ofPosition path d.position, name⟩) } := by
  simp only [ofDefinitions, Definitions.types_snoc, Definitions.extensions_snoc,
    Definitions.directives_snoc, Definitions.roots_snoc, List.append_nil, List.head?_append,
    Option.head?_toList, Sdl.SchemaDef.root]

/-- One step: a definition is taken up iff the definitions so far and it can be loaded together. -/
theorem add_ofDefinitions_iff (hds : Loadable ds) {d : Sdl.Definition} {draft : Draft} :
    (ofDefinitions ds).add path d = .ok draft ↔
      Loadable (ds ++ [(path, d)]) ∧ draft = ofDefinitions (ds ++ [(path, d)]) := by
  obtain ⟨htypes, hdirectives, hroots⟩ := hds
  cases d with
  | type d =>
      have hload : Loadable (ds ++ [(path, .type d)]) ↔ TypesFit (ds.types ++ [(path, d)]) := by
        rw [loadable_iff]
        simp only [Definitions.types_snoc, Definitions.directives_snoc, Definitions.roots_snoc,
          List.append_nil, and_iff_left (And.intro hdirectives hroots)]
      rw [add, addType_eq_ok_iff, hload, htypes.snoc_iff, mem_keys_types_ofDefinitions,
        ofDefinitions_snoc_type]
      simp only [and_assoc]
  | extension e =>
      have hload : Loadable (ds ++ [(path, .extension e)]) := by
        rw [loadable_iff]
        simp only [Definitions.types_snoc, Definitions.directives_snoc, Definitions.roots_snoc,
          List.append_nil]
        exact ⟨htypes, hdirectives, hroots⟩
      rw [add, and_iff_right hload, ofDefinitions_snoc_extension, Except.ok.injEq, eq_comm]
  | directive d =>
      have hload : Loadable (ds ++ [(path, .directive d)]) ↔
          DirectivesFit (ds.directives ++ [(path, d)]) := by
        rw [loadable_iff]
        simp only [Definitions.types_snoc, Definitions.directives_snoc, Definitions.roots_snoc,
          List.append_nil, and_iff_right htypes, and_iff_left hroots]
      rw [add, addDirective_eq_ok_iff, hload, hdirectives.snoc_iff,
        mem_keys_directives_ofDefinitions, ofDefinitions_snoc_directive]
      simp only [and_assoc]
  | schema d =>
      have hload : Loadable (ds ++ [(path, .schema d)]) ↔
          ∀ o, d.root o = none ∨ (ds.roots o).head? = none := by
        rw [loadable_iff]
        simp only [Definitions.types_snoc, Definitions.directives_snoc, List.append_nil,
          and_iff_right htypes, and_iff_right hdirectives]
        exact forall_congr' fun o => roots_once_snoc_iff o (hroots o)
      rw [add, addRoots_eq_ok_iff, hload, forall_operation_iff, ofDefinitions_snoc_schema]
      rfl

end Draft

end Snoc

/-! ## A run over all definitions -/

namespace Draft

/-- Takes up definitions one after the other. -/
def addAll (draft : Draft) (ds : Definitions) : Except BuildError Draft :=
  ds.foldlM (fun draft d => draft.add d.1 d.2) draft

theorem addAll_snoc (draft : Draft) (ds : Definitions) (d : Option String × Sdl.Definition) :
    draft.addAll (ds ++ [d]) = draft.addAll ds >>= fun draft => draft.add d.1 d.2 := by
  simp [addAll]

/-- Definitions are taken up iff they pass the checks together, and then make the draft of the closed
form. -/
theorem addAll_eq_ok_iff {ds : Definitions} {draft : Draft} :
    start.addAll ds = .ok draft ↔ Loadable ds ∧ draft = ofDefinitions ds := by
  induction ds using List.reverseRecOn generalizing draft with
  | nil =>
      rw [addAll, List.foldlM_nil, pure_eq_ok_iff, and_iff_right Loadable.nil, eq_comm]
      rfl
  | append_singleton ds d ih =>
      rw [addAll_snoc, bind_eq_ok_iff]
      constructor
      · rintro ⟨draft₁, h₁, h⟩
        obtain ⟨hds, rfl⟩ := ih.mp h₁
        exact (add_ofDefinitions_iff hds).mp h
      · intro h
        have hds : Loadable ds := h.1.of_snoc
        exact ⟨ofDefinitions ds, ih.mpr ⟨hds, rfl⟩, (add_ofDefinitions_iff hds).mpr h⟩

end Draft

end SchemaHint
