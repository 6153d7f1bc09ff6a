import SchemaHint.Proofs.Schema.References

/-!
# Accepted definitions

* `Draft.build_eq_ok_iff` : what the building of a schema checks, step by step;
* `Schema.Describes` : a schema is the one that definitions make up;
* `Schema.ofDocuments_eq_ok_iff` : documents make up a schema iff their definitions are valid, and
  then the one that these describe;
* `Schema.ofTexts_eq_ok_iff` : the same for texts, which have to be well formed as well.
-/

namespace SchemaHint

set_option autoImplicit false

/-! ## Roots -/

/-- The name of the root type of an operation. -/
def Schema.root? (s : Schema) : Operation → Option String
  | .mutation => s.mutation
  | .query => some s.query
  | .subscription => s.subscription

/-- The type that was chosen as the root of an operation. -/
def Draft.chosen (draft : Draft) : Operation → Option RootChoice
  | .mutation => draft.mutation
  | .query => draft.query
  | .subscription => draft.subscription

namespace Draft

theorem rootOf_none_eq_ok_iff {types : Keyed NamedType} {o : Operation} {r : Option String} :
    rootOf types o none = .ok r ↔
      ∀ name, r = some name ↔
        name = o.name ∧ ∃ t, types.get? o.name = some t ∧ t.kind = .object := by
  rw [rootOf]
  cases types.get? o.name with
  | none =>
      rw [Except.ok.injEq, eq_comm, Option.eq_none_iff_forall_ne_some]
      simp
  | some t =>
      dsimp only
      by_cases ht : t.kind = .object
      · rw [if_pos ht, Except.ok.injEq, eq_comm, Option.ext_iff]
        simp [ht, eq_comm]
      · rw [if_neg ht, Except.ok.injEq, eq_comm, Option.eq_none_iff_forall_ne_some]
        simp [ht]

theorem rootOf_some_eq_ok_iff {types : Keyed NamedType} {o : Operation} {c : RootChoice}
    {r : Option String} :
    rootOf types o (some c) = .ok r ↔
      (∃ t, types.get? c.typeName = some t ∧ t.kind = .object) ∧ r = some c.typeName := by
  rw [rootOf]
  cases types.get? c.typeName with
  | none => simp
  | some t => by_cases ht : t.kind = .object <;> simp [ht, @eq_comm _ r]

theorem sharedRoot?_eq_none_iff {s : Schema} :
    sharedRoot? s.query s.mutation s.subscription = none ↔
      ∀ o o' name, s.root? o = some name → s.root? o' = some name → o = o' := by
  have hvalues : sharedRoot? s.query s.mutation s.subscription = none ↔
      s.mutation ≠ some s.query ∧ s.subscription ≠ some s.query ∧
        ∀ name, s.mutation = some name → s.subscription ≠ some name := by
    unfold sharedRoot?
    cases s.mutation <;> simp [ite_eq_iff]
  rw [hvalues]
  constructor
  · rintro ⟨hm, hs, hd⟩ o o' name ho ho'
    cases o <;> cases o' <;> simp_all [Schema.root?]
  · intro h
    refine ⟨fun hm => ?_, fun hs => ?_, fun name hm hs => ?_⟩
    · cases h .mutation .query s.query hm rfl
    · cases h .subscription .query s.query hs rfl
    · cases h .mutation .subscription name hm hs

/-- What is checked at the end of the loading, and what becomes of the draft. -/
theorem build_eq_ok_iff {draft : Draft} {s : Schema} :
    draft.build = .ok s ↔
      mergeAll draft.types draft.extensions = .ok s.types ∧ s.directives = draft.directives ∧
        (∀ o, rootOf s.types o (draft.chosen o) = .ok (s.root? o)) ∧
        sharedRoot? s.query s.mutation s.subscription = none ∧
        referenceErrors s.types s.directives = [] := by
  rw [forall_operation_iff]
  simp only [build, bind_eq_ok_iff]
  constructor
  · rintro ⟨types, htypes, r, hquery, h⟩
    cases r with
    | none => cases h
    | some query =>
        obtain ⟨_, hq, mutation, hmutation, subscription, hsubscription, h⟩ := by
          simpa only [bind_eq_ok_iff] using h
        cases hq
        cases hshared : sharedRoot? query mutation subscription with
        | some e =>
            rw [hshared] at h
            cases h
        | none =>
            simp only [hshared, check_eq_ok_iff, pure_eq_ok_iff] at h
            obtain ⟨herrors, rfl⟩ := h
            exact ⟨htypes, rfl, ⟨hquery, hmutation, hsubscription⟩, hshared, by simpa using herrors⟩
  · rintro ⟨htypes, hdirectives, ⟨hquery, hmutation, hsubscription⟩, hshared, herrors⟩
    refine ⟨_, htypes, _, hquery, ?_⟩
    simp only [Schema.root?, bind_eq_ok_iff]
    refine ⟨_, rfl, _, hmutation, _, hsubscription, ?_⟩
    simp only [Schema.root?, hshared, check_eq_ok_iff, pure_eq_ok_iff]
    rw [← hdirectives]
    exact ⟨by simpa using herrors, rfl⟩

end Draft

/-! ## Documents -/

theorem Draft.addAll_append (draft : Draft) (ds ds' : Definitions) :
    draft.addAll (ds ++ ds') = draft.addAll ds >>= fun draft => draft.addAll ds' := by
  simp [Draft.addAll]

/-- Takes up documents one after the other. -/
def Draft.addDocuments (draft : Draft) (docs : List (Option String × Sdl.Document)) :
    Except BuildError Draft :=
  docs.foldlM (fun draft doc => draft.addDocument doc.1 doc.2) draft

theorem Draft.addDocuments_eq (draft : Draft) (docs : List (Option String × Sdl.Document)) :
    draft.addDocuments docs = draft.addAll (.ofDocuments docs) := by
  induction docs generalizing draft with
  | nil => rfl
  | cons doc docs ih =>
      have hdoc : ∀ draft : Draft, draft.addDocument doc.1 doc.2 =
          draft.addAll (doc.2.map fun d => (doc.1, d)) := by
        intro draft
        rw [addDocument, addAll, List.foldlM_map]
      rw [addDocuments, List.foldlM_cons, hdoc, Definitions.ofDocuments, List.flatMap_cons,
        addAll_append]
      exact bind_congr fun draft => ih draft

/-- The schema that documents make up. -/
def Schema.ofDocuments (docs : List (Option String × Sdl.Document)) : Except BuildError Schema := do
  let draft ← Draft.start.addDocuments docs
  draft.build

/-- The schema is the one that definitions make up. -/
structure Schema.Describes (s : Schema) (ds : Definitions) : Prop where
  types : s.types = .ofList (typeEntries ds.types ds.extensions)
  directives : s.directives = .ofList (directiveEntries ds.directives)
  roots : ∀ o name, s.root? o = some name ↔ ds.IsRoot o name

section Definitions
variable {ds : Definitions} {s : Schema}

theorem defines_object_iff (h : TypesFit ds.types) {es : List (Option String × Sdl.TypeExtension)}
    {name : String} :
    (∃ t, (Keyed.ofList (typeEntries ds.types es)).get? name = some t ∧ t.kind = .object) ↔
      ds.Defines name .object := by
  rw [exists_get?_iff h fun kind => kind = .object]
  simp

theorem rootOf_eq_ok_iff (h : TypesFit ds.types) {es : List (Option String × Sdl.TypeExtension)}
    {o : Operation} (honce : (ds.roots o).length ≤ 1) {r : Option String} :
    Draft.rootOf (.ofList (typeEntries ds.types es)) o (ds.roots o).head? = .ok r ↔
      (∀ c ∈ ds.roots o, ds.Defines c.typeName .object) ∧
        ∀ name, r = some name ↔ ds.IsRoot o name := by
  unfold Definitions.IsRoot
  match hroots : ds.roots o with
  | [] =>
      rw [List.head?_nil, Draft.rootOf_none_eq_ok_iff, defines_object_iff h]
      simp
  | [c] =>
      rw [List.head?_cons, Draft.rootOf_some_eq_ok_iff, defines_object_iff h, Option.ext_iff]
      simp
  | c :: c' :: rest =>
      rw [hroots] at honce
      simp at honce

/-- What has been loaded of definitions makes up a schema iff the definitions pass the checks that
are left. -/
theorem build_ofDefinitions_eq_ok_iff (h : Loadable ds) :
    (Draft.ofDefinitions ds).build = .ok s ↔
      (ExtensionsFit ds.types ds.extensions ∧ ds.Linked) ∧ s.Describes ds := by
  have hroots : ∀ o, (Draft.ofDefinitions ds).chosen o = (ds.roots o).head? := by
    intro o
    cases o <;> rfl
  simp only [Draft.build_eq_ok_iff, hroots]
  constructor
  · rintro ⟨hmerge, hdirectives, hroot, hshared, herrors⟩
    obtain ⟨hes, htypes⟩ := (Draft.mergeAll_eq_ok_iff h.types_fit).mp hmerge
    simp only [htypes, rootOf_eq_ok_iff h.types_fit (h.roots_once _)] at hroot
    have hisRoot : ∀ o name, s.root? o = some name ↔ ds.IsRoot o name := fun o => (hroot o).2
    rw [Draft.sharedRoot?_eq_none_iff] at hshared
    rw [htypes, hdirectives] at herrors
    obtain ⟨hbodies, harguments⟩ :=
      (referenceErrors_eq_nil_iff_of_fit h.types_fit hes h.directives_fit).mp herrors
    refine ⟨⟨hes, fun o => (hroot o).1, ⟨s.query, (hisRoot .query _).mp rfl⟩, ?_, hbodies,
      harguments⟩, htypes, hdirectives, hisRoot⟩
    intro o o' name ho ho'
    exact hshared o o' name ((hisRoot o name).mpr ho) ((hisRoot o' name).mpr ho')
  · rintro ⟨⟨hes, hlinked⟩, htypes, hdirectives, hisRoot⟩
    refine ⟨(Draft.mergeAll_eq_ok_iff h.types_fit).mpr ⟨hes, htypes⟩, hdirectives, ?_, ?_, ?_⟩
    · intro o
      rw [htypes, rootOf_eq_ok_iff h.types_fit (h.roots_once o)]
      exact ⟨hlinked.roots_defined o, hisRoot o⟩
    · rw [Draft.sharedRoot?_eq_none_iff]
      intro o o' name ho ho'
      exact hlinked.roots_differ o o' name ((hisRoot o name).mp ho) ((hisRoot o' name).mp ho')
    · rw [htypes, hdirectives,
        referenceErrors_eq_nil_iff_of_fit h.types_fit hes h.directives_fit]
      exact ⟨hlinked.bodies_refer, hlinked.directives_refer⟩

end Definitions

/-- Documents make up a schema iff their definitions are valid, and then the one that these
describe. -/
theorem Schema.ofDocuments_eq_ok_iff {docs : List (Option String × Sdl.Document)} {s : Schema} :
    Schema.ofDocuments docs = .ok s ↔
      (Definitions.ofDocuments docs).Valid ∧ s.Describes (.ofDocuments docs) := by
  rw [ofDocuments, Draft.addDocuments_eq, bind_eq_ok_iff, Definitions.valid_iff]
  simp only [Draft.addAll_eq_ok_iff]
  constructor
  · rintro ⟨draft, ⟨hload, rfl⟩, hbuild⟩
    obtain ⟨hfit, hs⟩ := (build_ofDefinitions_eq_ok_iff hload).mp hbuild
    exact ⟨⟨hload, hfit⟩, hs⟩
  · rintro ⟨⟨hload, hfit⟩, hs⟩
    exact ⟨_, ⟨hload, rfl⟩, (build_ofDefinitions_eq_ok_iff hload).mpr ⟨hfit, hs⟩⟩

theorem Definitions.IsRoot.unique {ds : Definitions} {o : Operation}
    (honce : (ds.roots o).length ≤ 1) {name name' : String} (h : ds.IsRoot o name)
    (h' : ds.IsRoot o name') : name = name' := by
  rcases h with ⟨c, hc, rfl⟩ | ⟨hnil, rfl, -⟩
  · rcases h' with ⟨c', hc', rfl⟩ | ⟨hnil', -⟩
    · obtain ⟨d, hd⟩ := List.length_eq_one_iff.mp
        (Nat.le_antisymm honce (List.length_pos_of_mem hc))
      rw [hd, List.mem_singleton] at hc hc'
      rw [hc, hc']
    · rw [hnil'] at hc
      cases hc
  · rcases h' with ⟨c', hc', -⟩ | ⟨-, rfl, -⟩
    · rw [hnil] at hc'
      cases hc'
    · rfl

theorem Definitions.exists_root {ds : Definitions} {o : Operation}
    (honce : (ds.roots o).length ≤ 1) :
    ∃ r : Option String, ∀ name, r = some name ↔ ds.IsRoot o name := by
  by_cases h : ∃ name, ds.IsRoot o name
  · obtain ⟨name, hname⟩ := h
    refine ⟨some name, fun name' => ⟨?_, fun h' => congrArg some (hname.unique honce h')⟩⟩
    rintro ⟨⟩
    exact hname
  · refine ⟨none, fun name => iff_of_false (by simp) fun hname => h ⟨name, hname⟩⟩

theorem Definitions.Valid.exists_describes {ds : Definitions} (h : ds.Valid) :
    ∃ s : Schema, s.Describes ds := by
  obtain ⟨query, hquery⟩ := h.query_root
  obtain ⟨mutation, hmutation⟩ := Definitions.exists_root (h.roots_once .mutation)
  obtain ⟨subscription, hsubscription⟩ := Definitions.exists_root (h.roots_once .subscription)
  refine ⟨⟨_, mutation, query, subscription, _⟩, rfl, rfl, ?_⟩
  rw [forall_operation_iff]
  refine ⟨fun name => ⟨?_, fun hname => ?_⟩, hmutation, hsubscription⟩
  · rintro ⟨⟩
    exact hquery
  · exact congrArg some (hquery.unique (h.roots_once .query) hname)

/-- The building accepts exactly the valid definitions. -/
theorem Schema.exists_ofDocuments_iff_valid (docs : List (Option String × Sdl.Document)) :
    (∃ s, Schema.ofDocuments docs = .ok s) ↔ (Definitions.ofDocuments docs).Valid := by
  simp only [ofDocuments_eq_ok_iff]
  constructor
  · rintro ⟨s, hvalid, -⟩
    exact hvalid
  · intro hvalid
    obtain ⟨s, hs⟩ := hvalid.exists_describes
    exact ⟨s, hvalid, hs⟩

/-! ## Texts -/

/-- The documents of texts, if all of them are well formed. -/
def Sdl.readAll? (texts : List (Option String × String)) :
    Option (List (Option String × Sdl.Document)) :=
  texts.mapM fun t => (Sdl.Document.parse? t.2).map fun d => (t.1, d)

/-- The schema that texts make up. -/
def Schema.ofTexts (texts : List (Option String × String)) : Except BuildError Schema := do
  let draft ← texts.foldlM (fun draft t => draft.load t.1 t.2) Draft.start
  draft.build

theorem Draft.foldlM_load_eq_ok_iff {texts : List (Option String × String)} {draft draft' : Draft} :
    texts.foldlM (fun draft t => draft.load t.1 t.2) draft = .ok draft' ↔
      ∃ docs, Sdl.readAll? texts = some docs ∧ draft.addDocuments docs = .ok draft' := by
  induction texts generalizing draft with
  | nil => simp [Sdl.readAll?, addDocuments]
  | cons t texts ih =>
      rw [List.foldlM_cons, bind_eq_ok_iff, load]
      cases hparse : Sdl.Document.parse? t.2 with
      | none => simp [Sdl.readAll?, hparse]
      | some d =>
          have hread : ∀ docs, Sdl.readAll? (t :: texts) = some docs ↔
              ∃ rest, Sdl.readAll? texts = some rest ∧ (t.1, d) :: rest = docs := by
            intro docs
            simp [Sdl.readAll?, hparse, Option.bind_eq_some_iff]
          simp only [hread, ih, addDocuments]
          constructor
          · rintro ⟨draft₁, h₁, rest, hrest, h⟩
            refine ⟨_, ⟨rest, hrest, rfl⟩, ?_⟩
            rw [List.foldlM_cons, bind_eq_ok_iff]
            exact ⟨draft₁, h₁, h⟩
          · rintro ⟨_, ⟨rest, hrest, rfl⟩, h⟩
            rw [List.foldlM_cons, bind_eq_ok_iff] at h
            obtain ⟨draft₁, h₁, h⟩ := h
            exact ⟨draft₁, h₁, rest, hrest, h⟩

theorem Schema.ofTexts_eq_ok_iff {texts : List (Option String × String)} {s : Schema} :
    Schema.ofTexts texts = .ok s ↔
      ∃ docs, Sdl.readAll? texts = some docs ∧ Schema.ofDocuments docs = .ok s := by
  simp only [ofTexts, ofDocuments, bind_eq_ok_iff, Draft.foldlM_load_eq_ok_iff]
  constructor
  · rintro ⟨draft, ⟨docs, hdocs, hdraft⟩, h⟩
    exact ⟨docs, hdocs, draft, hdraft, h⟩
  · rintro ⟨docs, hdocs, draft, hdraft, h⟩
    exact ⟨draft, ⟨docs, hdocs, hdraft⟩, h⟩

/-- Texts whose schema is seen to pass a test are read as documents with such a schema. -/
theorem Schema.exists_ofDocuments_of_test {texts : List (Option String × String)}
    {p : Schema → Prop} [DecidablePred p]
    (h : ((Schema.ofTexts texts).toOption.any fun s => p s) = true) :
    ∃ docs s, Sdl.readAll? texts = some docs ∧ Schema.ofDocuments docs = .ok s ∧ p s := by
  cases hs : Schema.ofTexts texts with
  | error e =>
      rw [hs] at h
      cases h
  | ok s =>
      rw [hs] at h
      obtain ⟨docs, hdocs, hbuilt⟩ := Schema.ofTexts_eq_ok_iff.mp hs
      exact ⟨docs, s, hdocs, hbuilt, of_decide_eq_true h⟩

end SchemaHint
