import SchemaHint.Proofs.Schema.ReferencePlaces

/-!
# The report on references

Which errors are told of the references of a schema, and in which order.

* `Reference.Told` : the error that a reference which does not fit is told with;
* `Reports` : a list of errors tells every reference that does not fit once, in the order of the
  places;
* `reports_of_located` : the list of errors does so where names stand with the elements that use
  them;
* `located_of_mem_allReferences` : they do so in what has been loaded of definitions;
* `Draft.exists_of_build_eq_badReferences` : what is known when the building stops for references;
* `Draft.reports_referenceErrors` : the report of a draft.
-/

namespace SchemaHint

set_option autoImplicit false

/-! ## What is told of a reference -/

/-- The error that a reference which does not fit is told with. A type that is not there is told as
such, and any other by what it is used for; the error has the name and the location of the
reference. -/
inductive Reference.Told (types : Keyed NamedType) : Reference → ReferenceError → Prop
  | undefined {name : String} {location : Location} {use : Use} (h : types.get? name = none) :
      Told types ⟨name, location, use⟩ (.undefinedType location name)
  | interface {name typeName : String} {location : Location} {t : NamedType}
      (h : types.get? name = some t) (hkind : t.kind ≠ .interface) :
      Told types ⟨name, location, .interfaceOf typeName⟩ (.notInterface location name typeName)
  | outputField {name typeName field : String} {location defined : Location} {t : NamedType}
      (h : types.get? name = some t) (hkind : t.kind = .inputObject) :
      Told types ⟨name, location, .outputField typeName field defined⟩
        (.outputFieldOfInputType location field name typeName)
  | inputField {name typeName field : String} {location defined : Location} {t : NamedType}
      (h : types.get? name = some t) (hkind : t.kind.isInput = false) :
      Told types ⟨name, location, .inputField typeName field defined⟩
        (.inputFieldOfOutputType location field name typeName)
  | parameter {name parameter : String} {location defined : Location} {t : NamedType}
      (h : types.get? name = some t) (hkind : t.kind.isInput = false) :
      Told types ⟨name, location, .parameter parameter defined⟩
        (.parameterOfOutputType location parameter name)
  | member {name typeName : String} {location : Location} {t : NamedType}
      (h : types.get? name = some t) (hkind : t.kind ≠ .object) :
      Told types ⟨name, location, .memberOf typeName⟩
        (.memberNotObject location t.kind name typeName)

/-- The place of the element that uses a name, where it has one of its own. -/
def Use.defined? : Use → Option Location
  | .interfaceOf _ | .memberOf _ => none
  | .outputField _ _ defined | .inputField _ _ defined | .parameter _ defined => some defined

/-- The element that uses a name stands where the name does. A type that is misused is told at the
place of the element, and one that is not there at the place of the name. -/
def Reference.Located (r : Reference) : Prop := ∀ location ∈ r.use.defined?, location = r.location

instance (r : Reference) : Decidable r.Located :=
  inferInstanceAs (Decidable (∀ location ∈ r.use.defined?, location = r.location))

theorem Reference.told_of_error? {types : Keyed NamedType} {r : Reference} {e : ReferenceError}
    (hr : r.Located) (h : r.error? types = some e) : r.Told types e := by
  obtain ⟨name, location, use⟩ := r
  rw [Reference.error?] at h
  cases hget : types.get? name with
  | none =>
      simp only [hget, Option.some.injEq] at h
      subst h
      exact .undefined hget
  | some t =>
      simp only [hget, misuse?] at h
      cases use with
      | interfaceOf typeName =>
          obtain ⟨hkind, rfl⟩ := by simpa using h
          exact .interface hget hkind
      | outputField typeName field defined =>
          obtain rfl := hr defined rfl
          obtain ⟨hkind, rfl⟩ := by simpa using h
          exact .outputField hget hkind
      | inputField typeName field defined =>
          obtain rfl := hr defined rfl
          obtain ⟨hkind, rfl⟩ := by simpa using h
          exact .inputField hget hkind
      | parameter parameter defined =>
          obtain rfl := hr defined rfl
          obtain ⟨hkind, rfl⟩ := by simpa using h
          exact .parameter hget hkind
      | memberOf typeName =>
          obtain ⟨hkind, rfl⟩ := by simpa using h
          exact .member hget hkind

/-! ## Reports -/

/-- Errors tell the references of types and directives that do not fit: there is one error for each,
and they come in the order of the places. -/
def Reports (types : Keyed NamedType) (directives : Keyed Directive)
    (errors : List ReferenceError) : Prop :=
  ∃ places : List Place, places.Pairwise Place.Before ∧
    (∀ p, p ∈ places ↔ ∃ r, p.reference? types directives = some r ∧ ¬ r.Good types) ∧
    List.Forall₂ (fun p e => ∃ r, p.reference? types directives = some r ∧ r.Told types e)
      places errors

theorem forall₂_filterMap_snd {α β γ : Type} (f : β → Option γ) (l : List (α × β)) :
    List.Forall₂ (fun a c => ∃ b, (a, b) ∈ l ∧ f b = some c)
      ((l.filter fun x => (f x.2).isSome).map Prod.fst) ((l.map Prod.snd).filterMap f) := by
  induction l with
  | nil => exact .nil
  | cons x l ih =>
      have hmono : ∀ a c, (∃ b, (a, b) ∈ l ∧ f b = some c) → ∃ b, (a, b) ∈ x :: l ∧ f b = some c :=
        fun a c ⟨b, hb, hc⟩ => ⟨b, List.mem_cons_of_mem x hb, hc⟩
      cases hx : f x.2 with
      | none => simpa [hx] using ih.imp hmono
      | some c => simpa [hx] using List.Forall₂.cons ⟨x.2, by simp, hx⟩ (ih.imp hmono)

/-- The errors of references that stand where their elements do. -/
theorem reports_of_located {types : Keyed NamedType} {directives : Keyed Directive}
    (h : ∀ r ∈ allReferences types directives, r.Located) :
    Reports types directives (referenceErrors types directives) := by
  rw [referenceErrors]
  rw [← map_snd_placedReferences] at h ⊢
  refine ⟨((placedReferences types directives).filter fun x =>
    (x.2.error? types).isSome).map Prod.fst, ?_, ?_, ?_⟩
  · rw [List.pairwise_map]
    exact (ordered_placedReferences types directives).sorted.filter _
  · intro p
    simp only [List.mem_map, List.mem_filter, Prod.exists, exists_and_right, exists_eq_right,
      mem_placedReferences_iff, ← Reference.error?_eq_none_iff, Option.isSome_iff_ne_none]
  · refine (forall₂_filterMap_snd (Reference.error? types) _).imp ?_
    rintro p e ⟨r, hmem, he⟩
    exact ⟨r, mem_placedReferences_iff.mp hmem,
      Reference.told_of_error? (h r (List.mem_map_of_mem hmem)) he⟩

/-! ## Where references of definitions stand -/

theorem innermostLocation_ofTypeExpr (location : Location) (t : Sdl.TypeExpr) :
    (AnnotatedType.ofTypeExpr location t).innermostLocation = location := by
  unfold AnnotatedType.ofTypeExpr
  generalize true = nullable
  induction t generalizing nullable with
  | named name => rfl
  | list item ih => exact ih true
  | nonNull t ih => exact ih false

theorem located_ofAnnotated {location : Location} {use : Use} (t : Sdl.TypeExpr)
    (h : use.defined? = some location) :
    (Reference.ofAnnotated (.ofTypeExpr location t) use).Located := by
  intro l hl
  show l = (AnnotatedType.ofTypeExpr location t).innermostLocation
  rw [innermostLocation_ofTypeExpr]
  exact Option.some.inj ((Option.mem_def.mp hl).symm.trans h)

theorem located_of_mem_parameters {path : Option String} {arguments : List Sdl.InputDef}
    {p : InputValue} (hp : p ∈ (parametersOf (arguments.map (InputValue.ofDef path))).values) :
    (Reference.ofParameter p).Located := by
  obtain ⟨a, -, rfl⟩ := mem_values_parametersOf.mp hp
  exact located_ofAnnotated a.type rfl

theorem located_of_mem_ofField {typeName : String} {path : Option String} {f : Sdl.FieldDef} :
    ∀ r ∈ Reference.ofField typeName (.ofDef path f), r.Located := by
  rw [Reference.ofField, List.forall_mem_cons, List.forall_mem_map]
  exact ⟨located_ofAnnotated f.type rfl, fun p hp => located_of_mem_parameters hp⟩

theorem Contribution.exists_of_mem_values {δ α : Type} {view : Sdl.Body → List δ}
    {name : δ → String} {make : Contribution → δ → α} {cs : List Contribution} {v : α}
    (hv : v ∈ (Keyed.ofList (cs.flatMap (Contribution.entries view name make))).values) :
    ∃ c x, v = make c x := by
  obtain ⟨key, hkey⟩ := Keyed.mem_values_iff.mp hv
  obtain ⟨before, after, hsplit, -⟩ := Keyed.mem_entries_ofList.mp hkey
  have hmem : (key, v) ∈ cs.flatMap (Contribution.entries view name make) := by
    rw [hsplit]
    exact List.mem_append_right _ List.mem_cons_self
  obtain ⟨c, -, hc⟩ := List.mem_flatMap.mp hmem
  obtain ⟨x, -, hx⟩ := List.mem_map.mp hc
  exact ⟨c, x, (congrArg Prod.snd hx).symm⟩

theorem located_of_mem_ofComposite {cs : List Contribution} {header : Header}
    {interfaces : List String} :
    ∀ r ∈ Reference.ofComposite header (.ofList (cs.flatMap Contribution.fields)) interfaces,
      r.Located := by
  rw [Reference.ofComposite, List.forall_mem_append, List.forall_mem_map, List.forall_mem_flatMap]
  refine ⟨fun name _ l hl => (Option.not_mem_none l hl).elim, fun f hf => ?_⟩
  obtain ⟨c, d, rfl⟩ := Contribution.exists_of_mem_values hf
  exact located_of_mem_ofField

theorem located_of_mem_ofContributions {cs : List Contribution} {b : Sdl.Body} {header : Header} :
    ∀ r ∈ Reference.ofType (.defined header (.ofContributions cs b)), r.Located := by
  cases b with
  | scalar => exact List.forall_mem_nil _
  | enum _ => exact List.forall_mem_nil _
  | object _ _ => exact located_of_mem_ofComposite
  | interface _ _ => exact located_of_mem_ofComposite
  | union _ =>
      show ∀ r ∈ List.map _ _, _
      rw [List.forall_mem_map]
      exact fun m _ l hl => (Option.not_mem_none l hl).elim
  | inputObject _ =>
      show ∀ r ∈ List.map _ _, _
      rw [List.forall_mem_map]
      intro f hf
      obtain ⟨c, d, rfl⟩ := Contribution.exists_of_mem_values hf
      exact located_ofAnnotated d.type rfl

/-- Whatever is stored after definitions and extensions stands where its names do. -/
theorem located_of_mem_allReferences {ds : Definitions} (hload : Loadable ds)
    (es : List (Option String × Sdl.TypeExtension)) :
    ∀ r ∈ allReferences (.ofList (typeEntries ds.types es))
      (.ofList (directiveEntries ds.directives)), r.Located := by
  have hbuiltin : ∀ d ∈ Directive.builtins, ∀ r ∈ Reference.ofDirective d, r.Located := by decide
  rw [allReferences, List.forall_mem_append, List.forall_mem_flatMap, List.forall_mem_flatMap]
  simp only [Keyed.mem_values_iff, hload.types_fit.entries_ofList,
    hload.directives_fit.entries_ofList, mem_typeEntries_iff, mem_directiveEntries_iff]
  constructor
  · rintro t ⟨name, ⟨s, -, rfl⟩ | ⟨d, -, -, rfl⟩⟩
    · exact List.forall_mem_nil _
    · exact located_of_mem_ofContributions
  · rintro d ⟨name, ⟨hd, -⟩ | ⟨c, -, -, rfl⟩⟩
    · exact hbuiltin d hd
    · rw [Reference.ofDirective, List.forall_mem_map]
      exact fun p hp => located_of_mem_parameters hp

/-! ## What the building stops for -/

/-- A step that does not stop for references. -/
def SparesReferences {α : Type} (x : Except BuildError α) : Prop :=
  ∀ errors, x ≠ .error (.badReferences errors)

namespace SparesReferences

variable {α β : Type}

theorem ok (a : α) : SparesReferences (.ok a) := by
  intro errors h
  cases h

theorem exists_of_bind {x : Except BuildError α} {f : α → Except BuildError β}
    {errors : List ReferenceError} (hx : SparesReferences x)
    (h : (x >>= f) = .error (.badReferences errors)) :
    ∃ a, x = .ok a ∧ f a = .error (.badReferences errors) := by
  cases x with
  | error e =>
      cases h
      exact absurd rfl (hx errors)
  | ok a => exact ⟨a, rfl, h⟩

theorem bind {x : Except BuildError α} {f : α → Except BuildError β} (hx : SparesReferences x)
    (hf : ∀ a, SparesReferences (f a)) : SparesReferences (x >>= f) := by
  intro errors h
  obtain ⟨a, -, h⟩ := hx.exists_of_bind h
  exact hf a errors h

theorem foldlM {step : β → α → Except BuildError β} (h : ∀ b a, SparesReferences (step b a))
    (l : List α) (b : β) : SparesReferences (l.foldlM step b) := by
  induction l generalizing b with
  | nil => exact ok b
  | cons a l ih =>
      rw [List.foldlM_cons]
      exact bind (h b a) ih

theorem add {m : Keyed α} {key : String} {v : α} {clash : α → BuildError}
    (h : ∀ old errors, clash old ≠ .badReferences errors) :
    SparesReferences (m.add key v clash) := by
  rw [Keyed.add]
  cases m.get? key with
  | none => exact ok _
  | some old => exact fun errors he => h old errors (Except.error.inj he)

theorem extend (path : Option String) (typeName : String) (location : Location) (body : Body)
    (b : Sdl.Body) : SparesReferences (body.extend path typeName location b) := by
  have hfields : ∀ fields defs, SparesReferences (addFields path typeName fields defs) := by
    intro fields defs
    refine foldlM (fun m d => ?_) defs fields
    dsimp only
    split
    · rintro errors ⟨⟩
    · exact add (by simp)
  have hinterfaces : ∀ interfaces names,
      SparesReferences (addInterfaces typeName location interfaces names) := by
    intro interfaces names
    refine foldlM (fun m name => ?_) names interfaces
    split
    · rintro errors ⟨⟩
    · split
      · rintro errors ⟨⟩
      · exact ok _
  unfold Body.extend
  split
  · exact ok _
  · exact bind (foldlM (fun _ _ => add (by simp)) _ _) fun _ => ok _
  · exact bind (foldlM (fun _ _ => add (by simp)) _ _) fun _ => ok _
  · exact bind (hfields _ _) fun _ => bind (hinterfaces _ _) fun _ => ok _
  · exact bind (hfields _ _) fun _ => bind (hinterfaces _ _) fun _ => ok _
  · exact bind (foldlM (fun _ _ => add (by simp)) _ _) fun _ => ok _
  · rintro errors ⟨⟩

theorem mergeAll (types : Keyed NamedType) (es : List (Option String × Sdl.TypeExtension)) :
    SparesReferences (Draft.mergeAll types es) := by
  refine foldlM (fun types e => ?_) es types
  rw [Draft.merge]
  split
  · rintro errors ⟨⟩
  · rintro errors ⟨⟩
  · exact bind (extend _ _ _ _ _) fun _ => ok _

theorem rootOf (types : Keyed NamedType) (o : Operation) (chosen : Option RootChoice) :
    SparesReferences (Draft.rootOf types o chosen) := by
  unfold Draft.rootOf
  split
  · split
    · exact ok _
    · exact ok _
  · split
    · split
      · exact ok _
      · rintro errors ⟨⟩
    · rintro errors ⟨⟩

end SparesReferences

theorem sharedRoot?_ne_badReferences (query : String) (mutation subscription : Option String)
    (errors : List ReferenceError) :
    Draft.sharedRoot? query mutation subscription ≠ some (.badReferences errors) := by
  unfold Draft.sharedRoot?
  split
  · simp
  · split
    · simp
    · split
      · simp
      · split <;> simp

/-- The building stops for references only with all the errors there are, and at least one. -/
theorem Draft.exists_of_build_eq_badReferences {draft : Draft} {errors : List ReferenceError}
    (h : draft.build = .error (.badReferences errors)) :
    ∃ types, mergeAll draft.types draft.extensions = .ok types ∧
      errors = referenceErrors types draft.directives ∧ errors ≠ [] := by
  rw [build] at h
  obtain ⟨types, hmerge, h⟩ := (SparesReferences.mergeAll _ _).exists_of_bind h
  obtain ⟨r, -, h⟩ := (SparesReferences.rootOf _ _ _).exists_of_bind h
  cases r with
  | none => cases h
  | some query =>
      obtain ⟨_, hquery, h⟩ := (SparesReferences.ok query).exists_of_bind h
      cases hquery
      obtain ⟨mutation, -, h⟩ := (SparesReferences.rootOf _ _ _).exists_of_bind h
      obtain ⟨subscription, -, h⟩ := (SparesReferences.rootOf _ _ _).exists_of_bind h
      cases hshared : sharedRoot? query mutation subscription with
      | some e =>
          rw [hshared] at h
          cases h
          exact absurd hshared (sharedRoot?_ne_badReferences _ _ _ errors)
      | none =>
          rw [hshared] at h
          dsimp only at h
          split at h
          · rename_i hne
            cases h
            exact ⟨types, hmerge, rfl, by simpa using hne⟩
          · cases h

/-! ## The report of a draft -/

theorem Reports.exists_not_good {types : Keyed NamedType} {directives : Keyed Directive}
    {errors : List ReferenceError} (h : Reports types directives errors) (hne : errors ≠ []) :
    ∃ p r, Place.reference? types directives p = some r ∧ ¬ r.Good types := by
  obtain ⟨places, -, hplaces, htold⟩ := h
  cases htold with
  | nil => exact absurd rfl hne
  | @cons p e places errors _ _ => exact ⟨p, (hplaces p).mp List.mem_cons_self⟩

/-- Whatever definitions have been taken up and whatever extensions have been merged, the errors of
references are a report on the types and directives in the order of their definitions; and the
building stops for references only if one does not fit. -/
theorem Draft.reports_referenceErrors {ds : Definitions} {draft : Draft}
    (hload : Draft.start.addAll ds = .ok draft) :
    draft.directives.keys =
        Directive.builtins.map Directive.name ++ ds.directives.map (fun d => d.2.name) ∧
      (∀ es types, mergeAll draft.types es = .ok types →
        types.keys = BuiltinScalar.all.map BuiltinScalar.name ++ ds.types.map (fun d => d.2.name) ∧
          Reports types draft.directives (referenceErrors types draft.directives)) ∧
      ∀ errors, draft.build = .error (.badReferences errors) →
        ∃ types, mergeAll draft.types draft.extensions = .ok types ∧
          errors = referenceErrors types draft.directives ∧
          ∃ p r, Place.reference? types draft.directives p = some r ∧ ¬ r.Good types := by
  obtain ⟨hloadable, rfl⟩ := Draft.addAll_eq_ok_iff.mp hload
  have hreport : ∀ es types, mergeAll (ofDefinitions ds).types es = .ok types →
      types.keys = BuiltinScalar.all.map BuiltinScalar.name ++ ds.types.map (fun d => d.2.name) ∧
        Reports types (ofDefinitions ds).directives
          (referenceErrors types (ofDefinitions ds).directives) := by
    intro es types hmerge
    obtain ⟨-, rfl⟩ := (Draft.mergeAll_eq_ok_iff hloadable.types_fit).mp hmerge
    refine ⟨?_, reports_of_located (located_of_mem_allReferences hloadable es)⟩
    rw [Keyed.keys, hloadable.types_fit.entries_ofList, map_fst_typeEntries]
  refine ⟨?_, hreport, ?_⟩
  · rw [ofDefinitions, Keyed.keys, hloadable.directives_fit.entries_ofList,
      map_fst_directiveEntries]
  · intro errors hbuild
    obtain ⟨types, hmerge, rfl, hne⟩ := exists_of_build_eq_badReferences hbuild
    exact ⟨types, hmerge, rfl, (hreport _ types hmerge).2.exists_not_good hne⟩

/-- Texts whose draft is seen to pass a test are read as documents with such a draft. -/
theorem Draft.exists_addDocuments_of_test {texts : List (Option String × String)}
    {p : Draft → Keyed NamedType → Prop} [∀ draft types, Decidable (p draft types)]
    (h : ((texts.foldlM (fun (draft : Draft) t => draft.load t.1 t.2) start).toOption.any
      fun draft => (mergeAll draft.types draft.extensions).toOption.any
        fun types => p draft types) = true) :
    ∃ docs draft types, Sdl.readAll? texts = some docs ∧
      Draft.start.addAll (.ofDocuments docs) = .ok draft ∧
      mergeAll draft.types draft.extensions = .ok types ∧ p draft types := by
  cases hdraft : texts.foldlM (fun (draft : Draft) t => draft.load t.1 t.2) start with
  | error e =>
      rw [hdraft] at h
      cases h
  | ok draft =>
      rw [hdraft] at h
      change ((mergeAll draft.types draft.extensions).toOption.any fun types => p draft types) =
        true at h
      obtain ⟨docs, hdocs, hadd⟩ := Draft.foldlM_load_eq_ok_iff.mp hdraft
      rw [addDocuments_eq] at hadd
      cases hmerge : mergeAll draft.types draft.extensions with
      | error e =>
          rw [hmerge] at h
          cases h
      | ok types =>
          rw [hmerge] at h
          exact ⟨docs, draft, types, hdocs, hadd, hmerge, of_decide_eq_true h⟩

/-- Texts with references of every sort that do not fit, among others that do. -/
def strayTexts : List (Option String × String) :=
  [(some "more.graphql", "extend type Query { gone(by: [Lost]): Gone }"),
    (some "base.graphql",
      "type Query implements Missing & Cat { cat(in: [Query!]): Cat box: [Box]! } " ++
      "type Cat { id: ID } input Box { cat: Cat } union Any = Cat | Box " ++
      "directive @d(q: Query, n: Int) on FIELD")]

/-- What is told of `strayTexts`. -/
def strayErrors : List ReferenceError :=
  [.undefinedType (.file "base.graphql" ⟨1, 1⟩) "Missing",
    .notInterface (.file "base.graphql" ⟨1, 1⟩) "Cat" "Query",
    .parameterOfOutputType (.file "base.graphql" ⟨1, 43⟩) "in" "Query",
    .outputFieldOfInputType (.file "base.graphql" ⟨1, 62⟩) "box" "Box" "Query",
    .undefinedType (.file "more.graphql" ⟨1, 21⟩) "Gone",
    .undefinedType (.file "more.graphql" ⟨1, 26⟩) "Lost",
    .inputFieldOfOutputType (.file "base.graphql" ⟨1, 108⟩) "cat" "Cat" "Box",
    .memberNotObject (.file "base.graphql" ⟨1, 119⟩) .inputObject "Box" "Any",
    .parameterOfOutputType (.file "base.graphql" ⟨1, 154⟩) "q" "Query"]

theorem Draft.reports_strayTexts :
    ∃ docs draft types, Sdl.readAll? strayTexts = some docs ∧
      Draft.start.addAll (.ofDocuments docs) = .ok draft ∧
      mergeAll draft.types draft.extensions = .ok types ∧
      Reports types draft.directives strayErrors ∧
      draft.build = .error (.badReferences strayErrors) ∧
      ∃ p r, Place.reference? types draft.directives p = some r ∧ ¬ r.Good types := by
  obtain ⟨docs, draft, types, hdocs, hadd, hmerge, herrors, hbuild⟩ :=
    @Draft.exists_addDocuments_of_test strayTexts
      (fun draft types => referenceErrors types draft.directives = strayErrors ∧
        (draft.build.map fun _ => ()) = .error (.badReferences strayErrors)) _ (by decide +kernel)
  obtain ⟨-, hreport, hstops⟩ := Draft.reports_referenceErrors hadd
  have hreports := (hreport _ types hmerge).2
  rw [herrors] at hreports
  have hstop : draft.build = .error (.badReferences strayErrors) := by
    cases hb : draft.build with
    | ok s =>
        rw [hb] at hbuild
        cases hbuild
    | error e =>
        rw [hb] at hbuild
        exact congrArg Except.error (Except.error.inj hbuild)
  obtain ⟨types', hmerge', -, hill⟩ := hstops _ hstop
  cases hmerge.symm.trans hmerge'
  exact ⟨docs, draft, types, hdocs, hadd, hmerge, hreports, hstop, hill⟩

end SchemaHint
