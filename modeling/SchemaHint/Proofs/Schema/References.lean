import SchemaHint.Proofs.Schema.Validity

/-!
# Checked references

* `Use.allows` : the kinds of types that fit a use;
* `Reference.error?_eq_none_iff`, `referenceErrors_eq_nil_iff` : no error is told iff every type that
  is used is there and of a kind that fits;
* `referenceErrors_eq_nil_iff_of_fit` : for the types of definitions and extensions this is
  `RefersWell` of all bodies and `ArgumentsFit` of all directives.
-/

namespace SchemaHint

set_option autoImplicit false

/-! ## Single references -/

/-- Whether types of a kind fit a use. -/
def Use.allows : Use → TypeKind → Bool
  | .interfaceOf _, k => k = .interface
  | .outputField .., k => k ≠ .inputObject
  | .inputField .., k => k.isInput
  | .parameter .., k => k.isInput
  | .memberOf _, k => k = .object

theorem Reference.misuse?_eq_none_iff {r : Reference} {t : NamedType} :
    r.misuse? t = none ↔ r.use.allows t.kind = true := by
  have hinput : ∀ e : ReferenceError,
      (if t.isInput then none else some e) = none ↔ t.kind.isInput = true := by
    intro e
    by_cases h : t.isInput = true
    · rw [if_pos h]
      exact iff_of_true rfl h
    · rw [if_neg h]
      exact iff_of_false (Option.some_ne_none e) h
  rw [Reference.misuse?]
  cases r.use with
  | inputField typeName field defined => exact hinput _
  | parameter parameter defined => exact hinput _
  | _ => simp [Use.allows]

/-- A reference to a defined type of a kind that fits the use. -/
def Reference.Good (types : Keyed NamedType) (r : Reference) : Prop :=
  ∃ t, types.get? r.name = some t ∧ r.use.allows t.kind = true

theorem Reference.error?_eq_none_iff {types : Keyed NamedType} {r : Reference} :
    r.error? types = none ↔ r.Good types := by
  rw [Reference.error?, Reference.Good]
  cases types.get? r.name with
  | none => simp
  | some t => simp [Reference.misuse?_eq_none_iff]

theorem referenceErrors_eq_nil_iff {types : Keyed NamedType} {directives : Keyed Directive} :
    referenceErrors types directives = [] ↔
      ∀ r ∈ allReferences types directives, r.Good types := by
  rw [referenceErrors, List.filterMap_eq_nil_iff]
  exact forall₂_congr fun r _ => Reference.error?_eq_none_iff

/-! ## Kinds of defined types -/

theorem NamedType.kind_ofDefinition (es : List (Option String × Sdl.TypeExtension))
    (d : Option String × Sdl.TypeDef) : (NamedType.ofDefinition es d).kind = d.2.body.kind :=
  Body.kind_ofContributions _ _

theorem exists_get?_iff {ds : Definitions} (h : TypesFit ds.types)
    {es : List (Option String × Sdl.TypeExtension)} {name : String} (p : TypeKind → Prop) :
    (∃ t, (Keyed.ofList (typeEntries ds.types es)).get? name = some t ∧ p t.kind) ↔
      ∃ kind, ds.Defines name kind ∧ p kind := by
  constructor
  · rintro ⟨t, ht, hp⟩
    rcases h.get?_ofList_iff.mp ht with ⟨s, hs, rfl⟩ | ⟨d, hd, hname, rfl⟩
    · exact ⟨s.kind, Or.inl ⟨s, hs, rfl⟩, hp⟩
    · rw [NamedType.kind_ofDefinition] at hp
      exact ⟨_, Or.inr ⟨d, hd, hname, rfl⟩, hp⟩
  · rintro ⟨kind, ⟨s, hs, rfl⟩ | ⟨d, hd, hname, rfl⟩, hp⟩
    · exact ⟨.builtin s, h.get?_ofList_iff.mpr (Or.inl ⟨s, hs, rfl⟩), hp⟩
    · refine ⟨.ofDefinition es d, h.get?_ofList_iff.mpr (Or.inr ⟨d, hd, hname, rfl⟩), ?_⟩
      rwa [NamedType.kind_ofDefinition]

theorem innermostName_ofTypeExpr (location : Location) (t : Sdl.TypeExpr) :
    (AnnotatedType.ofTypeExpr location t).innermostName = t.innermostName := by
  unfold AnnotatedType.ofTypeExpr
  generalize true = nullable
  induction t generalizing nullable with
  | named name => rfl
  | list item ih => exact ih true
  | nonNull t ih => exact ih false

/-! ## Members -/

theorem mem_values_parametersOf {path : Option String} {arguments : List Sdl.InputDef}
    {p : InputValue} :
    p ∈ (parametersOf (arguments.map (InputValue.ofDef path))).values ↔
      ∃ a, Standing arguments a ∧ p = InputValue.ofDef path a := by
  rw [Keyed.mem_values_iff, parametersOf, List.map_map]
  simp only [Keyed.mem_entries_ofList]
  constructor
  · rintro ⟨key, before, after, hsplit, hkey⟩
    obtain ⟨l₁, l₂, rfl, -, hl₂⟩ := List.map_eq_append_iff.mp hsplit
    obtain ⟨a, l₃, rfl, ha, rfl⟩ := List.map_eq_cons_iff.mp hl₂
    obtain ⟨rfl, rfl⟩ := Prod.mk.inj ha
    refine ⟨a, ⟨l₁, l₃, rfl, fun b hb hname => hkey ?_⟩, rfl⟩
    rw [List.map_map, List.mem_map]
    exact ⟨b, hb, hname⟩
  · rintro ⟨a, ⟨before, after, rfl, hafter⟩, rfl⟩
    refine ⟨a.name, _, _, by rw [List.map_append, List.map_cons]; rfl, ?_⟩
    rw [List.map_map, List.mem_map]
    rintro ⟨b, hb, hname⟩
    exact hafter b hb hname

/-- What all values of one sort satisfy, contribution by contribution. -/
theorem forall_values_iff {δ α : Type} {view : Sdl.Body → List δ} {name : δ → String}
    {make : Contribution → δ → α} {cs : List Contribution} {p : α → Prop}
    (hnd : (((cs.map Contribution.body).flatMap view).map name).Nodup) :
    (∀ v ∈ (Keyed.ofList (cs.flatMap (Contribution.entries view name make))).values, p v) ↔
      ∀ c ∈ cs, ∀ x ∈ view c.body, p (make c x) := by
  rw [← Contribution.map_fst_entries view name make] at hnd
  rw [Keyed.values, Keyed.entries_ofList hnd]
  simp only [List.mem_map, List.mem_flatMap, Contribution.entries]
  constructor
  · intro h c hc x hx
    exact h _ ⟨_, ⟨c, hc, x, hx, rfl⟩, rfl⟩
  · rintro h v ⟨-, ⟨c, hc, x, hx, rfl⟩, rfl⟩
    exact h c hc x hx

/-! ## References of definitions -/

section Definitions
variable {ds : Definitions}

theorem good_iff (h : TypesFit ds.types) {es : List (Option String × Sdl.TypeExtension)}
    {r : Reference} :
    r.Good (.ofList (typeEntries ds.types es)) ↔
      ∃ kind, ds.Defines r.name kind ∧ r.use.allows kind = true :=
  exists_get?_iff h fun kind => r.use.allows kind = true

theorem good_ofAnnotated_iff (h : TypesFit ds.types) {es : List (Option String × Sdl.TypeExtension)}
    {location : Location} {t : Sdl.TypeExpr} {use : Use} :
    (Reference.ofAnnotated (.ofTypeExpr location t) use).Good (.ofList (typeEntries ds.types es)) ↔
      ∃ kind, ds.Defines t.innermostName kind ∧ use.allows kind = true := by
  rw [good_iff h, Reference.ofAnnotated, innermostName_ofTypeExpr]

theorem forall_parameters_iff (h : TypesFit ds.types)
    {es : List (Option String × Sdl.TypeExtension)} {path : Option String}
    {arguments : List Sdl.InputDef} :
    (∀ p ∈ (parametersOf (arguments.map (InputValue.ofDef path))).values,
        (Reference.ofParameter p).Good (.ofList (typeEntries ds.types es))) ↔
      ds.ArgumentsFit arguments := by
  simp only [mem_values_parametersOf]
  constructor
  · intro hall a ha
    exact (good_ofAnnotated_iff h).mp (hall _ ⟨a, ha, rfl⟩)
  · rintro hall p ⟨a, ha, rfl⟩
    exact (good_ofAnnotated_iff h).mpr (hall a ha)

theorem forall_ofField_iff (h : TypesFit ds.types) {es : List (Option String × Sdl.TypeExtension)}
    {typeName : String} {path : Option String} {f : Sdl.FieldDef} :
    (∀ r ∈ Reference.ofField typeName (.ofDef path f),
        r.Good (.ofList (typeEntries ds.types es))) ↔
      ds.OutputType f.type ∧ ds.ArgumentsFit f.arguments := by
  rw [Reference.ofField, List.forall_mem_cons, List.forall_mem_map]
  refine and_congr ?_ (forall_parameters_iff h)
  refine (good_ofAnnotated_iff h).trans ?_
  simp [Use.allows, Definitions.OutputType]

section Contributions
variable {es : List (Option String × Sdl.TypeExtension)} {typeName : String}
  {cs : List Contribution} {header : Header}

theorem forall_ofComposite_iff (h : TypesFit ds.types)
    (hfit : MembersFit typeName (cs.map Contribution.body)) :
    (∀ r ∈ Reference.ofComposite header (.ofList (cs.flatMap Contribution.fields))
          ((cs.map Contribution.body).flatMap Sdl.Body.interfaces),
        r.Good (.ofList (typeEntries ds.types es))) ↔
      ∀ c ∈ cs, (∀ name ∈ c.body.interfaces, ds.Defines name .interface) ∧
        ∀ f ∈ c.body.fields, ds.OutputType f.type ∧ ds.ArgumentsFit f.arguments := by
  rw [Reference.ofComposite, List.forall_mem_append, List.forall_mem_map, List.forall_mem_flatMap,
    List.forall_mem_flatMap, List.forall_mem_map]
  have hinterface : ∀ name location use,
      (Reference.mk name location (.interfaceOf use)).Good (.ofList (typeEntries ds.types es)) ↔
        ds.Defines name .interface := by
    intro name location use
    rw [good_iff h]
    simp [Use.allows]
  simp only [hinterface]
  have hfields := @forall_values_iff _ _ Sdl.Body.fields Sdl.FieldDef.name
    (fun c => Field.ofDef c.path) cs (fun f => ∀ r ∈ Reference.ofField header.name f,
      r.Good (.ofList (typeEntries ds.types es))) hfit.fields_nodup
  simp only [forall_ofField_iff h] at hfields
  refine (and_congr_right fun _ => hfields).trans ?_
  exact ⟨fun hc c hm => ⟨hc.1 c hm, hc.2 c hm⟩, fun hc => ⟨fun c hm => (hc c hm).1,
    fun c hm => (hc c hm).2⟩⟩

theorem refersWell_iff_of_composite {b : Sdl.Body} (hu : b.kind ≠ .union)
    (hi : b.kind ≠ .inputObject) :
    ds.RefersWell b ↔ (∀ name ∈ b.interfaces, ds.Defines name .interface) ∧
      ∀ f ∈ b.fields, ds.OutputType f.type ∧ ds.ArgumentsFit f.arguments := by
  constructor
  · rintro ⟨h₁, -, h₃, h₄, -⟩
    exact ⟨h₁, fun f hf => ⟨h₃ f hf, h₄ f hf⟩⟩
  · rintro ⟨h₁, h₂⟩
    refine ⟨h₁, ?_, fun f hf => (h₂ f hf).1, fun f hf => (h₂ f hf).2, ?_⟩
    · simp [Sdl.Body.members_eq_nil hu]
    · simp [Sdl.Body.inputFields_eq_nil hi]

theorem refersWell_iff_of_other {b : Sdl.Body} (ho : b.kind ≠ .object)
    (hi : b.kind ≠ .interface) :
    ds.RefersWell b ↔ (∀ name ∈ b.members, ds.Defines name .object) ∧
      ∀ f ∈ b.inputFields, ds.InputType f.type := by
  constructor
  · rintro ⟨-, h₂, -, -, h₅⟩
    exact ⟨h₂, h₅⟩
  · rintro ⟨h₂, h₅⟩
    refine ⟨?_, h₂, ?_, ?_, h₅⟩
    · simp [Sdl.Body.interfaces_eq_nil ho hi]
    · simp [Sdl.Body.fields_eq_nil ho hi]
    · simp [Sdl.Body.fields_eq_nil ho hi]

theorem forall_members_iff (h : TypesFit ds.types)
    (hfit : MembersFit typeName (cs.map Contribution.body)) :
    (∀ r ∈ (Keyed.ofList (cs.flatMap Contribution.members)).entries.map fun m =>
          (⟨m.1, m.2, .memberOf header.name⟩ : Reference),
        r.Good (.ofList (typeEntries ds.types es))) ↔
      ∀ c ∈ cs, ∀ name ∈ c.body.members, ds.Defines name .object := by
  have hnd : ((cs.flatMap Contribution.members).map Prod.fst).Nodup := by
    rw [Contribution.members, Contribution.map_fst_entries, List.map_id]
    exact hfit.members_nodup
  rw [Keyed.entries_ofList hnd, List.forall_mem_map, List.forall_mem_flatMap]
  refine forall₂_congr fun c _ => ?_
  rw [Contribution.members, Contribution.entries, List.forall_mem_map]
  refine forall₂_congr fun name _ => ?_
  rw [good_iff h]
  simp [Use.allows]

theorem forall_inputFields_iff (h : TypesFit ds.types)
    (hfit : MembersFit typeName (cs.map Contribution.body)) :
    (∀ r ∈ (Keyed.ofList (cs.flatMap Contribution.inputFields)).values.map fun f =>
          Reference.ofAnnotated f.type (.inputField header.name f.name f.location),
        r.Good (.ofList (typeEntries ds.types es))) ↔
      ∀ c ∈ cs, ∀ f ∈ c.body.inputFields, ds.InputType f.type := by
  rw [List.forall_mem_map, Contribution.inputFields, forall_values_iff hfit.inputFields_nodup]
  refine forall₂_congr fun c _ => forall₂_congr fun f _ => ?_
  exact good_ofAnnotated_iff h

/-- The references of a type are good iff all its contributions refer well. -/
theorem forall_ofContributions_iff (h : TypesFit ds.types) {b : Sdl.Body}
    (hfit : MembersFit typeName (cs.map Contribution.body))
    (hkinds : ∀ c ∈ cs, c.body.kind = b.kind) :
    (∀ r ∈ Reference.ofType (.defined header (.ofContributions cs b)),
        r.Good (.ofList (typeEntries ds.types es))) ↔ ∀ c ∈ cs, ds.RefersWell c.body := by
  -- every kind has members of some sorts only; the bodies list none of the others
  cases b with
  | object _ _ =>
      refine (forall_ofComposite_iff h hfit).trans (forall₂_congr fun c hc => ?_)
      have hk : c.body.kind = .object := hkinds c hc
      rw [refersWell_iff_of_composite] <;> simp [hk]
  | interface _ _ =>
      refine (forall_ofComposite_iff h hfit).trans (forall₂_congr fun c hc => ?_)
      have hk : c.body.kind = .interface := hkinds c hc
      rw [refersWell_iff_of_composite] <;> simp [hk]
  | scalar =>
      refine iff_of_true (by simp [Reference.ofType, Body.ofContributions]) fun c hc => ?_
      have hk : c.body.kind = .scalar := hkinds c hc
      rw [refersWell_iff_of_other, Sdl.Body.members_eq_nil, Sdl.Body.inputFields_eq_nil] <;>
        simp [hk]
  | enum _ =>
      refine iff_of_true (by simp [Reference.ofType, Body.ofContributions]) fun c hc => ?_
      have hk : c.body.kind = .enum := hkinds c hc
      rw [refersWell_iff_of_other, Sdl.Body.members_eq_nil, Sdl.Body.inputFields_eq_nil] <;>
        simp [hk]
  | inputObject _ =>
      refine (forall_inputFields_iff h hfit).trans (forall₂_congr fun c hc => ?_)
      have hk : c.body.kind = .inputObject := hkinds c hc
      rw [refersWell_iff_of_other, Sdl.Body.members_eq_nil] <;> simp [hk]
  | union _ =>
      refine (forall_members_iff h hfit).trans (forall₂_congr fun c hc => ?_)
      have hk : c.body.kind = .union := hkinds c hc
      rw [refersWell_iff_of_other, Sdl.Body.inputFields_eq_nil] <;> simp [hk]

end Contributions

/-! ## All references -/

/-- An extension that fits is of the kind of the definition it belongs to. -/
theorem ExtensionsFit.kind_of_mem (htds : TypesFit ds.types)
    (hes : ExtensionsFit ds.types ds.extensions) {d : Option String × Sdl.TypeDef}
    (hd : d ∈ ds.types) {c : Contribution} (hc : c ∈ contributions ds.extensions d) :
    c.body.kind = d.2.body.kind := by
  rcases List.mem_cons.mp hc with rfl | hc
  · rfl
  · obtain ⟨e, he, rfl⟩ := List.mem_map.mp hc
    rw [List.mem_filter, decide_eq_true_iff] at he
    obtain ⟨d', hd', hname, hkind⟩ := hes.extended e he.1
    rw [htds.eq_of_name_eq hd hd' (he.2.symm.trans hname.symm), hkind]
    rfl

theorem forall_ofType_iff (htds : TypesFit ds.types)
    (hes : ExtensionsFit ds.types ds.extensions) {types : Keyed NamedType}
    (htypes : types = .ofList (typeEntries ds.types ds.extensions)) :
    (∀ t ∈ types.values, ∀ r ∈ Reference.ofType t, r.Good types) ↔
      ∀ d ∈ ds.types, ∀ b ∈ ds.bodies d, ds.RefersWell b := by
  have hdef : ∀ d ∈ ds.types,
      (∀ r ∈ Reference.ofType (.ofDefinition ds.extensions d), r.Good types) ↔
        ∀ b ∈ ds.bodies d, ds.RefersWell b := by
    intro d hd
    rw [← Definitions.bodies_eq, List.forall_mem_map, htypes]
    exact forall_ofContributions_iff htds (hes.members_fit d hd)
      fun c hc => hes.kind_of_mem htds hd hc
  have hentries : types.entries = typeEntries ds.types ds.extensions := by
    rw [htypes, htds.entries_ofList]
  simp only [Keyed.mem_values_iff, hentries, mem_typeEntries_iff]
  constructor
  · intro h d hd
    exact (hdef d hd).mp (h _ ⟨d.2.name, Or.inr ⟨d, hd, rfl, rfl⟩⟩)
  · rintro h t ⟨name, ⟨s, -, rfl⟩ | ⟨d, hd, -, rfl⟩⟩
    · simp [Reference.ofType]
    · exact (hdef d hd).mpr (h d hd)

/-- The arguments of the built-in directives are of built-in scalars. -/
theorem good_of_mem_builtins (htds : TypesFit ds.types)
    {es : List (Option String × Sdl.TypeExtension)} {d : Directive}
    (hd : d ∈ Directive.builtins) :
    ∀ r ∈ Reference.ofDirective d, r.Good (.ofList (typeEntries ds.types es)) := by
  have hscalars : ∀ d ∈ Directive.builtins, ∀ r ∈ Reference.ofDirective d,
      ∃ s ∈ BuiltinScalar.all, s.name = r.name ∧ r.use.allows s.kind = true := by
    decide
  intro r hr
  obtain ⟨s, -, hname, hallows⟩ := hscalars d hd r hr
  exact (good_iff htds).mpr ⟨s.kind, Or.inl ⟨s, hname, rfl⟩, hallows⟩

theorem mem_directiveEntries_iff {dds : List (Option String × Sdl.DirectiveDef)} {name : String}
    {d : Directive} :
    (name, d) ∈ directiveEntries dds ↔
      (d ∈ Directive.builtins ∧ d.name = name) ∨ ∃ c ∈ dds, c.2.name = name ∧ d = .ofDef c.1 c.2 := by
  simp only [directiveEntries, List.mem_append, List.mem_map, Prod.mk.injEq]
  constructor
  · rintro (⟨b, hb, hname, rfl⟩ | ⟨c, hc, hname, rfl⟩)
    · exact Or.inl ⟨hb, hname⟩
    · exact Or.inr ⟨c, hc, hname, rfl⟩
  · rintro (⟨hb, hname⟩ | ⟨c, hc, hname, rfl⟩)
    · exact Or.inl ⟨d, hb, hname, rfl⟩
    · exact Or.inr ⟨c, hc, hname, rfl⟩

theorem DirectivesFit.entries_ofList {dds : List (Option String × Sdl.DirectiveDef)}
    (h : DirectivesFit dds) : (Keyed.ofList (directiveEntries dds)).entries = directiveEntries dds := by
  apply Keyed.entries_ofList
  rw [map_fst_directiveEntries]
  exact h.names_nodup

theorem forall_ofDirective_iff (htds : TypesFit ds.types) (hdds : DirectivesFit ds.directives)
    {es : List (Option String × Sdl.TypeExtension)} :
    (∀ d ∈ (Keyed.ofList (directiveEntries ds.directives)).values,
        ∀ r ∈ Reference.ofDirective d, r.Good (.ofList (typeEntries ds.types es))) ↔
      ∀ d ∈ ds.directives, ds.ArgumentsFit d.2.arguments := by
  have hdef : ∀ c : Option String × Sdl.DirectiveDef,
      (∀ r ∈ Reference.ofDirective (.ofDef c.1 c.2), r.Good (.ofList (typeEntries ds.types es))) ↔
        ds.ArgumentsFit c.2.arguments := by
    intro c
    rw [Reference.ofDirective, List.forall_mem_map]
    exact forall_parameters_iff htds
  simp only [Keyed.mem_values_iff, hdds.entries_ofList, mem_directiveEntries_iff]
  constructor
  · intro h c hc
    exact (hdef c).mp (h _ ⟨c.2.name, Or.inr ⟨c, hc, rfl, rfl⟩⟩)
  · rintro h d ⟨name, ⟨hd, -⟩ | ⟨c, hc, -, rfl⟩⟩
    · exact good_of_mem_builtins htds hd
    · exact (hdef c).mpr (h c hc)

/-- The types and directives of definitions use types well iff the definitions do. -/
theorem referenceErrors_eq_nil_iff_of_fit (htds : TypesFit ds.types)
    (hes : ExtensionsFit ds.types ds.extensions) (hdds : DirectivesFit ds.directives) :
    referenceErrors (.ofList (typeEntries ds.types ds.extensions))
        (.ofList (directiveEntries ds.directives)) = [] ↔
      (∀ d ∈ ds.types, ∀ b ∈ ds.bodies d, ds.RefersWell b) ∧
        ∀ d ∈ ds.directives, ds.ArgumentsFit d.2.arguments := by
  rw [referenceErrors_eq_nil_iff, allReferences, List.forall_mem_append, List.forall_mem_flatMap,
    List.forall_mem_flatMap, forall_ofType_iff htds hes rfl, forall_ofDirective_iff htds hdds]

end Definitions

end SchemaHint
