import SchemaHint.Proofs.Schema.Loading

/-!
# Merging extensions

The types of a draft after some extensions have been merged are again in a closed form: every
definition with the extensions of its name, in the order in which they came.

* `ExtensionsFit` : extensions name a defined type of their kind and the members fit;
* `Draft.merge_ofList_iff` : merging one extension more (one step);
* `Draft.mergeAll_eq_ok_iff` : merging all of them (a run).
-/

namespace SchemaHint

set_option autoImplicit false

/-- Extensions that can be merged into the types of definitions: each is of the kind of the type it
names, and no type gets members that do not fit. -/
structure ExtensionsFit (tds : List (Option String × Sdl.TypeDef))
    (es : List (Option String × Sdl.TypeExtension)) : Prop where
  extended : ∀ e ∈ es, ∃ d ∈ tds, d.2.name = e.2.name ∧ d.2.body.kind = e.2.body.kind
  members_fit : ∀ d ∈ tds, MembersFit d.2.name ((contributions es d).map Contribution.body)

section Closed
variable {tds : List (Option String × Sdl.TypeDef)} {es : List (Option String × Sdl.TypeExtension)}
  {d : Option String × Sdl.TypeDef} {e : Option String × Sdl.TypeExtension}

theorem contributions_snoc (h : e.2.name = d.2.name) :
    contributions (es ++ [e]) d = contributions es d ++ [.ofExtension e] := by
  simp [contributions, List.filter_append, h]

theorem contributions_snoc_of_ne (h : e.2.name ≠ d.2.name) :
    contributions (es ++ [e]) d = contributions es d := by
  simp [contributions, List.filter_append, h]

theorem TypesFit.entries_ofList (h : TypesFit tds) :
    (Keyed.ofList (typeEntries tds es)).entries = typeEntries tds es := by
  apply Keyed.entries_ofList
  rw [map_fst_typeEntries]
  exact h.names_nodup

theorem TypesFit.name_ne_builtin (h : TypesFit tds) (hd : d ∈ tds) (s : BuiltinScalar) :
    s.name ≠ d.2.name := by
  intro hname
  have hs : s.name ∈ BuiltinScalar.all.map BuiltinScalar.name := by
    cases s <;> decide
  have hdname : d.2.name ∈ tds.map fun d => d.2.name := List.mem_map_of_mem hd
  exact (List.nodup_append.mp h.names_nodup).2.2 _ hs _ hdname hname

theorem TypesFit.eq_of_name_eq (h : TypesFit tds) (hd : d ∈ tds)
    {d' : Option String × Sdl.TypeDef} (hd' : d' ∈ tds) (hname : d.2.name = d'.2.name) : d = d' :=
  List.inj_on_of_nodup_map (List.nodup_append.mp h.names_nodup).2.1 hd hd' hname

theorem mem_typeEntries_iff {name : String} {t : NamedType} :
    (name, t) ∈ typeEntries tds es ↔
      (∃ s : BuiltinScalar, s.name = name ∧ t = .builtin s) ∨
        ∃ d ∈ tds, d.2.name = name ∧ t = .ofDefinition es d := by
  have hall : ∀ s, s ∈ BuiltinScalar.all := by
    intro s
    cases s <;> decide
  simp [typeEntries, hall, eq_comm]

theorem TypesFit.get?_ofList_iff (h : TypesFit tds) {name : String} {t : NamedType} :
    (Keyed.ofList (typeEntries tds es)).get? name = some t ↔
      (∃ s : BuiltinScalar, s.name = name ∧ t = .builtin s) ∨
        ∃ d ∈ tds, d.2.name = name ∧ t = .ofDefinition es d := by
  rw [Keyed.get?_eq_some_iff, h.entries_ofList, mem_typeEntries_iff]

/-- An extension replaces the type of its name by one with a contribution more. -/
theorem TypesFit.insert_ofList (h : TypesFit tds) (hd : d ∈ tds) (hname : d.2.name = e.2.name) :
    (Keyed.ofList (typeEntries tds es)).insert e.2.name (.ofDefinition (es ++ [e]) d) =
      Keyed.ofList (typeEntries tds (es ++ [e])) := by
  have hkey : e.2.name ∈ (Keyed.ofList (typeEntries tds es)).keys := by
    rw [Keyed.mem_keys_ofList, map_fst_typeEntries, ← hname]
    exact List.mem_append_right _ (List.mem_map_of_mem hd)
  rw [Keyed.ext_iff, Keyed.entries_insert_of_mem hkey, h.entries_ofList, h.entries_ofList,
    Keyed.replaceIn, typeEntries, typeEntries, List.map_append, List.map_map, List.map_map]
  congr 1
  · apply List.map_congr_left
    intro s _
    exact if_neg (hname ▸ h.name_ne_builtin hd s)
  · apply List.map_congr_left
    intro d' hd'
    by_cases hname' : d'.2.name = e.2.name
    · have heq : d' = d := h.eq_of_name_eq hd' hd (hname'.trans hname.symm)
      simp [heq, hname]
    · simp only [Function.comp_apply, if_neg hname', NamedType.ofDefinition,
        contributions_snoc_of_ne (Ne.symm hname')]

end Closed

/-! ## One extension -/

section Merge
variable {tds : List (Option String × Sdl.TypeDef)} {es : List (Option String × Sdl.TypeExtension)}
  {e : Option String × Sdl.TypeExtension} {types : Keyed NamedType}

/-- Merging into the type of a given definition. -/
theorem merge_of_mem (htds : TypesFit tds) (hes : ExtensionsFit tds es)
    {d : Option String × Sdl.TypeDef} (hd : d ∈ tds) (hname : d.2.name = e.2.name) :
    Draft.merge (.ofList (typeEntries tds es)) e.1 e.2 = .ok types ↔
      d.2.body.kind = e.2.body.kind ∧
        MembersFit d.2.name ((contributions (es ++ [e]) d).map Contribution.body) ∧
        types = .ofList (typeEntries tds (es ++ [e])) := by
  have hget : (Keyed.ofList (typeEntries tds es)).get? e.2.name = some (.ofDefinition es d) :=
    htds.get?_ofList_iff.mpr (Or.inr ⟨d, hd, hname, rfl⟩)
  have hextend := fun b => @Body.extend_eq_ok_iff d.2.name (contributions es d) (.ofExtension e)
    d.2.body b (hes.members_fit d hd)
  have hrun : Draft.merge (.ofList (typeEntries tds es)) e.1 e.2 = (do
      let b ← (Body.ofContributions (contributions es d) d.2.body).extend e.1 d.2.name
        (Contribution.ofExtension e).location e.2.body
      return (Keyed.ofList (typeEntries tds es)).insert e.2.name
        (.defined (.ofDefinition d) b)) := by
    rw [Draft.merge, hget, hname]
    rfl
  rw [hrun, ← htds.insert_ofList hd hname, NamedType.ofDefinition, contributions_snoc hname.symm,
    bind_eq_ok_iff]
  constructor
  · rintro ⟨b, hb, h⟩
    obtain ⟨hkind, hfit, rfl⟩ := (hextend b).mp hb
    exact ⟨hkind.symm, hfit, (pure_eq_ok_iff.mp h).symm⟩
  · rintro ⟨hkind, hfit, rfl⟩
    exact ⟨_, (hextend _).mpr ⟨hkind.symm, hfit, rfl⟩, rfl⟩

/-- One step: an extension is merged iff it and those merged so far fit the definitions. -/
theorem Draft.merge_ofList_iff (htds : TypesFit tds) (hes : ExtensionsFit tds es) :
    merge (.ofList (typeEntries tds es)) e.1 e.2 = .ok types ↔
      ExtensionsFit tds (es ++ [e]) ∧ types = .ofList (typeEntries tds (es ++ [e])) := by
  by_cases hdef : ∃ d ∈ tds, d.2.name = e.2.name
  · obtain ⟨d, hd, hname⟩ := hdef
    rw [merge_of_mem htds hes hd hname, ← and_assoc, and_congr_left_iff]
    rintro -
    constructor
    · rintro ⟨hkind, hfit⟩
      constructor
      · rw [List.forall_mem_append, List.forall_mem_singleton]
        exact ⟨hes.extended, d, hd, hname, hkind⟩
      · intro d' hd'
        by_cases hname' : d'.2.name = e.2.name
        · rwa [htds.eq_of_name_eq hd' hd (hname'.trans hname.symm)]
        · rw [contributions_snoc_of_ne (Ne.symm hname')]
          exact hes.members_fit d' hd'
    · rintro ⟨hextended, hfit⟩
      obtain ⟨d', hd', hname', hkind⟩ := hextended e (by simp)
      have heq : d' = d := htds.eq_of_name_eq hd' hd (hname'.trans hname.symm)
      exact ⟨heq ▸ hkind, hfit d hd⟩
  · have hnot : ¬ ExtensionsFit tds (es ++ [e]) := by
      rintro ⟨hextended, -⟩
      obtain ⟨d, hd, hname, -⟩ := hextended e (by simp)
      exact hdef ⟨d, hd, hname⟩
    rw [iff_false_right (fun h => hnot h.1), merge]
    cases hget : (Keyed.ofList (typeEntries tds es)).get? e.2.name with
    | none => simp
    | some t =>
        rcases htds.get?_ofList_iff.mp hget with ⟨s, -, rfl⟩ | ⟨d, hd, hname, -⟩
        · simp
        · exact absurd ⟨d, hd, hname⟩ hdef

end Merge

/-! ## A run over all extensions -/

theorem ExtensionsFit.nil {tds : List (Option String × Sdl.TypeDef)} (htds : TypesFit tds) :
    ExtensionsFit tds [] :=
  ⟨by simp, htds.members_fit⟩

theorem ExtensionsFit.of_snoc {tds : List (Option String × Sdl.TypeDef)}
    {es : List (Option String × Sdl.TypeExtension)} {e : Option String × Sdl.TypeExtension}
    (h : ExtensionsFit tds (es ++ [e])) : ExtensionsFit tds es := by
  refine ⟨fun e' he' => h.extended e' (List.mem_append_left _ he'), fun d hd => ?_⟩
  have hfit := h.members_fit d hd
  by_cases hname : e.2.name = d.2.name
  · rw [contributions_snoc hname, List.map_append] at hfit
    exact hfit.of_append
  · rwa [contributions_snoc_of_ne hname] at hfit

theorem Draft.mergeAll_snoc (types : Keyed NamedType)
    (es : List (Option String × Sdl.TypeExtension)) (e : Option String × Sdl.TypeExtension) :
    mergeAll types (es ++ [e]) = mergeAll types es >>= fun types => merge types e.1 e.2 := by
  simp [mergeAll]

/-- Extensions are merged into the types of definitions iff they fit them, and then every type has
the members of all its contributions. -/
theorem Draft.mergeAll_eq_ok_iff {tds : List (Option String × Sdl.TypeDef)} (htds : TypesFit tds)
    {es : List (Option String × Sdl.TypeExtension)} {types : Keyed NamedType} :
    mergeAll (.ofList (typeEntries tds [])) es = .ok types ↔
      ExtensionsFit tds es ∧ types = .ofList (typeEntries tds es) := by
  induction es using List.reverseRecOn generalizing types with
  | nil =>
      rw [mergeAll, List.foldlM_nil, pure_eq_ok_iff, and_iff_right (ExtensionsFit.nil htds),
        eq_comm]
  | append_singleton es e ih =>
      rw [mergeAll_snoc, bind_eq_ok_iff]
      constructor
      · rintro ⟨types₁, h₁, h⟩
        obtain ⟨hes, rfl⟩ := ih.mp h₁
        exact (merge_ofList_iff htds hes).mp h
      · intro h
        have hes : ExtensionsFit tds es := h.1.of_snoc
        exact ⟨_, ih.mpr ⟨hes, rfl⟩, (merge_ofList_iff htds hes).mpr h⟩

end SchemaHint
