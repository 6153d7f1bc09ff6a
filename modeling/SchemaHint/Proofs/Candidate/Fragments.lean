import SchemaHint.Proofs.Candidate.Names
import SchemaHint.Proofs.Schema.PossibleTypes

/-!
# Offered fragments and type conditions

Inside a selection set on a known type, a fragment can stand whose type overlaps with it.

* `Candidate.Spreadable` : a fragment that can be spread in a context;
* `Candidate.fragmentSpreads_of_ofDocuments` : the fragments that are offered are those, and a
  fragment on an offered type condition is one of them;
* `Candidate.ValidTypeCondition` : a composite type that shares an object type with the parent;
* `Candidate.typeConditions_valid_iff_of_ofDocuments` : the type conditions that are offered are
  valid unless the parent type is a leaf or an input object, which is then offered itself.
-/

namespace SchemaHint

set_option autoImplicit false

namespace Candidate

open Chain (Kind State)
open Context (resolve WellTyped)

/-! ## Overlapping types -/

section Overlap
variable {s : Schema} {a b : NamedType}

theorem typesOverlap_iff_names :
    typesOverlap s a b = true ↔
      a.name = b.name ∨ ∃ t ∈ s.possibleTypes a, ∃ u ∈ s.possibleTypes b, t.name = u.name := by
  simp only [typesOverlap, Bool.or_eq_true, decide_eq_true_eq, List.any_eq_true]
  refine or_congr_right ⟨?_, ?_⟩
  · rintro ⟨u, hu, t, ht, hname⟩
    exact ⟨t, ht, u, hu, hname⟩
  · rintro ⟨t, ht, u, hu, hname⟩
    exact ⟨u, hu, t, ht, hname⟩

theorem typesOverlap_comm (s : Schema) (a b : NamedType) :
    typesOverlap s a b = typesOverlap s b a := by
  have himp : ∀ c d, typesOverlap s c d = true → typesOverlap s d c = true := by
    intro c d h
    rw [typesOverlap_iff_names] at h ⊢
    rcases h with hname | ⟨t, ht, u, hu, hname⟩
    · exact Or.inl hname.symm
    · exact Or.inr ⟨u, hu, t, ht, hname.symm⟩
  exact Bool.eq_iff_iff.mpr ⟨himp a b, himp b a⟩

/-- Types of a schema with one name are one type, so that comparing names is comparing types. -/
theorem eq_of_name_eq (ha : s.type? a.name = some a) (hb : s.type? b.name = some b)
    (h : a.name = b.name) : a = b := by
  rw [h, hb] at ha
  exact (Option.some.inj ha).symm

theorem typesOverlap_iff_overlap (hs : s.WellFormed) (ha : s.type? a.name = some a)
    (hb : s.type? b.name = some b) : typesOverlap s a b = true ↔ s.Overlap a b := by
  rw [typesOverlap_iff_names]
  constructor
  · rintro (hname | ⟨t, ht, u, hu, hname⟩)
    · exact Or.inl (eq_of_name_eq ha hb hname)
    · have hta := (Schema.mem_possibleTypes_iff hs ha).mp ht
      have hub := (Schema.mem_possibleTypes_iff hs hb).mp hu
      have heq : t = u := eq_of_name_eq hta.known hub.known hname
      exact Or.inr ⟨t, hta, heq ▸ hub⟩
  · rintro (rfl | ⟨o, hoa, hob⟩)
    · exact Or.inl rfl
    · exact Or.inr ⟨o, (Schema.mem_possibleTypes_iff hs ha).mpr hoa, o,
        (Schema.mem_possibleTypes_iff hs hb).mpr hob, rfl⟩

end Overlap

/-! ## Positions -/

section Positions
variable {s : Schema} {ctx : Context} {leaf : State} {ancestor : Option Kind}
  {fragments : List KnownFragment}

/-- A type condition is written at the leaf. -/
def AtTypeCondition (leaf : State) (ancestor : Option Kind) : Prop :=
  leaf.kind = .typeCondition ∧ leaf.step = 1 ∨
    leaf.kind = .namedType ∧ ancestor = some .typeCondition

theorem generate_typeConditions (h : AtTypeCondition leaf ancestor) :
    generate s ctx leaf ancestor fragments = some (typeConditions s ctx) := by
  unfold generate
  rcases h with ⟨hkind, hstep⟩ | ⟨hkind, rfl⟩
  · rw [hkind]
    exact if_pos hstep
  · rw [hkind]

theorem generate_fragmentSpreads (hkind : leaf.kind = .fragmentSpread) (hstep : leaf.step = 1) :
    generate s ctx leaf ancestor fragments = some (fragmentSpreads s ctx fragments) := by
  unfold generate
  rw [hkind]
  exact if_pos hstep

end Positions

/-! ## Type conditions -/

/-- The name is that of a composite type, which shares an object type with the parent if that is
known. -/
def ValidTypeCondition (s : Schema) (parent : Option NamedType) (name : String) : Prop :=
  ∃ type, s.type? name = some type ∧ type.isComposite = true ∧
    ∀ t, parent = some t → s.ShareObject type t

section TypeConditions
variable {s : Schema} {ctx : Context} {parent : NamedType}

theorem typeConditions_of_unknown (h : ctx.parent = none) :
    typeConditions s ctx = (s.types.values.filter NamedType.isComposite).map ofType := by
  rw [typeConditions, h]

/-- Inside a composite type its possible types are offered. -/
theorem typeConditions_of_isComposite (h : ctx.parent = some parent)
    (hcomposite : parent.isComposite = true) :
    typeConditions s ctx = (s.possibleTypes parent).map ofType := by
  rw [typeConditions, h]
  dsimp only
  by_cases habstract : parent.isAbstract = true
  · rw [if_pos habstract]
  · rw [if_neg habstract]
    -- what is composite and not abstract is an object, which is its own only possible type
    have hobject : parent.kind = .object := by
      by_contra hkind
      exact habstract (isAbstract_iff.mpr ⟨hcomposite, hkind⟩)
    cases parent with
    | builtin b => cases b <;> cases hcomposite
    | defined header body => cases body <;> first | rfl | cases hobject

/-- Inside any other type only the type itself is offered. -/
theorem typeConditions_of_not_isComposite (h : ctx.parent = some parent)
    (hcomposite : parent.isComposite = false) : typeConditions s ctx = [ofType parent] := by
  have habstract : ¬ parent.isAbstract = true := by
    intro habstract
    rw [(isAbstract_iff.mp habstract).1] at hcomposite
    cases hcomposite
  rw [typeConditions, h]
  dsimp only
  rw [if_neg habstract]
  rfl

theorem valid_of_unknown (hs : s.WellFormed) (h : ctx.parent = none) :
    ∀ x ∈ typeConditions s ctx, ValidTypeCondition s ctx.parent x.text := by
  rw [typeConditions_of_unknown h, List.forall_mem_map]
  intro t ht
  obtain ⟨hmem, hcomposite⟩ := List.mem_filter.mp ht
  refine ⟨t, hs.type?_eq_some_iff.mpr ⟨hmem, rfl⟩, hcomposite, fun parent hparent => ?_⟩
  rw [h] at hparent
  cases hparent

end TypeConditions

/-! ## Well-typed contexts -/

/-- The fragment can stand in the context: the parent type is unknown, or the fragment is on a type
of the schema that overlaps with it. -/
def Spreadable (s : Schema) (ctx : Context) (fragment : KnownFragment) : Prop :=
  ctx.parent = none ∨
    ∃ parent type, ctx.parent = some parent ∧ s.type? fragment.typeCondition = some type ∧
      s.Overlap parent type

section WellTyped
variable {s : Schema} (hs : s.WellFormed) {ctx : Context} (hctx : WellTyped s ctx)
include hs hctx

theorem fragmentApplies_iff (fragment : KnownFragment) :
    fragmentApplies s ctx fragment = true ↔ Spreadable s ctx fragment := by
  unfold fragmentApplies Spreadable
  cases hparent : ctx.parent with
  | none => simp
  | some parent =>
      cases htype : s.type? fragment.typeCondition with
      | none => simp
      | some type =>
          have hoverlap := typesOverlap_iff_overlap hs (hctx.parent parent hparent)
            (hs.type?_name htype)
          simpa using hoverlap

/-- A type that is offered as a type condition overlaps with the parent type. -/
theorem exists_overlap_of_mem_typeConditions {parent : NamedType} (h : ctx.parent = some parent)
    {x : Candidate} (hx : x ∈ typeConditions s ctx) :
    ∃ type, s.type? x.text = some type ∧ s.Overlap parent type := by
  have hparent := hctx.parent parent h
  cases hcomposite : parent.isComposite with
  | true =>
      rw [typeConditions_of_isComposite h hcomposite] at hx
      obtain ⟨o, ho, rfl⟩ := List.mem_map.mp hx
      have hpossible := (Schema.mem_possibleTypes_iff hs hparent).mp ho
      exact ⟨o, hpossible.known, Or.inr hpossible.shareObject.symm⟩
  | false =>
      rw [typeConditions_of_not_isComposite h hcomposite, List.mem_singleton] at hx
      subst hx
      exact ⟨parent, hparent, Or.inl rfl⟩

theorem spreadable_of_mem_typeConditions {x : Candidate} (hx : x ∈ typeConditions s ctx)
    {fragment : KnownFragment} (hon : fragment.typeCondition = x.text) :
    Spreadable s ctx fragment := by
  cases hparent : ctx.parent with
  | none => exact Or.inl hparent
  | some parent =>
      obtain ⟨type, htype, hoverlap⟩ := exists_overlap_of_mem_typeConditions hs hctx hparent hx
      exact Or.inr ⟨parent, type, hparent, hon ▸ htype, hoverlap⟩

theorem valid_of_isComposite {parent : NamedType} (h : ctx.parent = some parent)
    (hcomposite : parent.isComposite = true) :
    ∀ x ∈ typeConditions s ctx, ValidTypeCondition s ctx.parent x.text := by
  rw [typeConditions_of_isComposite h hcomposite, List.forall_mem_map]
  intro o ho
  have hpossible := (Schema.mem_possibleTypes_iff hs (hctx.parent parent h)).mp ho
  have hshare : s.ShareObject o parent := hpossible.shareObject
  have hobject : o.isComposite = true := by
    rw [NamedType.isComposite, hpossible.object]
    rfl
  refine ⟨o, hpossible.known, hobject, fun t ht => ?_⟩
  rw [h] at ht
  exact Option.some.inj ht ▸ hshare

/-- What is offered as a type condition is valid unless the parent type has no possible types. -/
theorem forall_valid_iff :
    (∀ x ∈ typeConditions s ctx, ValidTypeCondition s ctx.parent x.text) ↔
      ∀ parent, ctx.parent = some parent → parent.isComposite = true := by
  constructor
  · intro hvalid parent hparent
    by_contra hleaf
    rw [Bool.not_eq_true] at hleaf
    rw [typeConditions_of_not_isComposite hparent hleaf, List.forall_mem_singleton] at hvalid
    -- the one type that is offered is the parent itself, which is not composite
    obtain ⟨type, htype, hcomposite, -⟩ := hvalid
    have heq : type = parent := Option.some.inj (htype.symm.trans (hctx.parent parent hparent))
    rw [heq, hleaf] at hcomposite
    cases hcomposite
  · intro hcomposite
    cases hparent : ctx.parent with
    | none => exact hparent ▸ valid_of_unknown hs hparent
    | some parent => exact hparent ▸ valid_of_isComposite hs hctx hparent (hcomposite parent hparent)

end WellTyped

/-! ## Schemas that are built -/

/-- In every schema that is built, the fragments that are offered where one is spread are those that
can stand there, in their order and as often as they are known. Whether types overlap does not
depend on their order, and a fragment on a type that is offered as a type condition can be spread. -/
theorem fragmentSpreads_of_ofDocuments {docs : List (Option String × Sdl.Document)} {s : Schema}
    (h : Schema.ofDocuments docs = .ok s) (c : Chain) {leaf : State}
    (hkind : leaf.kind = .fragmentSpread) (hstep : leaf.step = 1) (ancestor : Option Kind)
    (fragments : List KnownFragment) :
    (∃ keep : KnownFragment → Bool, (∀ f, keep f = true ↔ Spreadable s (resolve s c) f) ∧
      generate s (resolve s c) leaf ancestor fragments =
        some ((fragments.filter keep).map (ofFragment s))) ∧
    (∀ a b, (s.Overlap a b ↔ s.Overlap b a) ∧ typesOverlap s a b = typesOverlap s b a) ∧
    ∀ position around cs, AtTypeCondition position around →
      generate s (resolve s c) position around fragments = some cs →
        ∀ x ∈ cs, ∀ f : KnownFragment, f.typeCondition = x.text →
          Spreadable s (resolve s c) f := by
  obtain ⟨hvalid, hdescribes⟩ := Schema.ofDocuments_eq_ok_iff.mp h
  have hs : s.WellFormed := hdescribes.wellFormed hvalid
  have hctx := Context.wellTyped_resolve hs c
  refine ⟨⟨fragmentApplies s (resolve s c), fragmentApplies_iff hs hctx, ?_⟩, fun a b => ?_, ?_⟩
  · rw [generate_fragmentSpreads hkind hstep]
    rfl
  · exact ⟨⟨Schema.Overlap.symm, Schema.Overlap.symm⟩, typesOverlap_comm s a b⟩
  · intro position around cs hat hcs x hx f hon
    rw [generate_typeConditions hat, Option.some.injEq] at hcs
    subst hcs
    exact spreadable_of_mem_typeConditions hs hctx hx hon

/-- The place of a fragment in `query { pets { ... } }`. -/
def petSpread : Chain :=
  [{ kind := .query }, { kind := .selectionSet }, { kind := .field, name := some "pets" },
    { kind := .selectionSet }, { kind := .fragmentSpread, step := 1 }]

/-- Fragments on an object, a union, an object that is no pet and a type that is not there. -/
def petFragments : List KnownFragment :=
  [{ name := "dog", typeCondition := "Dog" }, { name := "any", typeCondition := "Any" },
    { name := "root", typeCondition := "Query" }, { name := "cat", typeCondition := "Cat" },
    { name := "dog", typeCondition := "Dog" }]

theorem fragmentSpreads_petSpread :
    ∃ docs s, Sdl.readAll? petTexts = some docs ∧ Schema.ofDocuments docs = .ok s ∧
      (generate s (resolve s petSpread) { kind := .fragmentSpread, step := 1 } (some .selectionSet)
        petFragments).map (List.map Candidate.text) = some ["dog", "any", "dog"] ∧
      ∃ keep : KnownFragment → Bool,
        (∀ f, keep f = true ↔ Spreadable s (resolve s petSpread) f) ∧
        generate s (resolve s petSpread) { kind := .fragmentSpread, step := 1 } (some .selectionSet)
          petFragments = some ((petFragments.filter keep).map (ofFragment s)) := by
  obtain ⟨docs, s, hdocs, hs, htexts⟩ :=
    @Schema.exists_ofDocuments_of_test petTexts
      (fun s => (generate s (resolve s petSpread) { kind := .fragmentSpread, step := 1 }
        (some .selectionSet) petFragments).map (List.map Candidate.text) =
          some ["dog", "any", "dog"]) _ (by decide +kernel)
  exact ⟨docs, s, hdocs, hs, htexts,
    (fragmentSpreads_of_ofDocuments hs petSpread rfl rfl (some .selectionSet) petFragments).1⟩

/-- In every schema that is built and at every place of a type condition, the types that are offered
are valid iff the parent type is composite or unknown. A composite parent has all its possible types
offered; a leaf or an input object is offered itself, where nothing would be valid. -/
theorem typeConditions_valid_iff_of_ofDocuments {docs : List (Option String × Sdl.Document)}
    {s : Schema} (h : Schema.ofDocuments docs = .ok s) {c : Chain} {leaf : State}
    (hleaf : c.leaf = some leaf) (hat : AtTypeCondition leaf c.leafAncestorKind)
    (fragments : List KnownFragment) :
    ∃ cs, atLeaf s c fragments = some cs ∧
      ((∀ x ∈ cs, ValidTypeCondition s (resolve s c).parent x.text) ↔
        ∀ parent, (resolve s c).parent = some parent → parent.isComposite = true) ∧
      ∀ parent, (resolve s c).parent = some parent →
        (parent.isComposite = true → ∀ o, s.IsPossible parent o → ofType o ∈ cs) ∧
        (parent.isComposite = false → cs = [ofType parent]) := by
  obtain ⟨hvalid, hdescribes⟩ := Schema.ofDocuments_eq_ok_iff.mp h
  have hs : s.WellFormed := hdescribes.wellFormed hvalid
  have hctx := Context.wellTyped_resolve hs c
  refine ⟨typeConditions s (resolve s c), ?_, forall_valid_iff hs hctx, fun parent hparent =>
    ⟨fun hcomposite o ho => ?_, typeConditions_of_not_isComposite hparent⟩⟩
  · rw [atLeaf_of_leaf hleaf, generate_typeConditions hat]
  · rw [typeConditions_of_isComposite hparent hcomposite]
    exact List.mem_map_of_mem ((Schema.mem_possibleTypes_iff hs (hctx.parent parent hparent)).mpr ho)

/-- A type condition in `query { pets { ... on } }`. -/
def petCondition : Chain :=
  [{ kind := .query }, { kind := .selectionSet }, { kind := .field, name := some "pets" },
    { kind := .selectionSet }, { kind := .inlineFragment }, { kind := .typeCondition },
    { kind := .namedType }]

/-- A type condition in `query { pets { name { ... on } } }`, inside a scalar. -/
def nameCondition : Chain :=
  [{ kind := .query }, { kind := .selectionSet }, { kind := .field, name := some "pets" },
    { kind := .selectionSet }, { kind := .field, name := some "name" }, { kind := .selectionSet },
    { kind := .inlineFragment }, { kind := .typeCondition, step := 1 }]

theorem typeConditions_nameCondition :
    ∃ docs s, Sdl.readAll? petTexts = some docs ∧ Schema.ofDocuments docs = .ok s ∧
      (atLeaf s petCondition []).map (List.map Candidate.text) = some ["Dog"] ∧
      (∃ cs, atLeaf s petCondition [] = some cs ∧
        ∀ x ∈ cs, ValidTypeCondition s (resolve s petCondition).parent x.text) ∧
      (atLeaf s nameCondition []).map (List.map Candidate.text) = some ["ID"] ∧
      ∃ cs, atLeaf s nameCondition [] = some cs ∧
        ¬ ∀ x ∈ cs, ValidTypeCondition s (resolve s nameCondition).parent x.text := by
  obtain ⟨docs, s, hdocs, hs, hpet, hname, hcomposite, hleaf⟩ :=
    @Schema.exists_ofDocuments_of_test petTexts
      (fun s => (atLeaf s petCondition []).map (List.map Candidate.text) = some ["Dog"] ∧
        (atLeaf s nameCondition []).map (List.map Candidate.text) = some ["ID"] ∧
        (resolve s petCondition).parent.map NamedType.isComposite = some true ∧
        (resolve s nameCondition).parent.map NamedType.isComposite = some false)
      _ (by decide +kernel)
  obtain ⟨parent, hparent, hfalse⟩ := Option.map_eq_some_iff.mp hleaf
  obtain ⟨cs, hcs, hvalid, -⟩ :=
    typeConditions_valid_iff_of_ofDocuments hs (c := petCondition) rfl (Or.inr ⟨rfl, rfl⟩) []
  obtain ⟨ds, hds, hinvalid, -⟩ :=
    typeConditions_valid_iff_of_ofDocuments hs (c := nameCondition) rfl (Or.inl ⟨rfl, rfl⟩) []
  refine ⟨docs, s, hdocs, hs, hpet, ⟨cs, hcs, hvalid.mpr fun t ht => ?_⟩, hname, ds, hds, fun hall => ?_⟩
  · rw [ht] at hcomposite
    exact Option.some.inj hcomposite
  · rw [hinvalid.mp hall parent hparent] at hfalse
    cases hfalse

end Candidate

end SchemaHint
