import SchemaHint.Proofs.Context.Typing

/-!
# Possible types

The object types that a value of a type can have, and the types that have one of them in common.

* `NamedType.Admits` : a type is an object itself, is a union that lists it, or is an interface that
  it declares;
* `Schema.IsPossible` : an object type of the schema that a type admits;
* `Schema.mem_possibleTypes_iff` : the possible types of a type of the schema are listed, and no
  others;
* `Schema.ShareObject`, `Schema.Overlap` : two types have a possible type in common, or are the same;
* `Schema.NamesResolve` : one type for each name, in order; `Schema.namesResolve_possibleTypes`,
  `Schema.namesResolve_interfaceTypes` : the look-ups of members and interfaces drop none;
* `Schema.possibleTypes_of_ofDocuments` : what both lists are in every schema that is built.
-/

namespace SchemaHint

set_option autoImplicit false

/-- A value of the first type can be an object of the second. -/
inductive NamedType.Admits : NamedType → NamedType → Prop
  | self (o : NamedType) : Admits o o
  | member {t o : NamedType} {members : Keyed Location} (hmembers : t.members? = some members)
      (hmem : o.name ∈ members.keys) : Admits t o
  | implementer {t o : NamedType} {names : List String} (hkind : t.kind = .interface)
      (hnames : o.interfaceNames? = some names) (hmem : t.name ∈ names) : Admits t o

namespace Schema

/-- An object type of the schema that a value of the type can have. -/
structure IsPossible (s : Schema) (t o : NamedType) : Prop where
  known : s.type? o.name = some o
  object : o.kind = .object
  admits : t.Admits o

/-- Some object type is possible for both types. -/
def ShareObject (s : Schema) (a b : NamedType) : Prop := ∃ o, s.IsPossible a o ∧ s.IsPossible b o

/-- A value can be of both types: they are the same, or some object type is possible for both. -/
def Overlap (s : Schema) (a b : NamedType) : Prop := a = b ∨ s.ShareObject a b

theorem ShareObject.symm {s : Schema} {a b : NamedType} (h : s.ShareObject a b) :
    s.ShareObject b a := by
  obtain ⟨o, ha, hb⟩ := h
  exact ⟨o, hb, ha⟩

theorem Overlap.symm {s : Schema} {a b : NamedType} (h : s.Overlap a b) : s.Overlap b a := by
  rcases h with rfl | h
  · exact Or.inl rfl
  · exact Or.inr h.symm

theorem implementsAsObject_iff {name : String} {o : NamedType} :
    implementsAsObject name o = true ↔
      o.kind = .object ∧ ∃ names, o.interfaceNames? = some names ∧ name ∈ names := by
  cases o with
  | builtin b => cases b <;> simp [implementsAsObject, NamedType.interfaceNames?]
  | defined header body =>
      cases body <;>
        simp [implementsAsObject, NamedType.interfaceNames?, NamedType.kind, Body.kind]

section Possible
variable {s : Schema} {t o : NamedType}

/-- Types that are not composite have no values that are objects. -/
theorem IsPossible.isComposite (h : s.IsPossible t o) : t.isComposite = true := by
  obtain ⟨-, hobject, hadmits⟩ := h
  cases hadmits with
  | self => rw [NamedType.isComposite, hobject]; rfl
  | member hmembers hmem =>
      cases t with
      | builtin b => cases hmembers
      | defined header body =>
          cases body <;> cases hmembers
          rfl
  | implementer hkind hnames hmem => rw [NamedType.isComposite, hkind]; rfl

theorem mem_possibleTypes_interface_iff (hs : s.WellFormed) {header : Header} {fields : Keyed Field}
    {interfaces : List String} :
    o ∈ s.possibleTypes (.defined header (.interface fields interfaces)) ↔
      s.IsPossible (.defined header (.interface fields interfaces)) o := by
  rw [possibleTypes, List.mem_filter, implementsAsObject_iff]
  constructor
  · rintro ⟨hmem, hobject, names, hnames, hname⟩
    exact ⟨hs.type?_eq_some_iff.mpr ⟨hmem, rfl⟩, hobject, .implementer rfl hnames hname⟩
  · rintro ⟨hknown, hobject, hadmits⟩
    have hmem : o ∈ s.types.values := (hs.type?_eq_some_iff.mp hknown).1
    cases hadmits with
    | self => cases hobject
    | member hmembers _ => cases hmembers
    | implementer _ hnames hname => exact ⟨hmem, hobject, _, hnames, hname⟩

theorem mem_possibleTypes_object_iff {header : Header} {fields : Keyed Field}
    {interfaces : List String}
    (ht : s.type? header.name = some (.defined header (.object fields interfaces))) :
    o ∈ s.possibleTypes (.defined header (.object fields interfaces)) ↔
      s.IsPossible (.defined header (.object fields interfaces)) o := by
  rw [possibleTypes, List.mem_singleton]
  constructor
  · rintro rfl
    exact ⟨ht, rfl, .self _⟩
  · rintro ⟨-, -, hadmits⟩
    cases hadmits with
    | self => rfl
    | member hmembers _ => cases hmembers
    | implementer hkind _ _ => cases hkind

/-- Every member of a union is an object type of the schema, so that none of them is lost. -/
theorem mem_possibleTypes_union_iff (hs : s.WellFormed) {header : Header}
    {members : Keyed Location}
    (ht : s.type? header.name = some (.defined header (.union members))) :
    o ∈ s.possibleTypes (.defined header (.union members)) ↔
      s.IsPossible (.defined header (.union members)) o := by
  rw [possibleTypes, memberTypes, List.mem_filterMap]
  constructor
  · rintro ⟨name, hname, ho⟩
    obtain ⟨o', ho', hobject⟩ := (hs.typeFits ht).members members rfl name hname
    have heq : o' = o := Option.some.inj (ho'.symm.trans ho)
    have hown : o.name = name := (hs.type?_eq_some_iff.mp ho).2
    exact ⟨hs.type?_name ho, heq ▸ hobject, .member rfl (hown.symm ▸ hname)⟩
  · rintro ⟨hknown, hobject, hadmits⟩
    cases hadmits with
    | self => cases hobject
    | member hmembers hmem =>
        cases hmembers
        exact ⟨o.name, hmem, hknown⟩
    | implementer hkind _ _ => cases hkind

theorem possibleTypes_of_not_isComposite (h : t.isComposite = false) : s.possibleTypes t = [] := by
  cases t with
  | builtin b => rfl
  | defined header body => cases body <;> first | rfl | cases h

/-- The possible types of a type of the schema are listed, and no others. -/
theorem mem_possibleTypes_iff (hs : s.WellFormed) (ht : s.type? t.name = some t) :
    o ∈ s.possibleTypes t ↔ s.IsPossible t o := by
  cases hcomposite : t.isComposite with
  | false =>
      rw [possibleTypes_of_not_isComposite hcomposite]
      refine ⟨fun h => absurd h List.not_mem_nil, fun h => ?_⟩
      rw [h.isComposite] at hcomposite
      cases hcomposite
  | true =>
      cases t with
      | builtin b => cases b <;> cases hcomposite
      | defined header body =>
          cases body with
          | interface fields interfaces => exact mem_possibleTypes_interface_iff hs
          | object fields interfaces => exact mem_possibleTypes_object_iff ht
          | union members => exact mem_possibleTypes_union_iff hs ht
          | scalar | enum | inputObject => cases hcomposite

/-- An object type shares itself with the types that it is possible for. -/
theorem IsPossible.shareObject (h : s.IsPossible t o) : s.ShareObject o t :=
  ⟨o, ⟨h.known, h.object, .self o⟩, h⟩

/-! ## Look-ups that drop nothing -/

/-- The types that the names stand for, one for each name and in their order, all of the kind. -/
def NamesResolve (s : Schema) (kind : TypeKind) (names : List String) (types : List NamedType) :
    Prop :=
  List.Forall₂ (fun name t => s.type? name = some t ∧ t.kind = kind) names types

/-- Where every name is that of a type of the kind, the look-up of the names drops none. -/
theorem namesResolve_filterMap {kind : TypeKind} {names : List String}
    (h : ∀ name ∈ names, s.HasKind name kind) :
    s.NamesResolve kind names (names.filterMap s.type?) := by
  induction names with
  | nil => exact .nil
  | cons name names ih =>
      rw [List.forall_mem_cons] at h
      obtain ⟨t, ht, hkind⟩ := h.1
      rw [List.filterMap_cons_some ht]
      exact .cons ⟨ht, hkind⟩ (ih h.2)

theorem NamesResolve.kind_of_mem {kind : TypeKind} {names : List String} {types : List NamedType}
    (h : s.NamesResolve kind names types) : ∀ t ∈ types, t.kind = kind := by
  induction h with
  | nil => exact fun t ht => absurd ht List.not_mem_nil
  | cons hhead _ ih =>
      rw [List.forall_mem_cons]
      exact ⟨hhead.2, ih⟩

theorem NamesResolve.map_name (hs : s.WellFormed) {kind : TypeKind} {names : List String}
    {types : List NamedType} (h : s.NamesResolve kind names types) :
    types.map NamedType.name = names := by
  induction h with
  | nil => rfl
  | cons hhead _ ih =>
      rw [List.map_cons, ih, (hs.type?_eq_some_iff.mp hhead.1).2]

theorem namesResolve_interfaceTypes (hs : s.WellFormed) (ht : s.type? t.name = some t)
    {names : List String} (hnames : t.interfaceNames? = some names) :
    s.NamesResolve .interface names (s.interfaceTypes names) := by
  have hresolve := namesResolve_filterMap ((hs.typeFits ht).interfaces names hnames)
  have hfilter : s.interfaceTypes names = names.filterMap s.type? := by
    rw [interfaceTypes, List.filter_eq_self]
    intro i hi
    exact decide_eq_true (hresolve.kind_of_mem i hi)
  rw [hfilter]
  exact hresolve

theorem namesResolve_possibleTypes (hs : s.WellFormed) (ht : s.type? t.name = some t)
    {members : Keyed Location} (hmembers : t.members? = some members) :
    s.NamesResolve .object members.keys (s.possibleTypes t) := by
  have hresolve := namesResolve_filterMap ((hs.typeFits ht).members members hmembers)
  cases t with
  | builtin b => cases hmembers
  | defined header body =>
      cases body <;> cases hmembers
      exact hresolve

theorem possibleTypes_sublist (h : t.kind = .interface) :
    (s.possibleTypes t).Sublist s.types.values := by
  cases t with
  | builtin b => cases b <;> cases h
  | defined header body =>
      cases body <;> cases h
      exact List.filter_sublist

theorem nodup_map_name_types (hs : s.WellFormed) : (s.types.values.map NamedType.name).Nodup := by
  have hkeys : s.types.values.map NamedType.name = s.types.keys := by
    rw [Keyed.values, Keyed.keys, List.map_map]
    exact List.map_congr_left fun e he => (Keyed.indexedBy_iff.mp hs.types_indexed e he).symm
  rw [hkeys]
  exact s.types.nodup_keys

/-- No two possible types have the same name. -/
theorem nodup_map_name_possibleTypes (hs : s.WellFormed) (ht : s.type? t.name = some t) :
    ((s.possibleTypes t).map NamedType.name).Nodup := by
  cases hmembers : t.members? with
  | some members =>
      rw [(namesResolve_possibleTypes hs ht hmembers).map_name hs]
      exact members.nodup_keys
  | none =>
      by_cases hinterface : t.kind = .interface
      · exact ((possibleTypes_sublist hinterface).map _).nodup (nodup_map_name_types hs)
      · cases t with
        | builtin b => exact List.nodup_nil
        | defined header body =>
            cases body with
            | object fields interfaces => exact List.nodup_singleton _
            | scalar | enum | inputObject => exact List.nodup_nil
            | interface => exact absurd rfl hinterface
            | union => cases hmembers

end Possible

/-! ## Schemas that are built -/

/-- What the possible types and the interfaces of a type are in every schema that is built: the
object types that the type admits, each once and in the order of the members of a union or of the
types of the schema, and one interface for each name that the type declares. -/
theorem possibleTypes_of_ofDocuments {docs : List (Option String × Sdl.Document)} {s : Schema}
    (h : ofDocuments docs = .ok s) {t : NamedType} (ht : t ∈ s.types.values) :
    ((s.possibleTypes t).map NamedType.name).Nodup ∧
      (∀ o, o ∈ s.possibleTypes t ↔ s.IsPossible t o) ∧
      (∀ members, t.members? = some members →
        s.NamesResolve .object members.keys (s.possibleTypes t)) ∧
      (t.kind = .interface → (s.possibleTypes t).Sublist s.types.values) ∧
      (t.isComposite = false → s.possibleTypes t = []) ∧
      ∀ names, t.interfaceNames? = some names →
        s.NamesResolve .interface names (s.interfaceTypes names) := by
  obtain ⟨hvalid, hdescribes⟩ := ofDocuments_eq_ok_iff.mp h
  have hs : s.WellFormed := hdescribes.wellFormed hvalid
  have hknown : s.type? t.name = some t := hs.type?_eq_some_iff.mpr ⟨ht, rfl⟩
  exact ⟨nodup_map_name_possibleTypes hs hknown, fun o => mem_possibleTypes_iff hs hknown,
    fun members => namesResolve_possibleTypes hs hknown, possibleTypes_sublist,
    possibleTypes_of_not_isComposite, fun names => namesResolve_interfaceTypes hs hknown⟩

/-- Texts with a union and an interface whose members and objects stand in different orders, some
of them in extensions. -/
def herdTexts : List (Option String × String) :=
  [(none, "extend union Herd = Cow extend type Goat implements Pet type Query { herd: Herd }"),
    (none, "interface Pet { name: ID } interface Beast implements Pet { name: ID }"),
    (none, "type Cow implements Beast & Pet { name: ID } type Goat { name: ID }"),
    (none, "union Herd = Goat enum Kind { WILD }")]

theorem possibleTypes_herdTexts :
    ∃ docs s, Sdl.readAll? herdTexts = some docs ∧ ofDocuments docs = .ok s ∧
      (∃ herd members, herd ∈ s.types.values ∧ herd.members? = some members ∧
        s.NamesResolve .object members.keys (s.possibleTypes herd) ∧
        members.keys = ["Goat", "Cow"]) ∧
      (∃ pet, pet ∈ s.types.values ∧ (s.possibleTypes pet).Sublist s.types.values ∧
        (s.possibleTypes pet).map NamedType.name = ["Cow", "Goat"]) ∧
      ∃ cow names, cow ∈ s.types.values ∧ cow.interfaceNames? = some names ∧
        s.NamesResolve .interface names (s.interfaceTypes names) ∧ names = ["Beast", "Pet"] := by
  obtain ⟨docs, s, hdocs, hs, hherd, hpet, hcow⟩ :=
    @exists_ofDocuments_of_test herdTexts
      (fun s => (s.types.values.any fun t => (t.members?.map Keyed.keys) = some ["Goat", "Cow"]) ∧
        (s.types.values.any fun t => t.kind = .interface ∧
          (s.possibleTypes t).map NamedType.name = ["Cow", "Goat"]) ∧
        s.types.values.any fun t => t.interfaceNames? = some ["Beast", "Pet"])
      _ (by decide +kernel)
  rw [List.any_eq_true] at hherd hpet hcow
  obtain ⟨herd, hmem, hkeys⟩ := hherd
  obtain ⟨members, hmembers, hkeys⟩ := Option.map_eq_some_iff.mp (of_decide_eq_true hkeys)
  obtain ⟨pet, hpet, htest⟩ := hpet
  obtain ⟨hkind, hnames⟩ := of_decide_eq_true htest
  obtain ⟨cow, hcow, hinterfaces⟩ := hcow
  have hinterfaces := of_decide_eq_true hinterfaces
  obtain ⟨-, -, hunion, -⟩ := possibleTypes_of_ofDocuments hs hmem
  obtain ⟨-, -, -, hinterface, -⟩ := possibleTypes_of_ofDocuments hs hpet
  obtain ⟨-, -, -, -, -, hdeclared⟩ := possibleTypes_of_ofDocuments hs hcow
  exact ⟨docs, s, hdocs, hs, ⟨herd, members, hmem, hmembers, hunion members hmembers, hkeys⟩,
    ⟨pet, hpet, hinterface hkind, hnames⟩, cow, _, hcow, hinterfaces, hdeclared _ hinterfaces, rfl⟩

end Schema

end SchemaHint
