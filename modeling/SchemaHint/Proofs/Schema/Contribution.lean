import SchemaHint.Proofs.Keyed
import SchemaHint.Schema.Draft

/-!
# What definitions and extensions contribute to a type

A type is made by one definition and any number of extensions. Each of them is a `Contribution`: a
body of members together with the place it comes from.

* `Sdl.Body.fields`, `Sdl.Body.interfaces`, ... : the members a body lists, of every kind;
* `MembersFit` : the members listed by several bodies can stand in one type;
* `Body.ofContributions` : the body that contributions make up, members in order;
* `Body.extend_eq_ok_iff` : extending such a body succeeds iff the kinds agree and the members
  fit, and gives the body of one contribution more.
-/

namespace SchemaHint

set_option autoImplicit false

/-! ## Members that a body lists -/

namespace Sdl.Body

/-- The kind of type that a body belongs to. -/
def kind : Body → TypeKind
  | .scalar => .scalar
  | .object .. => .object
  | .interface .. => .interface
  | .union _ => .union
  | .enum _ => .enum
  | .inputObject _ => .inputObject

def fields : Body → List FieldDef
  | .object _ fields | .interface _ fields => fields
  | _ => []

def interfaces : Body → List String
  | .object names _ | .interface names _ => names
  | _ => []

def members : Body → List String
  | .union names => names
  | _ => []

def values : Body → List EnumValueDef
  | .enum values => values
  | _ => []

def inputFields : Body → List InputDef
  | .inputObject fields => fields
  | _ => []

theorem fields_eq_nil {b : Body} (ho : b.kind ≠ .object) (hi : b.kind ≠ .interface) :
    b.fields = [] := by
  cases b <;> first | rfl | exact absurd rfl ho | exact absurd rfl hi

theorem interfaces_eq_nil {b : Body} (ho : b.kind ≠ .object) (hi : b.kind ≠ .interface) :
    b.interfaces = [] := by
  cases b <;> first | rfl | exact absurd rfl ho | exact absurd rfl hi

theorem members_eq_nil {b : Body} (h : b.kind ≠ .union) : b.members = [] := by
  cases b <;> first | rfl | exact absurd rfl h

theorem inputFields_eq_nil {b : Body} (h : b.kind ≠ .inputObject) : b.inputFields = [] := by
  cases b <;> first | rfl | exact absurd rfl h

end Sdl.Body

/-- The members that bodies list, one body after the other, can stand in one type: none is repeated,
no field has a reserved name and the type does not implement itself. -/
structure MembersFit (typeName : String) (bodies : List Sdl.Body) : Prop where
  fields_nodup : ((bodies.flatMap Sdl.Body.fields).map Sdl.FieldDef.name).Nodup
  fields_open : ∀ f ∈ bodies.flatMap Sdl.Body.fields, isReserved f.name = false
  interfaces_nodup : (bodies.flatMap Sdl.Body.interfaces).Nodup
  not_self : typeName ∉ bodies.flatMap Sdl.Body.interfaces
  members_nodup : (bodies.flatMap Sdl.Body.members).Nodup
  values_nodup : ((bodies.flatMap Sdl.Body.values).map Sdl.EnumValueDef.name).Nodup
  inputFields_nodup : ((bodies.flatMap Sdl.Body.inputFields).map Sdl.InputDef.name).Nodup

theorem MembersFit.nil (typeName : String) : MembersFit typeName [] := by
  constructor <;> simp

theorem MembersFit.of_append {typeName : String} {bs bs' : List Sdl.Body}
    (h : MembersFit typeName (bs ++ bs')) : MembersFit typeName bs := by
  obtain ⟨h₁, h₂, h₃, h₄, h₅, h₆, h₇⟩ := h
  simp only [List.flatMap_append, List.map_append] at h₁ h₂ h₃ h₄ h₅ h₆ h₇
  exact ⟨h₁.of_append_left, fun f hf => h₂ f (List.mem_append_left _ hf), h₃.of_append_left,
    fun h => h₄ (List.mem_append_left _ h), h₅.of_append_left, h₆.of_append_left,
    h₇.of_append_left⟩

/-! ## Contributions -/

/-- The members that a definition or an extension gives to a type, and where it stands. -/
structure Contribution where
  path : Option String
  position : Position
  body : Sdl.Body

namespace Contribution

def ofTypeDef (d : Option String × Sdl.TypeDef) : Contribution := ⟨d.1, d.2.position, d.2.body⟩

def ofExtension (e : Option String × Sdl.TypeExtension) : Contribution :=
  ⟨e.1, e.2.position, e.2.body⟩

def location (c : Contribution) : Location := Location.ofPosition c.path c.position

/-- The entries of one sort that a contribution lists: `view` takes the elements from its body, which
stand under their names. -/
def entries {δ α : Type} (view : Sdl.Body → List δ) (name : δ → String)
    (make : Contribution → δ → α) (c : Contribution) : List (String × α) :=
  (view c.body).map fun d => (name d, make c d)

def fields : Contribution → List (String × Field) :=
  entries Sdl.Body.fields Sdl.FieldDef.name fun c => Field.ofDef c.path

def members : Contribution → List (String × Location) :=
  entries Sdl.Body.members id fun c _ => c.location

def values : Contribution → List (String × EnumValue) :=
  entries Sdl.Body.values Sdl.EnumValueDef.name fun c => EnumValue.ofDef c.path

def inputFields : Contribution → List (String × InputValue) :=
  entries Sdl.Body.inputFields Sdl.InputDef.name fun c => InputValue.ofDef c.path

theorem map_fst_entries {δ α : Type} (view : Sdl.Body → List δ) (name : δ → String)
    (make : Contribution → δ → α) (cs : List Contribution) :
    (cs.flatMap (entries view name make)).map Prod.fst =
      ((cs.map body).flatMap view).map name := by
  rw [List.map_flatMap, List.flatMap_map, List.map_flatMap]
  simp [entries, Function.comp_def]

/-- Entries stand under the names of their values. -/
theorem indexedBy_ofList {δ α : Type} {view : Sdl.Body → List δ} {name : δ → String}
    {make : Contribution → δ → α} {nameOf : α → String} (h : ∀ c x, nameOf (make c x) = name x)
    (cs : List Contribution) :
    (Keyed.ofList (cs.flatMap (entries view name make))).IndexedBy nameOf := by
  have hentries : cs.flatMap (entries view name make) =
      (cs.flatMap fun c => (view c.body).map (make c)).map fun v => (nameOf v, v) := by
    rw [List.map_flatMap]
    simp only [List.map_map, Function.comp_def, h]
    rfl
  rw [hentries]
  exact Keyed.indexedBy_ofList nameOf _

/-- Entries that one contribution more puts after those of others. -/
theorem append_entries_iff {δ α : Type} {view : Sdl.Body → List δ} {name : δ → String}
    {make : Contribution → δ → α} {cs : List Contribution} {c : Contribution} {m : Keyed α}
    (hnd : (((cs.map body).flatMap view).map name).Nodup) :
    (((Keyed.ofList (cs.flatMap (entries view name make))).keys ++
          (view c.body).map name).Nodup ∧
        m.entries = (Keyed.ofList (cs.flatMap (entries view name make))).entries ++
          (view c.body).map fun d => (name d, make c d)) ↔
      (((cs.map body).flatMap view ++ view c.body).map name).Nodup ∧
        m = Keyed.ofList ((cs ++ [c]).flatMap (entries view name make)) := by
  have hnew : (view c.body).map name = (entries view name make c).map Prod.fst := by
    simp [entries, Function.comp_def]
  rw [← map_fst_entries view name make] at hnd
  rw [← entries, hnew, Keyed.append_entries_iff hnd, List.map_append, List.map_append, hnew,
    map_fst_entries, List.flatMap_append, List.flatMap_singleton]

end Contribution

/-- The body that contributions make up, of the same kind as the given one. -/
def Body.ofContributions (cs : List Contribution) : Sdl.Body → Body
  | .scalar => .scalar
  | .object .. =>
    .object (.ofList (cs.flatMap Contribution.fields))
      ((cs.map Contribution.body).flatMap Sdl.Body.interfaces)
  | .interface .. =>
    .interface (.ofList (cs.flatMap Contribution.fields))
      ((cs.map Contribution.body).flatMap Sdl.Body.interfaces)
  | .union _ => .union (.ofList (cs.flatMap Contribution.members))
  | .enum _ => .enum (.ofList (cs.flatMap Contribution.values))
  | .inputObject _ => .inputObject (.ofList (cs.flatMap Contribution.inputFields))

theorem Body.start_eq (b : Sdl.Body) : Body.start b = Body.ofContributions [] b := by
  cases b <;> rfl

theorem Body.kind_ofContributions (cs : List Contribution) (b : Sdl.Body) :
    (Body.ofContributions cs b).kind = b.kind := by
  cases b <;> rfl

/-! ## Adding members -/

theorem addFields_eq_ok_iff {path : Option String} {typeName : String} {m m' : Keyed Field}
    {defs : List Sdl.FieldDef} :
    addFields path typeName m defs = .ok m' ↔ (∀ d ∈ defs, isReserved d.name = false) ∧
      (m.keys ++ defs.map Sdl.FieldDef.name).Nodup ∧
      m'.entries = m.entries ++ defs.map fun d => (d.name, Field.ofDef path d) := by
  apply Keyed.foldlM_add_eq_ok_iff
  intro m d m'
  have hname : (Field.ofDef path d).name = d.name := rfl
  simp only [hname]
  cases isReserved d.name with
  | true => simp
  | false => simp [Keyed.add_eq_ok_iff]

theorem addInputFields_eq_ok_iff {path : Option String} {typeName : String}
    {m m' : Keyed InputValue} {defs : List Sdl.InputDef} :
    addInputFields path typeName m defs = .ok m' ↔ (m.keys ++ defs.map Sdl.InputDef.name).Nodup ∧
      m'.entries = m.entries ++ defs.map fun d => (d.name, InputValue.ofDef path d) := by
  apply Keyed.foldlM_addNew_eq_ok_iff
  intro m d m'
  exact Keyed.add_eq_ok_iff

theorem addEnumValues_eq_ok_iff {path : Option String} {typeName : String}
    {m m' : Keyed EnumValue} {defs : List Sdl.EnumValueDef} :
    addEnumValues path typeName m defs = .ok m' ↔
      (m.keys ++ defs.map Sdl.EnumValueDef.name).Nodup ∧
      m'.entries = m.entries ++ defs.map fun d => (d.name, EnumValue.ofDef path d) := by
  apply Keyed.foldlM_addNew_eq_ok_iff
  intro m d m'
  exact Keyed.add_eq_ok_iff

theorem addMembers_eq_ok_iff {typeName : String} {location : Location} {m m' : Keyed Location}
    {names : List String} :
    addMembers typeName location m names = .ok m' ↔ (m.keys ++ names.map id).Nodup ∧
      m'.entries = m.entries ++ names.map fun name => (id name, location) := by
  apply Keyed.foldlM_addNew_eq_ok_iff
  intro m name m'
  exact Keyed.add_eq_ok_iff

theorem addInterfaces_cons (typeName : String) (location : Location) (is : List String)
    (name : String) (names : List String) :
    addInterfaces typeName location is (name :: names) =
      if name = typeName then .error (.implementsItself location typeName)
      else if is.contains name then .error (.duplicateInterface location name typeName)
      else addInterfaces typeName location (is ++ [name]) names := by
  rw [addInterfaces, List.foldlM_cons]
  split
  · rfl
  · split <;> rfl

theorem addInterfaces_eq_ok_iff {typeName : String} {location : Location} {is is' : List String}
    {names : List String} (his : is.Nodup) :
    addInterfaces typeName location is names = .ok is' ↔
      typeName ∉ names ∧ (is ++ names).Nodup ∧ is' = is ++ names := by
  induction names generalizing is with
  | nil =>
      rw [addInterfaces, List.foldlM_nil, pure_eq_ok_iff]
      simp [his, eq_comm]
  | cons name names ih =>
      rw [addInterfaces_cons]
      by_cases hself : name = typeName
      · simp [hself]
      by_cases hmem : name ∈ is
      · have hnd : ¬ (is ++ name :: names).Nodup := fun h =>
          (List.nodup_append.mp h).2.2 name hmem name List.mem_cons_self rfl
        simp [hself, hmem, hnd]
      · have his₁ : (is ++ [name]).Nodup := by
          rw [List.nodup_append]
          refine ⟨his, List.nodup_singleton name, ?_⟩
          intro a ha b hb hab
          rw [List.mem_singleton] at hb
          exact hmem (hb ▸ hab ▸ ha)
        rw [if_neg hself, if_neg (by simpa using hmem), ih his₁, List.append_assoc,
          List.singleton_append, List.mem_cons, not_or, and_assoc]
        exact (and_iff_right (Ne.symm hself)).symm

/-! ## Extending a body -/

section Extend
variable {typeName : String} {cs : List Contribution} {c : Contribution}

theorem membersFit_append_singleton_iff {bs : List Sdl.Body} {b : Sdl.Body}
    (hfit : MembersFit typeName bs) :
    MembersFit typeName (bs ++ [b]) ↔
      ((bs.flatMap Sdl.Body.fields ++ b.fields).map Sdl.FieldDef.name).Nodup ∧
      (∀ f ∈ b.fields, isReserved f.name = false) ∧
      (bs.flatMap Sdl.Body.interfaces ++ b.interfaces).Nodup ∧ typeName ∉ b.interfaces ∧
      (bs.flatMap Sdl.Body.members ++ b.members).Nodup ∧
      ((bs.flatMap Sdl.Body.values ++ b.values).map Sdl.EnumValueDef.name).Nodup ∧
      ((bs.flatMap Sdl.Body.inputFields ++ b.inputFields).map Sdl.InputDef.name).Nodup := by
  have hflat : ∀ {β : Type} (view : Sdl.Body → List β),
      (bs ++ [b]).flatMap view = bs.flatMap view ++ view b := by
    intro β view
    rw [List.flatMap_append, List.flatMap_singleton]
  constructor
  · rintro ⟨h₁, h₂, h₃, h₄, h₅, h₆, h₇⟩
    rw [hflat] at h₁ h₂ h₃ h₄ h₅ h₆ h₇
    exact ⟨h₁, fun f hf => h₂ f (List.mem_append_right _ hf), h₃,
      fun h => h₄ (List.mem_append_right _ h), h₅, h₆, h₇⟩
  · rintro ⟨h₁, h₂, h₃, h₄, h₅, h₆, h₇⟩
    refine ⟨by rwa [hflat], ?_, by rwa [hflat], ?_, by rwa [hflat], by rwa [hflat], by rwa [hflat]⟩
    · intro f hf
      rw [hflat] at hf
      exact (List.mem_append.mp hf).elim (hfit.fields_open f) (h₂ f)
    · rw [hflat]
      intro h
      exact (List.mem_append.mp h).elim hfit.not_self h₄

theorem Body.extend_of_kind_ne {path : Option String} {location : Location} {b : Body}
    {d : Sdl.Body} (h : d.kind ≠ b.kind) :
    b.extend path typeName location d = .error (.extensionOfOtherKind b.kind location typeName) := by
  cases b <;> cases d <;> first | rfl | exact absurd rfl h

theorem addFields_grown_iff (hfit : MembersFit typeName (cs.map Contribution.body))
    (m : Keyed Field) :
    addFields c.path typeName (.ofList (cs.flatMap Contribution.fields)) c.body.fields = .ok m ↔
      (∀ f ∈ c.body.fields, isReserved f.name = false) ∧
      (((cs.map Contribution.body).flatMap Sdl.Body.fields ++ c.body.fields).map
        Sdl.FieldDef.name).Nodup ∧
      m = .ofList ((cs ++ [c]).flatMap Contribution.fields) :=
  addFields_eq_ok_iff.trans
    (and_congr_right fun _ => Contribution.append_entries_iff hfit.fields_nodup)

theorem addMembers_grown_iff (hfit : MembersFit typeName (cs.map Contribution.body))
    (m : Keyed Location) :
    addMembers typeName c.location (.ofList (cs.flatMap Contribution.members)) c.body.members =
        .ok m ↔
      ((cs.map Contribution.body).flatMap Sdl.Body.members ++ c.body.members).Nodup ∧
      m = .ofList ((cs ++ [c]).flatMap Contribution.members) := by
  have hnd : (((cs.map Contribution.body).flatMap Sdl.Body.members).map id).Nodup := by
    rw [List.map_id]
    exact hfit.members_nodup
  rw [← List.map_id (_ ++ c.body.members)]
  exact addMembers_eq_ok_iff.trans (Contribution.append_entries_iff hnd)

theorem addEnumValues_grown_iff (hfit : MembersFit typeName (cs.map Contribution.body))
    (m : Keyed EnumValue) :
    addEnumValues c.path typeName (.ofList (cs.flatMap Contribution.values)) c.body.values = .ok m ↔
      (((cs.map Contribution.body).flatMap Sdl.Body.values ++ c.body.values).map
        Sdl.EnumValueDef.name).Nodup ∧
      m = .ofList ((cs ++ [c]).flatMap Contribution.values) :=
  addEnumValues_eq_ok_iff.trans (Contribution.append_entries_iff hfit.values_nodup)

theorem addInputFields_grown_iff (hfit : MembersFit typeName (cs.map Contribution.body))
    (m : Keyed InputValue) :
    addInputFields c.path typeName (.ofList (cs.flatMap Contribution.inputFields))
        c.body.inputFields = .ok m ↔
      (((cs.map Contribution.body).flatMap Sdl.Body.inputFields ++ c.body.inputFields).map
        Sdl.InputDef.name).Nodup ∧
      m = .ofList ((cs ++ [c]).flatMap Contribution.inputFields) :=
  addInputFields_eq_ok_iff.trans (Contribution.append_entries_iff hfit.inputFields_nodup)

/-- The members of objects and of interfaces are added in the same way. -/
theorem addComposite_eq_ok_iff {make : Keyed Field → List String → Body} {b : Body}
    (hfit : MembersFit typeName (cs.map Contribution.body)) :
    (do
        let fields ← addFields c.path typeName (.ofList (cs.flatMap Contribution.fields))
          c.body.fields
        let interfaces ← addInterfaces typeName c.location
          ((cs.map Contribution.body).flatMap Sdl.Body.interfaces) c.body.interfaces
        return make fields interfaces) = .ok b ↔
      (((cs.map Contribution.body).flatMap Sdl.Body.fields ++ c.body.fields).map
          Sdl.FieldDef.name).Nodup ∧
      (∀ f ∈ c.body.fields, isReserved f.name = false) ∧
      ((cs.map Contribution.body).flatMap Sdl.Body.interfaces ++ c.body.interfaces).Nodup ∧
      typeName ∉ c.body.interfaces ∧
      b = make (.ofList ((cs ++ [c]).flatMap Contribution.fields))
        (((cs ++ [c]).map Contribution.body).flatMap Sdl.Body.interfaces) := by
  have hinterfaces : ((cs ++ [c]).map Contribution.body).flatMap Sdl.Body.interfaces =
      (cs.map Contribution.body).flatMap Sdl.Body.interfaces ++ c.body.interfaces := by simp
  rw [hinterfaces]
  simp only [bind_eq_ok_iff, addFields_grown_iff hfit,
    addInterfaces_eq_ok_iff hfit.interfaces_nodup, pure_eq_ok_iff]
  constructor
  · rintro ⟨m, ⟨hopen, hnd, rfl⟩, is, ⟨hself, his, rfl⟩, rfl⟩
    exact ⟨hnd, hopen, his, hself, rfl⟩
  · rintro ⟨hnd, hopen, his, hself, rfl⟩
    exact ⟨_, ⟨hopen, hnd, rfl⟩, _, ⟨hself, his, rfl⟩, rfl⟩

/-- The members of the other kinds are added by a single run. -/
theorem addOne_eq_ok_iff {α : Type} {run : Except BuildError (Keyed α)} {fits : Prop}
    {grown : Keyed α} {make : Keyed α → Body} {b : Body}
    (hrun : ∀ m, run = .ok m ↔ fits ∧ m = grown) :
    (do
        let m ← run
        return make m) = .ok b ↔ fits ∧ b = make grown := by
  simp only [bind_eq_ok_iff, hrun, pure_eq_ok_iff]
  constructor
  · rintro ⟨m, ⟨hfits, rfl⟩, rfl⟩
    exact ⟨hfits, rfl⟩
  · rintro ⟨hfits, rfl⟩
    exact ⟨grown, ⟨hfits, rfl⟩, rfl⟩

/-- Extending a body by a contribution: the kinds agree, and the members fit those that are there. -/
theorem Body.extend_eq_ok_iff {kind : Sdl.Body} {b : Body}
    (hfit : MembersFit typeName (cs.map Contribution.body)) :
    (Body.ofContributions cs kind).extend c.path typeName c.location c.body = .ok b ↔
      c.body.kind = kind.kind ∧ MembersFit typeName ((cs ++ [c]).map Contribution.body) ∧
        b = Body.ofContributions (cs ++ [c]) kind := by
  by_cases hkind : c.body.kind = kind.kind
  · rw [and_iff_right hkind, List.map_append, List.map_singleton,
      membersFit_append_singleton_iff hfit]
    have hobject := @addComposite_eq_ok_iff typeName cs c Body.object b hfit
    have hinterface := @addComposite_eq_ok_iff typeName cs c Body.interface b hfit
    have hunion := @addOne_eq_ok_iff _ _ _ _ Body.union b
      (@addMembers_grown_iff typeName cs c hfit)
    have henum := @addOne_eq_ok_iff _ _ _ _ Body.enum b
      (@addEnumValues_grown_iff typeName cs c hfit)
    have hinput := @addOne_eq_ok_iff _ _ _ _ Body.inputObject b
      (@addInputFields_grown_iff typeName cs c hfit)
    obtain ⟨h₁, -, h₃, -, h₅, h₆, h₇⟩ := hfit
    -- What a body of one kind does not list adds nothing, so only its own members are in question.
    cases kind <;> cases hbody : c.body <;> rw [hbody] at hkind <;> try cases hkind
    all_goals
      simp only [hbody, Sdl.Body.fields, Sdl.Body.interfaces, Sdl.Body.members, Sdl.Body.values,
        Sdl.Body.inputFields, List.append_nil, h₁, h₃, h₅, h₆, h₇, List.not_mem_nil,
        IsEmpty.forall_iff, implies_true, not_false_eq_true, true_and, and_true, and_assoc]
        at hobject hinterface hunion henum hinput ⊢
    · simp [Body.extend, Body.ofContributions, eq_comm]
    · exact hobject
    · exact hinterface
    · exact hunion
    · exact henum
    · exact hinput
  · rw [Body.extend_of_kind_ne (by rwa [Body.kind_ofContributions])]
    simp [hkind]

end Extend

end SchemaHint
