import SchemaHint.Proofs.Json.Reordering
import SchemaHint.Proofs.Json.Representation

/-!
# Values are read back from JSON

One lemma for each type says that a value is read from its JSON form, in whatever order the members
of objects come. Keyed lists come back in the order of the members, so what has keyed lists comes
back as a value that is the same when these are compared as maps.

* `Field.Same`, `NamedType.Same`, `Directive.Same` : values that are the same up to the order of
  keyed lists;
* `NamedType.exists_ofJson?_of_same`, `Directive.exists_ofJson?_of_same` : types and directives are
  read back up to that order;
* `AnnotatedType.ofJson?_of_same`, `CandidateType.ofJson?_of_same`, `Completion.ofJson?_of_same` and
  the others like them : values without keyed lists are read back as they were;
* `Json.Faithful`, `Json.forms_faithful` : what is written is as declared and is read back.
-/

namespace SchemaHint

set_option autoImplicit false

open Json (bool?_of_same natural?_of_same string?_of_same optional?_string?_of_same)

/-! ## Locations and annotations -/

theorem Location.ofJson?_of_same {l : Location} {j : Json} (h : l.toJson.Same j) :
    Location.ofJson? j = some l := by
  cases l with
  | builtin =>
    cases h
    rfl
  | text =>
    cases h
    rfl
  | file path p =>
    obtain ⟨content, rfl, hcontent⟩ := h.exists_content
    obtain ⟨values, hrecord, hvalues⟩ := hcontent.record? ["col", "file", "line"] rfl (by decide)
    obtain _ | ⟨hcolumn, _ | ⟨hpath, _ | ⟨hline, _ | _⟩⟩⟩ := hvalues
    simp [Location.ofJson?, Json.variant?, hrecord, natural?_of_same hcolumn, string?_of_same hpath,
      natural?_of_same hline]

namespace AnnotatedType

theorem ofJson?_list {content item nullable location : Json}
    (h : content.record? ["inner_type_annotation", "nullable", "ref_location"] =
      some [some item, some nullable, some location]) :
    ofJson? (.object [("List", content)]) = (ofJson? item).bind fun item =>
      nullable.bool?.bind fun nullable => (Location.ofJson? location).bind fun location =>
        some (.list item nullable location) := by
  rw [ofJson?]
  simp only [Json.variant?]
  -- the match keeps its equation for the termination of the reader, so `h` cannot rewrite in it
  split
  · next hrecord =>
    rw [h] at hrecord
    cases hrecord
    simp
  · next hrecord => exact absurd h (hrecord item (some nullable) (some location))

theorem ofJson?_of_same {a : AnnotatedType} {j : Json} (h : a.toJson.Same j) :
    ofJson? j = some a := by
  induction a generalizing j with
  | list item nullable location ih =>
    obtain ⟨content, rfl, hcontent⟩ := h.exists_content
    obtain ⟨values, hrecord, hvalues⟩ :=
      hcontent.record? ["inner_type_annotation", "nullable", "ref_location"] rfl (by decide)
    obtain _ | ⟨hitem, _ | ⟨hnullable, _ | ⟨hlocation, _ | _⟩⟩⟩ := hvalues
    rw [ofJson?_list hrecord, ih hitem, bool?_of_same hnullable,
      Location.ofJson?_of_same hlocation]
    rfl
  | named name nullable location =>
    obtain ⟨content, rfl, hcontent⟩ := h.exists_content
    obtain ⟨values, hrecord, hvalues⟩ :=
      hcontent.record? ["nullable", "ref_location", "type_name"] rfl (by decide)
    obtain _ | ⟨hnullable, _ | ⟨hlocation, _ | ⟨hname, _ | _⟩⟩⟩ := hvalues
    rw [ofJson?]
    simp [Json.variant?, hrecord, bool?_of_same hnullable, Location.ofJson?_of_same hlocation,
      string?_of_same hname]

end AnnotatedType

/-! ## Members -/

theorem InputValue.ofJson?_of_same {v : InputValue} {j : Json} (h : v.toJson.Same j) :
    InputValue.ofJson? j = some v := by
  obtain ⟨values, hrecord, hvalues⟩ := h.record?
    ["def_location", "default_value", "description", "name", "type_annotation"] rfl (by decide)
  obtain _ | ⟨hlocation, _ | ⟨hdefault, _ | ⟨hdescription, _ | ⟨hname, _ | ⟨htype, _ | _⟩⟩⟩⟩⟩ :=
    hvalues
  simp [InputValue.ofJson?, hrecord, Location.ofJson?_of_same hlocation,
    optional?_string?_of_same hdefault, optional?_string?_of_same hdescription,
    string?_of_same hname, AnnotatedType.ofJson?_of_same htype]

theorem EnumValue.ofJson?_of_same {v : EnumValue} {j : Json} (h : v.toJson.Same j) :
    EnumValue.ofJson? j = some v := by
  obtain ⟨values, hrecord, hvalues⟩ := h.record?
    ["def_location", "deprecation_reason", "description", "name"] rfl (by decide)
  obtain _ | ⟨hlocation, _ | ⟨hdeprecation, _ | ⟨hdescription, _ | ⟨hname, _ | _⟩⟩⟩⟩ := hvalues
  simp [EnumValue.ofJson?, hrecord, Location.ofJson?_of_same hlocation,
    optional?_string?_of_same hdeprecation, optional?_string?_of_same hdescription,
    string?_of_same hname]

/-- Fields that are the same when their parameters are compared as a map. -/
def Field.Same (f f' : Field) : Prop :=
  f.parameters.Same Eq f'.parameters ∧ f' = { f with parameters := f'.parameters }

theorem Field.exists_ofJson?_of_same {f : Field} {j : Json} (h : f.toJson.Same j) :
    ∃ f', Field.ofJson? j = some f' ∧ f.Same f' := by
  obtain ⟨values, hrecord, hvalues⟩ := h.record?
    ["def_location", "deprecation_reason", "description", "name", "parameters", "type_annotation"]
    rfl (by decide)
  obtain _ | ⟨hlocation, _ | ⟨hdeprecation, _ | ⟨hdescription, _ | ⟨hname, _ | ⟨hparameters,
    _ | ⟨htype, _ | _⟩⟩⟩⟩⟩⟩ := hvalues
  obtain ⟨parameters, hread, hsame⟩ :=
    Keyed.exists_ofJson?_of_same_eq InputValue.ofJson?_of_same hparameters
  refine ⟨{ f with parameters }, ?_, hsame, rfl⟩
  simp [Field.ofJson?, hrecord, Location.ofJson?_of_same hlocation,
    optional?_string?_of_same hdeprecation, optional?_string?_of_same hdescription,
    string?_of_same hname, hread, AnnotatedType.ofJson?_of_same htype]

theorem Field.ofJson?_toJson (f : Field) : Field.ofJson? f.toJson = some f := by
  have hparameters := Keyed.ofJson?_toJson (fun v => InputValue.ofJson?_of_same (.refl v.toJson))
    f.parameters
  simp [Field.ofJson?, Field.toJson, Json.record?, Json.named?, List.lookup_cons,
    Location.ofJson?_of_same (.refl _), optional?_string?_of_same (.refl _),
    AnnotatedType.ofJson?_of_same (.refl _), Json.string?, hparameters]

/-! ## Types -/

/-- Bodies that are the same when members are compared as maps. -/
inductive Body.Same : Body → Body → Prop
  | scalar : Same .scalar .scalar
  | enum {values values' : Keyed EnumValue} (h : values.Same Eq values') :
      Same (.enum values) (.enum values')
  | inputObject {fields fields' : Keyed InputValue} (h : fields.Same Eq fields') :
      Same (.inputObject fields) (.inputObject fields')
  | interface {fields fields' : Keyed Field} (h : fields.Same Field.Same fields')
      (interfaces : List String) :
      Same (.interface fields interfaces) (.interface fields' interfaces)
  | object {fields fields' : Keyed Field} (h : fields.Same Field.Same fields')
      (interfaces : List String) : Same (.object fields interfaces) (.object fields' interfaces)
  | union {members members' : Keyed Location} (h : members.Same Eq members') :
      Same (.union members) (.union members')

namespace NamedType

/-- Types that are the same when members are compared as maps. -/
inductive Same : NamedType → NamedType → Prop
  | builtin (s : BuiltinScalar) : Same (.builtin s) (.builtin s)
  | defined (header : Header) {body body' : Body} (h : body.Same body') :
      Same (.defined header body) (.defined header body')

theorem headerOfJson?_of_same {header : Header} {location description name : Json}
    (hlocation : header.location.toJson.Same location)
    (hdescription : (Json.ofString? header.description).Same description)
    (hname : (Json.string header.name).Same name) :
    headerOfJson? (some location) (some description) (some name) = some header := by
  simp [headerOfJson?, Location.ofJson?_of_same hlocation, optional?_string?_of_same hdescription,
    string?_of_same hname]

theorem ofJson?_builtin (s : BuiltinScalar) : ofJson? (.string s.tag) = some (.builtin s) := by
  cases s <;> rfl

section Content
variable {header : Header} {j : Json}

theorem scalarOfJson?_of_same (h : (contentToJson header .scalar).Same j) :
    scalarOfJson? j = some (.defined header .scalar) := by
  obtain ⟨values, hrecord, hvalues⟩ :=
    h.record? ["def_location", "description", "name"] rfl (by decide)
  obtain _ | ⟨hlocation, _ | ⟨hdescription, _ | ⟨hname, _ | _⟩⟩⟩ := hvalues
  simp [scalarOfJson?, hrecord, headerOfJson?_of_same hlocation hdescription hname]

theorem exists_enumOfJson?_of_same {values : Keyed EnumValue}
    (h : (contentToJson header (.enum values)).Same j) :
    ∃ values', enumOfJson? j = some (.defined header (.enum values')) ∧ values.Same Eq values' := by
  obtain ⟨parts, hrecord, hparts⟩ :=
    h.record? ["def_location", "description", "name", "values"] rfl (by decide)
  obtain _ | ⟨hlocation, _ | ⟨hdescription, _ | ⟨hname, _ | ⟨hvalues, _ | _⟩⟩⟩⟩ := hparts
  obtain ⟨values', hread, hsame⟩ :=
    Keyed.exists_ofJson?_of_same_eq EnumValue.ofJson?_of_same hvalues
  refine ⟨values', ?_, hsame⟩
  simp [enumOfJson?, hrecord, headerOfJson?_of_same hlocation hdescription hname, hread]

theorem exists_inputObjectOfJson?_of_same {fields : Keyed InputValue}
    (h : (contentToJson header (.inputObject fields)).Same j) :
    ∃ fields', inputObjectOfJson? j = some (.defined header (.inputObject fields')) ∧
      fields.Same Eq fields' := by
  obtain ⟨parts, hrecord, hparts⟩ :=
    h.record? ["def_location", "description", "fields", "name"] rfl (by decide)
  obtain _ | ⟨hlocation, _ | ⟨hdescription, _ | ⟨hfields, _ | ⟨hname, _ | _⟩⟩⟩⟩ := hparts
  obtain ⟨fields', hread, hsame⟩ :=
    Keyed.exists_ofJson?_of_same_eq InputValue.ofJson?_of_same hfields
  refine ⟨fields', ?_, hsame⟩
  simp [inputObjectOfJson?, hrecord, headerOfJson?_of_same hlocation hdescription hname, hread]

/-- Objects and interfaces have contents of one form. -/
theorem exists_compositeOfJson?_of_same {fields : Keyed Field} {interfaces : List String}
    (h : (contentToJson header (.object fields interfaces)).Same j) :
    ∃ fields', fields.Same Field.Same fields' ∧ ∀ body : Keyed Field → List String → Body,
      compositeOfJson? body j = some (.defined header (body fields' interfaces)) := by
  obtain ⟨parts, hrecord, hparts⟩ :=
    h.record? ["def_location", "description", "fields", "interfaces", "name"] rfl (by decide)
  obtain _ | ⟨hlocation, _ | ⟨hdescription, _ | ⟨hfields, _ | ⟨hinterfaces, _ | ⟨hname,
    _ | _⟩⟩⟩⟩⟩ := hparts
  -- the parameters of a field may have moved too
  obtain ⟨fields', hread, hsame⟩ :=
    Keyed.exists_ofJson?_of_same @Field.exists_ofJson?_of_same hfields
  refine ⟨fields', hsame, fun body => ?_⟩
  simp [compositeOfJson?, hrecord, headerOfJson?_of_same hlocation hdescription hname, hread,
    Json.list?_of_same string?_of_same hinterfaces]

theorem exists_unionOfJson?_of_same {members : Keyed Location}
    (h : (contentToJson header (.union members)).Same j) :
    ∃ members', unionOfJson? j = some (.defined header (.union members')) ∧
      members.Same Eq members' := by
  obtain ⟨parts, hrecord, hparts⟩ :=
    h.record? ["def_location", "description", "members", "name"] rfl (by decide)
  obtain _ | ⟨hlocation, _ | ⟨hdescription, _ | ⟨hmembers, _ | ⟨hname, _ | _⟩⟩⟩⟩ := hparts
  obtain ⟨members', hread, hsame⟩ :=
    Keyed.exists_ofJson?_of_same_eq Location.ofJson?_of_same hmembers
  refine ⟨members', ?_, hsame⟩
  simp [unionOfJson?, hrecord, headerOfJson?_of_same hlocation hdescription hname, hread]

end Content

theorem exists_ofJson?_of_same {t : NamedType} {j : Json} (h : t.toJson.Same j) :
    ∃ t', ofJson? j = some t' ∧ t.Same t' := by
  cases t with
  | builtin s =>
    cases h
    exact ⟨_, ofJson?_builtin s, .builtin s⟩
  | defined header body =>
    obtain ⟨content, rfl, hcontent⟩ := h.exists_content
    cases body with
    | scalar => exact ⟨_, scalarOfJson?_of_same hcontent, .defined header .scalar⟩
    | enum values =>
      obtain ⟨values', hread, hsame⟩ := exists_enumOfJson?_of_same hcontent
      exact ⟨_, hread, .defined header (.enum hsame)⟩
    | inputObject fields =>
      obtain ⟨fields', hread, hsame⟩ := exists_inputObjectOfJson?_of_same hcontent
      exact ⟨_, hread, .defined header (.inputObject hsame)⟩
    | interface fields interfaces =>
      obtain ⟨fields', hsame, hread⟩ := exists_compositeOfJson?_of_same hcontent
      exact ⟨_, hread .interface, .defined header (.interface hsame interfaces)⟩
    | object fields interfaces =>
      obtain ⟨fields', hsame, hread⟩ := exists_compositeOfJson?_of_same hcontent
      exact ⟨_, hread .object, .defined header (.object hsame interfaces)⟩
    | union members =>
      obtain ⟨members', hread, hsame⟩ := exists_unionOfJson?_of_same hcontent
      exact ⟨_, hread, .defined header (.union hsame)⟩

section Unmoved
variable (header : Header)

theorem headerOfJson?_refl :
    headerOfJson? (some header.location.toJson) (some (Json.ofString? header.description))
      (some (Json.string header.name)) = some header :=
  headerOfJson?_of_same (.refl _) (.refl _) (.refl _)

theorem enumOfJson?_contentToJson (values : Keyed EnumValue) :
    enumOfJson? (contentToJson header (.enum values)) = some (.defined header (.enum values)) := by
  have hvalues := Keyed.ofJson?_toJson (fun v => EnumValue.ofJson?_of_same (.refl v.toJson)) values
  simp [enumOfJson?, contentToJson, Json.record?, Json.named?, List.lookup_cons,
    headerOfJson?_refl, hvalues]

theorem inputObjectOfJson?_contentToJson (fields : Keyed InputValue) :
    inputObjectOfJson? (contentToJson header (.inputObject fields)) =
      some (.defined header (.inputObject fields)) := by
  have hfields := Keyed.ofJson?_toJson (fun v => InputValue.ofJson?_of_same (.refl v.toJson)) fields
  simp [inputObjectOfJson?, contentToJson, Json.record?, Json.named?, List.lookup_cons,
    headerOfJson?_refl, hfields]

theorem compositeOfJson?_contentToJson (fields : Keyed Field) (interfaces : List String)
    (body : Keyed Field → List String → Body) :
    compositeOfJson? body (contentToJson header (.object fields interfaces)) =
      some (.defined header (body fields interfaces)) := by
  have hfields := Keyed.ofJson?_toJson Field.ofJson?_toJson fields
  have hinterfaces :=
    Json.list?_of_same string?_of_same (.refl (.array (interfaces.map Json.string)))
  simp [compositeOfJson?, contentToJson, Json.record?, Json.named?, List.lookup_cons,
    headerOfJson?_refl, hfields, hinterfaces]

theorem unionOfJson?_contentToJson (members : Keyed Location) :
    unionOfJson? (contentToJson header (.union members)) =
      some (.defined header (.union members)) := by
  have hmembers := Keyed.ofJson?_toJson (fun l => Location.ofJson?_of_same (.refl l.toJson)) members
  simp [unionOfJson?, contentToJson, Json.record?, Json.named?, List.lookup_cons,
    headerOfJson?_refl, hmembers]

end Unmoved

theorem ofJson?_toJson (t : NamedType) : ofJson? t.toJson = some t := by
  cases t with
  | builtin s => exact ofJson?_builtin s
  | defined header body =>
    cases body with
    | scalar => exact scalarOfJson?_of_same (.refl _)
    | enum values => exact enumOfJson?_contentToJson header values
    | inputObject fields => exact inputObjectOfJson?_contentToJson header fields
    | interface fields interfaces =>
      exact compositeOfJson?_contentToJson header fields interfaces .interface
    | object fields interfaces =>
      exact compositeOfJson?_contentToJson header fields interfaces .object
    | union members => exact unionOfJson?_contentToJson header members

end NamedType

/-! ## Directives -/

theorem Sdl.DirectiveLocation.ofJson?_of_same {l : Sdl.DirectiveLocation} {j : Json}
    (h : l.toJson.Same j) : Sdl.DirectiveLocation.ofJson? j = some l :=
  Json.tagged?_of_same l.mem_all (by decide) h

/-- Directives that are the same when their parameters are compared as a map. -/
def Directive.Same (d d' : Directive) : Prop :=
  d.parameters.Same Eq d'.parameters ∧ d' = { d with parameters := d'.parameters }

theorem Directive.exists_ofJson?_of_same {d : Directive} {j : Json} (h : d.toJson.Same j) :
    ∃ d', Directive.ofJson? j = some d' ∧ d.Same d' := by
  obtain ⟨values, hrecord, hvalues⟩ := h.record?
    ["def_location", "description", "locations", "name", "parameters", "repeatable"] rfl (by decide)
  obtain _ | ⟨hlocation, _ | ⟨hdescription, _ | ⟨hlocations, _ | ⟨hname, _ | ⟨hparameters,
    _ | ⟨hrepeatable, _ | _⟩⟩⟩⟩⟩⟩ := hvalues
  obtain ⟨parameters, hread, hsame⟩ :=
    Keyed.exists_ofJson?_of_same_eq InputValue.ofJson?_of_same hparameters
  refine ⟨{ d with parameters }, ?_, hsame, rfl⟩
  simp [Directive.ofJson?, hrecord, Location.ofJson?_of_same hlocation,
    optional?_string?_of_same hdescription,
    Json.list?_of_same Sdl.DirectiveLocation.ofJson?_of_same hlocations, string?_of_same hname,
    hread, bool?_of_same hrepeatable]

theorem Directive.ofJson?_toJson (d : Directive) : Directive.ofJson? d.toJson = some d := by
  have hparameters := Keyed.ofJson?_toJson (fun v => InputValue.ofJson?_of_same (.refl v.toJson))
    d.parameters
  have hlocations := Json.list?_of_same Sdl.DirectiveLocation.ofJson?_of_same
    (.refl (.array (d.locations.map Sdl.DirectiveLocation.toJson)))
  simp [Directive.ofJson?, Directive.toJson, Json.record?, Json.named?, List.lookup_cons,
    Location.ofJson?_of_same (.refl _), optional?_string?_of_same (.refl _), hlocations,
    Json.string?, hparameters, Json.bool?]

/-! ## States of a chain -/

theorem Chain.Kind.ofJson?_of_same {k : Chain.Kind} {j : Json} (h : k.toJson.Same j) :
    Chain.Kind.ofJson? j = some k :=
  Json.tagged?_of_same k.mem_all (by decide) h

theorem Chain.State.ofJson?_of_same {s : Chain.State} {j : Json} (h : s.toJson.Same j) :
    Chain.State.ofJson? j = some s := by
  obtain ⟨values, hrecord, hvalues⟩ :=
    h.record? ["kind", "step", "name", "type_name"] rfl (by decide)
  obtain _ | ⟨hkind, _ | ⟨hstep, _ | ⟨hname, _ | ⟨htypeName, _ | _⟩⟩⟩⟩ := hvalues
  simp [Chain.State.ofJson?, hrecord, Chain.Kind.ofJson?_of_same hkind, natural?_of_same hstep,
    optional?_string?_of_same hname, optional?_string?_of_same htypeName]

/-! ## Completions -/

theorem TypeKind.ofJson?_of_same {k : TypeKind} {j : Json} (h : k.toJson.Same j) :
    TypeKind.ofJson? j = some k :=
  Json.tagged?_of_same k.mem_all (by decide) h

namespace CandidateType

theorem ofJson?_list {content item nullable : Json}
    (h : content.named? ["item", "nullable"] = some [some item, some nullable]) :
    ofJson? (.object [("List", content)]) = (ofJson? item).bind fun item =>
      nullable.bool?.bind fun nullable => some (.list item nullable) := by
  rw [ofJson?]
  simp only [Json.variant?]
  split
  · next hnamed =>
    rw [h] at hnamed
    cases hnamed
    simp
  · next hnamed => exact absurd h (hnamed item (some nullable))

theorem ofJson?_of_same {t : CandidateType} {j : Json} (h : t.toJson.Same j) :
    ofJson? j = some t := by
  induction t generalizing j with
  | list item nullable ih =>
    obtain ⟨content, rfl, hcontent⟩ := h.exists_content
    obtain ⟨values, hnamed, hvalues⟩ := hcontent.named? ["item", "nullable"] rfl (by decide)
    obtain _ | ⟨hitem, _ | ⟨hnullable, _ | _⟩⟩ := hvalues
    rw [ofJson?_list hnamed, ih hitem, bool?_of_same hnullable]
    rfl
  | named kind name nullable =>
    obtain ⟨content, rfl, hcontent⟩ := h.exists_content
    obtain ⟨values, hnamed, hvalues⟩ :=
      hcontent.named? ["kind", "name", "nullable"] rfl (by decide)
    obtain _ | ⟨hkind, _ | ⟨hname, _ | ⟨hnullable, _ | _⟩⟩⟩ := hvalues
    have hkindRead := Json.optional?_of_same TypeKind.ofJson?_of_same
      (fun k => by simp [TypeKind.toJson]) hkind
    rw [ofJson?]
    simp [Json.variant?, hnamed, hkindRead, string?_of_same hname, bool?_of_same hnullable]

theorem toJson_ne_null (t : CandidateType) : t.toJson ≠ .null := by
  cases t <;> simp [toJson]

end CandidateType

theorem Candidate.ofJson?_of_same {c : Candidate} {j : Json} (h : c.toJson.Same j) :
    Candidate.ofJson? j = some c := by
  obtain ⟨values, hrecord, hvalues⟩ := h.record?
    ["deprecation_reason", "description", "text", "type_ref"] rfl (by decide)
  obtain _ | ⟨hdeprecation, _ | ⟨hdescription, _ | ⟨htext, _ | ⟨htype, _ | _⟩⟩⟩⟩ := hvalues
  have htypeRead := Json.optional?_of_same CandidateType.ofJson?_of_same
    CandidateType.toJson_ne_null htype
  simp [Candidate.ofJson?, hrecord, optional?_string?_of_same hdeprecation,
    optional?_string?_of_same hdescription, string?_of_same htext, htypeRead]

theorem KnownFragment.ofJson?_of_same {f : KnownFragment} {j : Json} (h : f.toJson.Same j) :
    KnownFragment.ofJson? j = some f := by
  obtain ⟨values, hrecord, hvalues⟩ := h.record?
    ["description", "name", "type_condition"] rfl (by decide)
  obtain _ | ⟨hdescription, _ | ⟨hname, _ | ⟨hcondition, _ | _⟩⟩⟩ := hvalues
  simp [KnownFragment.ofJson?, hrecord, optional?_string?_of_same hdescription,
    string?_of_same hname, string?_of_same hcondition]

theorem TokenClass.ofJson?_of_same {c : TokenClass} {j : Json} (h : c.toJson.Same j) :
    TokenClass.ofJson? j = some c :=
  Json.tagged?_of_same c.mem_all (by decide) h

theorem CursorToken.ofJson?_of_same {t : CursorToken} {j : Json} (h : t.toJson.Same j) :
    CursorToken.ofJson? j = some t := by
  obtain ⟨values, hrecord, hvalues⟩ := h.record?
    ["token_class", "string", "start", "end"] rfl (by decide)
  obtain _ | ⟨hclass, _ | ⟨hstring, _ | ⟨hstart, _ | ⟨hstop, _ | _⟩⟩⟩⟩ := hvalues
  have hclassRead := Json.optional?_of_same TokenClass.ofJson?_of_same
    (fun c => by simp [TokenClass.toJson]) hclass
  simp [CursorToken.ofJson?, hrecord, hclassRead, string?_of_same hstring, natural?_of_same hstart,
    natural?_of_same hstop]

theorem Completion.ofJson?_of_same {c : Completion} {j : Json} (h : c.toJson.Same j) :
    Completion.ofJson? j = some c := by
  obtain ⟨values, hrecord, hvalues⟩ := h.record?
    ["candidates", "line", "range_start", "range_end"] rfl (by decide)
  obtain _ | ⟨hcandidates, _ | ⟨hline, _ | ⟨hstart, _ | ⟨hend, _ | _⟩⟩⟩⟩ := hvalues
  simp [Completion.ofJson?, hrecord, Json.list?_of_same Candidate.ofJson?_of_same hcandidates,
    natural?_of_same hline, natural?_of_same hstart, natural?_of_same hend]

/-! ## The round trip -/

namespace Json

/-- What is written is as declared, and it is read back: as it was when the members of objects keep
their order, and as an equal value in whatever order they come. -/
structure Faithful {α : Type} (d : Declared) (write : α → Json) (read : Json → Option α)
    (equal : α → α → Prop) : Prop where
  represents : ∀ a, Represents (.declared d) (write a)
  read_write : ∀ a, read (write a) = some a
  read_moved : ∀ a j, (write a).Same j → ∃ b, read j = some b ∧ equal a b

theorem Faithful.of_same {α : Type} {d : Declared} {write : α → Json} {read : Json → Option α}
    (hdeclared : ∀ a, Represents (.declared d) (write a))
    (hread : ∀ {a : α} {j : Json}, (write a).Same j → read j = some a) :
    Faithful d write read Eq where
  represents := hdeclared
  read_write a := hread (.refl (write a))
  read_moved a _ h := ⟨a, hread h, rfl⟩

theorem faithful_namedType :
    Faithful .namedType NamedType.toJson NamedType.ofJson? NamedType.Same where
  represents := NamedType.represents_toJson
  read_write := NamedType.ofJson?_toJson
  read_moved _ _ := NamedType.exists_ofJson?_of_same

theorem faithful_directive :
    Faithful .directive Directive.toJson Directive.ofJson? Directive.Same where
  represents := Directive.represents_toJson
  read_write := Directive.ofJson?_toJson
  read_moved _ _ := Directive.exists_ofJson?_of_same

/-- Types, directives and all that a completion takes and gives are written as declared and read
back. Keyed lists are compared as maps, everything else is the same. -/
theorem forms_faithful :
    Faithful .namedType NamedType.toJson NamedType.ofJson? NamedType.Same ∧
      Faithful .directive Directive.toJson Directive.ofJson? Directive.Same ∧
      Faithful .annotatedType AnnotatedType.toJson AnnotatedType.ofJson? Eq ∧
      Faithful .candidateType CandidateType.toJson CandidateType.ofJson? Eq ∧
      Faithful .candidate Candidate.toJson Candidate.ofJson? Eq ∧
      Faithful .chainState Chain.State.toJson Chain.State.ofJson? Eq ∧
      Faithful .cursorToken CursorToken.toJson CursorToken.ofJson? Eq ∧
      Faithful .knownFragment KnownFragment.toJson KnownFragment.ofJson? Eq ∧
      Faithful .location Location.toJson Location.ofJson? Eq ∧
      Faithful .completion Completion.toJson Completion.ofJson? Eq :=
  ⟨faithful_namedType,
    faithful_directive,
    .of_same AnnotatedType.represents_toJson AnnotatedType.ofJson?_of_same,
    .of_same CandidateType.represents_toJson CandidateType.ofJson?_of_same,
    .of_same Candidate.represents_toJson Candidate.ofJson?_of_same,
    .of_same Chain.State.represents_toJson Chain.State.ofJson?_of_same,
    .of_same CursorToken.represents_toJson CursorToken.ofJson?_of_same,
    .of_same KnownFragment.represents_toJson KnownFragment.ofJson?_of_same,
    .of_same Location.represents_toJson Location.ofJson?_of_same,
    .of_same Completion.represents_toJson Completion.ofJson?_of_same⟩

end Json

end SchemaHint
