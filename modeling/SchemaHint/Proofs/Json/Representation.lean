import Mathlib.Data.List.Forall2
import SchemaHint.Json.Chain
import SchemaHint.Json.Completion

/-!
# How values are represented in JSON

The JSON form of a value follows from the declaration of its type: a record is an object of its
fields, a case without content is a string and one with content is an object of one member.

* `Json.Shape`, `Json.Declared.shape` : the declarations of the types that have a JSON form;
* `Json.Represents` : the JSON values that a declaration allows;
* `NamedType.represents_toJson`, `Directive.represents_toJson`, `Completion.represents_toJson` and
  the others like them : what is written is as declared.
-/

namespace SchemaHint

set_option autoImplicit false

namespace Json

/-! ## Declarations -/

/-- The types that have a name in declarations. -/
inductive Declared
  | location
  | annotatedType
  | inputValue
  | field
  | enumValue
  | namedType
  | directive
  | chainState
  | candidateType
  | candidate
  | knownFragment
  | cursorToken
  | completion
deriving DecidableEq, Repr

/-- The declaration of a type. -/
inductive Shape
  | bool
  | natural
  | string
  | optional (content : Shape)
  | list (item : Shape)
  | keyed (value : Shape)
  | record (fields : List (String × Shape))
  /-- The cases without content have only names. -/
  | cases (names : List String) (others : List (String × Shape))
  | declared (d : Declared)

namespace Shape

/-- The content of a scalar that a schema defines. -/
def scalar : Shape :=
  .record [
    ("def_location", .declared .location),
    ("description", .optional .string),
    ("name", .string)]

/-- The content of an enum. -/
def enum : Shape :=
  .record [
    ("def_location", .declared .location),
    ("description", .optional .string),
    ("name", .string),
    ("values", .keyed (.declared .enumValue))]

/-- The content of an input object. -/
def inputObject : Shape :=
  .record [
    ("def_location", .declared .location),
    ("description", .optional .string),
    ("fields", .keyed (.declared .inputValue)),
    ("name", .string)]

/-- The content of an object and of an interface. -/
def composite : Shape :=
  .record [
    ("def_location", .declared .location),
    ("description", .optional .string),
    ("fields", .keyed (.declared .field)),
    ("interfaces", .list .string),
    ("name", .string)]

/-- The content of a union. -/
def union : Shape :=
  .record [
    ("def_location", .declared .location),
    ("description", .optional .string),
    ("members", .keyed (.declared .location)),
    ("name", .string)]

end Shape

/-- The declaration of each type. -/
def Declared.shape : Declared → Shape
  | .location =>
    .cases ["GraphQLBuiltIn", "Schema"] [
      ("SchemaFile", .record [("col", .natural), ("file", .string), ("line", .natural)])]
  | .annotatedType =>
    .cases [] [
      ("List", .record [
        ("inner_type_annotation", .declared .annotatedType),
        ("nullable", .bool),
        ("ref_location", .declared .location)]),
      ("Named", .record [
        ("nullable", .bool),
        ("ref_location", .declared .location),
        ("type_name", .string)])]
  | .inputValue =>
    .record [
      ("def_location", .declared .location),
      ("default_value", .optional .string),
      ("description", .optional .string),
      ("name", .string),
      ("type_annotation", .declared .annotatedType)]
  | .field =>
    .record [
      ("def_location", .declared .location),
      ("deprecation_reason", .optional .string),
      ("description", .optional .string),
      ("name", .string),
      ("parameters", .keyed (.declared .inputValue)),
      ("type_annotation", .declared .annotatedType)]
  | .enumValue =>
    .record [
      ("def_location", .declared .location),
      ("deprecation_reason", .optional .string),
      ("description", .optional .string),
      ("name", .string)]
  | .namedType =>
    .cases ["Bool", "Float", "ID", "Int", "String"] [
      ("Enum", .enum),
      ("InputObject", .inputObject),
      ("Interface", .composite),
      ("Object", .composite),
      ("Scalar", .scalar),
      ("Union", .union)]
  | .directive =>
    .record [
      ("def_location", .declared .location),
      ("description", .optional .string),
      ("locations", .list (.cases (Sdl.DirectiveLocation.all.map Sdl.DirectiveLocation.tag) [])),
      ("name", .string),
      ("parameters", .keyed (.declared .inputValue)),
      ("repeatable", .bool)]
  | .chainState =>
    .record [
      ("kind", .cases (Chain.Kind.all.map Chain.Kind.name) []),
      ("step", .natural),
      ("name", .optional .string),
      ("type_name", .optional .string)]
  | .candidateType =>
    .cases [] [
      ("List", .record [("item", .declared .candidateType), ("nullable", .bool)]),
      ("Named", .record [
        ("kind", .optional (.cases (TypeKind.all.map TypeKind.tag) [])),
        ("name", .string),
        ("nullable", .bool)])]
  | .candidate =>
    .record [
      ("deprecation_reason", .optional .string),
      ("description", .optional .string),
      ("text", .string),
      ("type_ref", .optional (.declared .candidateType))]
  | .knownFragment =>
    .record [
      ("description", .optional .string),
      ("name", .string),
      ("type_condition", .string)]
  | .cursorToken =>
    .record [
      ("token_class", .optional (.cases (TokenClass.all.map TokenClass.tag) [])),
      ("string", .string),
      ("start", .natural),
      ("end", .natural)]
  | .completion =>
    .record [
      ("candidates", .list (.declared .candidate)),
      ("line", .natural),
      ("range_start", .natural),
      ("range_end", .natural)]

/-! ## Representation -/

/-- The JSON values that a declaration allows. -/
inductive Represents : Shape → Json → Prop
  | bool (b : Bool) : Represents .bool (.bool b)
  | natural (n : Nat) : Represents .natural (.natural n)
  | string (s : String) : Represents .string (.string s)
  | absent (content : Shape) : Represents (.optional content) .null
  | present {content : Shape} {j : Json} (h : Represents content j) :
      Represents (.optional content) j
  | list {item : Shape} {items : List Json} (h : ∀ j ∈ items, Represents item j) :
      Represents (.list item) (.array items)
  | keyed {value : Shape} {members : List (String × Json)} (hnd : (members.map Prod.fst).Nodup)
      (h : ∀ m ∈ members, Represents value m.2) : Represents (.keyed value) (.object members)
  | record {fields : List (String × Shape)} {members : List (String × Json)}
      (hnames : members.map Prod.fst = fields.map Prod.fst)
      (h : List.Forall₂ Represents (fields.map Prod.snd) (members.map Prod.snd)) :
      Represents (.record fields) (.object members)
  | name {names : List String} {name : String} (others : List (String × Shape))
      (h : name ∈ names) : Represents (.cases names others) (.string name)
  | other (names : List String) {others : List (String × Shape)} {name : String} {content : Shape}
      {j : Json} (hcase : (name, content) ∈ others) (h : Represents content j) :
      Represents (.cases names others) (.object [(name, j)])
  | declared {d : Declared} {j : Json} (h : Represents d.shape j) : Represents (.declared d) j

section Parts
variable {α : Type} {write : α → Json} {shape : Shape}

theorem represents_optional (h : ∀ a, Represents shape (write a)) (o : Option α) :
    Represents (.optional shape) ((o.map write).getD null) := by
  cases o with
  | none => exact .absent shape
  | some a => exact .present (h a)

theorem represents_list (h : ∀ a, Represents shape (write a)) (as : List α) :
    Represents (.list shape) (.array (as.map write)) := by
  refine .list fun j hj => ?_
  obtain ⟨a, -, rfl⟩ := List.mem_map.mp hj
  exact h a

theorem represents_keyed (h : ∀ a, Represents shape (write a)) (m : Keyed α) :
    Represents (.keyed shape) (m.toJson write) := by
  refine .keyed ?_ fun e he => ?_
  · rw [List.map_map]
    exact m.nodup_keys
  · obtain ⟨e, -, rfl⟩ := List.mem_map.mp he
    exact h e.2

theorem represents_ofString? (o : Option String) : Represents (.optional .string) (ofString? o) :=
  represents_optional .string o

/-- The values of an enumeration are their names. -/
theorem represents_tag {values : List α} {tag : α → String} (hall : ∀ a, a ∈ values) (a : α) :
    Represents (.cases (values.map tag) []) (.string (tag a)) :=
  .name [] (List.mem_map_of_mem (hall a))

end Parts

end Json

open Json (Represents represents_optional represents_list represents_keyed represents_ofString?
  represents_tag)

/-! ## Enumerations -/

theorem Sdl.DirectiveLocation.mem_all (l : Sdl.DirectiveLocation) : l ∈ all := by
  cases l <;> decide

theorem Chain.Kind.mem_all (k : Chain.Kind) : k ∈ all := by
  cases k <;> decide

theorem TypeKind.mem_all (k : TypeKind) : k ∈ all := by
  cases k <;> decide

theorem TokenClass.mem_all (c : TokenClass) : c ∈ all := by
  cases c <;> decide

/-! ## Types and directives -/

theorem Location.represents_toJson (l : Location) : Represents (.declared .location) l.toJson := by
  cases l with
  | builtin => exact .declared (.name _ (by decide))
  | text => exact .declared (.name _ (by decide))
  | file path p =>
    exact .declared (.other _ (.head _) (.record rfl
      (.cons (.natural p.column) (.cons (.string path) (.cons (.natural p.line) .nil)))))

theorem AnnotatedType.represents_toJson (a : AnnotatedType) :
    Represents (.declared .annotatedType) a.toJson := by
  induction a with
  | list item nullable location ih =>
    exact .declared (.other _ (.head _) (.record rfl
      (.cons ih (.cons (.bool nullable) (.cons location.represents_toJson .nil)))))
  | named name nullable location =>
    exact .declared (.other _ (.tail _ (.head _)) (.record rfl
      (.cons (.bool nullable) (.cons location.represents_toJson (.cons (.string name) .nil)))))

theorem InputValue.represents_toJson (v : InputValue) :
    Represents (.declared .inputValue) v.toJson :=
  .declared (.record rfl
    (.cons v.location.represents_toJson (.cons (represents_ofString? v.default)
      (.cons (represents_ofString? v.description) (.cons (.string v.name)
        (.cons v.type.represents_toJson .nil))))))

theorem Field.represents_toJson (f : Field) : Represents (.declared .field) f.toJson :=
  .declared (.record rfl
    (.cons f.location.represents_toJson (.cons (represents_ofString? f.deprecation)
      (.cons (represents_ofString? f.description) (.cons (.string f.name)
        (.cons (represents_keyed InputValue.represents_toJson f.parameters)
          (.cons f.type.represents_toJson .nil)))))))

theorem EnumValue.represents_toJson (v : EnumValue) :
    Represents (.declared .enumValue) v.toJson :=
  .declared (.record rfl
    (.cons v.location.represents_toJson (.cons (represents_ofString? v.deprecation)
      (.cons (represents_ofString? v.description) (.cons (.string v.name) .nil)))))

namespace NamedType

section Content
variable (header : Header)

theorem represents_scalar : Represents .scalar (contentToJson header .scalar) :=
  .record rfl (.cons header.location.represents_toJson
    (.cons (represents_ofString? header.description) (.cons (.string header.name) .nil)))

theorem represents_enum (values : Keyed EnumValue) :
    Represents .enum (contentToJson header (.enum values)) :=
  .record rfl (.cons header.location.represents_toJson
    (.cons (represents_ofString? header.description) (.cons (.string header.name)
      (.cons (represents_keyed EnumValue.represents_toJson values) .nil))))

theorem represents_inputObject (fields : Keyed InputValue) :
    Represents .inputObject (contentToJson header (.inputObject fields)) :=
  .record rfl (.cons header.location.represents_toJson
    (.cons (represents_ofString? header.description)
      (.cons (represents_keyed InputValue.represents_toJson fields)
        (.cons (.string header.name) .nil))))

theorem represents_composite (fields : Keyed Field) (interfaces : List String) :
    Represents .composite (contentToJson header (.object fields interfaces)) :=
  .record rfl (.cons header.location.represents_toJson
    (.cons (represents_ofString? header.description)
      (.cons (represents_keyed Field.represents_toJson fields)
        (.cons (represents_list .string interfaces) (.cons (.string header.name) .nil)))))

theorem represents_union (members : Keyed Location) :
    Represents .union (contentToJson header (.union members)) :=
  .record rfl (.cons header.location.represents_toJson
    (.cons (represents_ofString? header.description)
      (.cons (represents_keyed Location.represents_toJson members)
        (.cons (.string header.name) .nil))))

end Content

theorem represents_toJson (t : NamedType) : Represents (.declared .namedType) t.toJson := by
  cases t with
  | builtin s => exact .declared (.name _ (by cases s <;> decide))
  | defined header body =>
    refine .declared ?_
    cases body with
    | scalar =>
      show Represents _ (.object [("Scalar", _)])
      exact .other _ (by simp) (represents_scalar header)
    | enum values =>
      show Represents _ (.object [("Enum", _)])
      exact .other _ (by simp) (represents_enum header values)
    | inputObject fields =>
      show Represents _ (.object [("InputObject", _)])
      exact .other _ (by simp) (represents_inputObject header fields)
    | interface fields interfaces =>
      show Represents _ (.object [("Interface", _)])
      exact .other _ (by simp) (represents_composite header fields interfaces)
    | object fields interfaces =>
      show Represents _ (.object [("Object", _)])
      exact .other _ (by simp) (represents_composite header fields interfaces)
    | union members =>
      show Represents _ (.object [("Union", _)])
      exact .other _ (by simp) (represents_union header members)

end NamedType

theorem Directive.represents_toJson (d : Directive) :
    Represents (.declared .directive) d.toJson :=
  .declared (.record rfl
    (.cons d.location.represents_toJson (.cons (represents_ofString? d.description)
      (.cons (represents_list (represents_tag Sdl.DirectiveLocation.mem_all) d.locations)
        (.cons (.string d.name)
          (.cons (represents_keyed InputValue.represents_toJson d.parameters)
            (.cons (.bool d.repeatable) .nil)))))))

/-! ## States and completions -/

theorem Chain.State.represents_toJson (s : Chain.State) :
    Represents (.declared .chainState) s.toJson :=
  .declared (.record rfl
    (.cons (represents_tag Chain.Kind.mem_all s.kind) (.cons (.natural s.step)
      (.cons (represents_ofString? s.name) (.cons (represents_ofString? s.typeName) .nil)))))

theorem CandidateType.represents_toJson (t : CandidateType) :
    Represents (.declared .candidateType) t.toJson := by
  induction t with
  | list item nullable ih =>
    exact .declared (.other _ (.head _) (.record rfl (.cons ih (.cons (.bool nullable) .nil))))
  | named kind name nullable =>
    exact .declared (.other _ (.tail _ (.head _)) (.record rfl
      (.cons (represents_optional (represents_tag TypeKind.mem_all) kind)
        (.cons (.string name) (.cons (.bool nullable) .nil)))))

theorem Candidate.represents_toJson (c : Candidate) :
    Represents (.declared .candidate) c.toJson :=
  .declared (.record rfl
    (.cons (represents_ofString? c.deprecation) (.cons (represents_ofString? c.description)
      (.cons (.string c.text)
        (.cons (represents_optional CandidateType.represents_toJson c.type) .nil)))))

theorem KnownFragment.represents_toJson (f : KnownFragment) :
    Represents (.declared .knownFragment) f.toJson :=
  .declared (.record rfl
    (.cons (represents_ofString? f.description) (.cons (.string f.name)
      (.cons (.string f.typeCondition) .nil))))

theorem CursorToken.represents_toJson (t : CursorToken) :
    Represents (.declared .cursorToken) t.toJson :=
  .declared (.record rfl
    (.cons (represents_optional (represents_tag TokenClass.mem_all) t.tokenClass)
      (.cons (.string t.string) (.cons (.natural t.start) (.cons (.natural t.stop) .nil)))))

theorem Completion.represents_toJson (c : Completion) :
    Represents (.declared .completion) c.toJson :=
  .declared (.record rfl
    (.cons (represents_list Candidate.represents_toJson c.candidates) (.cons (.natural c.line)
      (.cons (.natural c.rangeStart) (.cons (.natural c.rangeEnd) .nil)))))

end SchemaHint
