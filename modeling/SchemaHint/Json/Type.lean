import SchemaHint.Json.Basic
import SchemaHint.Type.Directive
import SchemaHint.Type.Named

/-!
# Types and directives as JSON

The JSON forms of locations, annotations, members, types and directives, and their readers. A keyed
list is an object.
-/

namespace SchemaHint

set_option autoImplicit false

/-! ## Locations and annotations -/

/-- The JSON form of a location. -/
def Location.toJson : Location → Json
  | .builtin => .string "GraphQLBuiltIn"
  | .text => .string "Schema"
  | .file path p =>
    .object [("SchemaFile", .object [
      ("col", .natural p.column), ("file", .string path), ("line", .natural p.line)])]

/-- Reads a location. -/
def Location.ofJson? (j : Json) : Option Location :=
  match j.variant? with
  | some ("GraphQLBuiltIn", content) => if Json.isUnit content then some .builtin else none
  | some ("Schema", content) => if Json.isUnit content then some .text else none
  | some ("SchemaFile", some content) =>
    match content.record? ["col", "file", "line"] with
    | some [column, path, line] => do
      let column ← Json.required? Json.natural? column
      let path ← Json.required? Json.string? path
      let line ← Json.required? Json.natural? line
      return .file path ⟨line, column⟩
    | _ => none
  | _ => none

namespace AnnotatedType

/-- The JSON form of an annotation. -/
def toJson : AnnotatedType → Json
  | .list item nullable location =>
    .object [("List", .object [
      ("inner_type_annotation", item.toJson),
      ("nullable", .bool nullable),
      ("ref_location", location.toJson)])]
  | .named name nullable location =>
    .object [("Named", .object [
      ("nullable", .bool nullable),
      ("ref_location", location.toJson),
      ("type_name", .string name)])]

/-- Reads an annotation. -/
def ofJson? (j : Json) : Option AnnotatedType :=
  match _hj : j.variant? with
  | some ("List", some content) =>
    match _hc : content.record? ["inner_type_annotation", "nullable", "ref_location"] with
    | some [some item, nullable, location] => do
      let item ← ofJson? item
      let nullable ← Json.required? Json.bool? nullable
      let location ← Json.required? Location.ofJson? location
      return .list item nullable location
    | _ => none
  | some ("Named", some content) =>
    match content.record? ["nullable", "ref_location", "type_name"] with
    | some [nullable, location, name] => do
      let nullable ← Json.required? Json.bool? nullable
      let location ← Json.required? Location.ofJson? location
      let name ← Json.required? Json.string? name
      return .named name nullable location
    | _ => none
  | _ => none
termination_by sizeOf j
decreasing_by
  exact Nat.lt_trans (Json.sizeOf_lt_of_record? _hc (by simp)) (Json.sizeOf_lt_of_variant? _hj)

end AnnotatedType

/-! ## Keyed lists and members -/

/-- The JSON form of a keyed list. -/
def Keyed.toJson {α : Type} (write : α → Json) (m : Keyed α) : Json :=
  .object (m.entries.map fun e => (e.1, write e.2))

/-- Reads a keyed list. -/
def Keyed.ofJson? {α : Type} (read : Json → Option α) (j : Json) : Option (Keyed α) :=
  (Json.members? read j).map Keyed.ofList

/-- The JSON form of an argument or input field. -/
def InputValue.toJson (v : InputValue) : Json :=
  .object [
    ("def_location", v.location.toJson),
    ("default_value", .ofString? v.default),
    ("description", .ofString? v.description),
    ("name", .string v.name),
    ("type_annotation", v.type.toJson)]

/-- Reads an argument or input field. -/
def InputValue.ofJson? (j : Json) : Option InputValue :=
  match j.record? ["def_location", "default_value", "description", "name", "type_annotation"] with
  | some [location, default, description, name, type] => do
    let location ← Json.required? Location.ofJson? location
    let default ← Json.optional? Json.string? default
    let description ← Json.optional? Json.string? description
    let name ← Json.required? Json.string? name
    let type ← Json.required? AnnotatedType.ofJson? type
    return { location, default, description, name, type }
  | _ => none

/-- The JSON form of a field. -/
def Field.toJson (f : Field) : Json :=
  .object [
    ("def_location", f.location.toJson),
    ("deprecation_reason", .ofString? f.deprecation),
    ("description", .ofString? f.description),
    ("name", .string f.name),
    ("parameters", f.parameters.toJson InputValue.toJson),
    ("type_annotation", f.type.toJson)]

/-- Reads a field. -/
def Field.ofJson? (j : Json) : Option Field :=
  match j.record? ["def_location", "deprecation_reason", "description", "name", "parameters",
    "type_annotation"] with
  | some [location, deprecation, description, name, parameters, type] => do
    let location ← Json.required? Location.ofJson? location
    let deprecation ← Json.optional? Json.string? deprecation
    let description ← Json.optional? Json.string? description
    let name ← Json.required? Json.string? name
    let parameters ← Json.required? (Keyed.ofJson? InputValue.ofJson?) parameters
    let type ← Json.required? AnnotatedType.ofJson? type
    return { location, deprecation, description, name, parameters, type }
  | _ => none

/-- The JSON form of an enum value. -/
def EnumValue.toJson (v : EnumValue) : Json :=
  .object [
    ("def_location", v.location.toJson),
    ("deprecation_reason", .ofString? v.deprecation),
    ("description", .ofString? v.description),
    ("name", .string v.name)]

/-- Reads an enum value. -/
def EnumValue.ofJson? (j : Json) : Option EnumValue :=
  match j.record? ["def_location", "deprecation_reason", "description", "name"] with
  | some [location, deprecation, description, name] => do
    let location ← Json.required? Location.ofJson? location
    let deprecation ← Json.optional? Json.string? deprecation
    let description ← Json.optional? Json.string? description
    let name ← Json.required? Json.string? name
    return { location, deprecation, description, name }
  | _ => none

/-! ## Types -/

/-- The identifier of a kind in JSON. -/
def TypeKind.tag : TypeKind → String
  | .boolean => "Bool"
  | k => k.name

/-- The JSON form of a kind. -/
def TypeKind.toJson (k : TypeKind) : Json := .string k.tag

/-- Reads a kind. -/
def TypeKind.ofJson? (j : Json) : Option TypeKind := j.tagged? TypeKind.all TypeKind.tag

/-- The identifier of a built-in scalar in JSON. -/
def BuiltinScalar.tag (s : BuiltinScalar) : String := s.kind.tag

namespace NamedType

/-- The content of the JSON form of a type that a schema defines. -/
def contentToJson (h : Header) : Body → Json
  | .scalar =>
    .object [
      ("def_location", h.location.toJson),
      ("description", .ofString? h.description),
      ("name", .string h.name)]
  | .enum values =>
    .object [
      ("def_location", h.location.toJson),
      ("description", .ofString? h.description),
      ("name", .string h.name),
      ("values", values.toJson EnumValue.toJson)]
  | .inputObject fields =>
    .object [
      ("def_location", h.location.toJson),
      ("description", .ofString? h.description),
      ("fields", fields.toJson InputValue.toJson),
      ("name", .string h.name)]
  | .interface fields interfaces | .object fields interfaces =>
    .object [
      ("def_location", h.location.toJson),
      ("description", .ofString? h.description),
      ("fields", fields.toJson Field.toJson),
      ("interfaces", .array (interfaces.map Json.string)),
      ("name", .string h.name)]
  | .union members =>
    .object [
      ("def_location", h.location.toJson),
      ("description", .ofString? h.description),
      ("members", members.toJson Location.toJson),
      ("name", .string h.name)]

/-- The JSON form of a type. -/
def toJson : NamedType → Json
  | .builtin s => .string s.tag
  | .defined h body => .object [(body.kind.tag, contentToJson h body)]

/-- Reads the header of a type. -/
def headerOfJson? (location description name : Option Json) : Option Header := do
  let location ← Json.required? Location.ofJson? location
  let description ← Json.optional? Json.string? description
  let name ← Json.required? Json.string? name
  return { location, description, name }

/-- Reads a scalar that a schema defines. -/
def scalarOfJson? (j : Json) : Option NamedType :=
  match j.record? ["def_location", "description", "name"] with
  | some [location, description, name] => do
    let h ← headerOfJson? location description name
    return .defined h .scalar
  | _ => none

/-- Reads an enum. -/
def enumOfJson? (j : Json) : Option NamedType :=
  match j.record? ["def_location", "description", "name", "values"] with
  | some [location, description, name, values] => do
    let h ← headerOfJson? location description name
    let values ← Json.required? (Keyed.ofJson? EnumValue.ofJson?) values
    return .defined h (.enum values)
  | _ => none

/-- Reads an input object. -/
def inputObjectOfJson? (j : Json) : Option NamedType :=
  match j.record? ["def_location", "description", "fields", "name"] with
  | some [location, description, fields, name] => do
    let h ← headerOfJson? location description name
    let fields ← Json.required? (Keyed.ofJson? InputValue.ofJson?) fields
    return .defined h (.inputObject fields)
  | _ => none

/-- Reads an object or an interface. -/
def compositeOfJson? (body : Keyed Field → List String → Body) (j : Json) : Option NamedType :=
  match j.record? ["def_location", "description", "fields", "interfaces", "name"] with
  | some [location, description, fields, interfaces, name] => do
    let h ← headerOfJson? location description name
    let fields ← Json.required? (Keyed.ofJson? Field.ofJson?) fields
    let interfaces ← Json.required? (Json.list? Json.string?) interfaces
    return .defined h (body fields interfaces)
  | _ => none

/-- Reads a union. -/
def unionOfJson? (j : Json) : Option NamedType :=
  match j.record? ["def_location", "description", "members", "name"] with
  | some [location, description, members, name] => do
    let h ← headerOfJson? location description name
    let members ← Json.required? (Keyed.ofJson? Location.ofJson?) members
    return .defined h (.union members)
  | _ => none

/-- Reads a type. -/
def ofJson? (j : Json) : Option NamedType :=
  match j.variant? with
  | some ("Scalar", some content) => scalarOfJson? content
  | some ("Enum", some content) => enumOfJson? content
  | some ("InputObject", some content) => inputObjectOfJson? content
  | some ("Interface", some content) => compositeOfJson? .interface content
  | some ("Object", some content) => compositeOfJson? .object content
  | some ("Union", some content) => unionOfJson? content
  | _ => (j.tagged? BuiltinScalar.all BuiltinScalar.tag).map .builtin

end NamedType

/-! ## Directives -/

/-- The identifier of a directive location in JSON. -/
def Sdl.DirectiveLocation.tag : Sdl.DirectiveLocation → String
  | .field => "Field"
  | .fragmentDefinition => "FragmentDefinition"
  | .fragmentSpread => "FragmentSpread"
  | .inlineFragment => "InlineFragment"
  | .mutation => "Mutation"
  | .query => "Query"
  | .subscription => "Subscription"
  | .variableDefinition => "VariableDefinition"
  | .argumentDefinition => "ArgumentDefinition"
  | .enum => "Enum"
  | .enumValue => "EnumValue"
  | .fieldDefinition => "FieldDefinition"
  | .inputFieldDefinition => "InputFieldDefinition"
  | .inputObject => "InputObject"
  | .interface => "Interface"
  | .object => "Object"
  | .scalar => "Scalar"
  | .schema => "Schema"
  | .union => "Union"

/-- The JSON form of a directive location. -/
def Sdl.DirectiveLocation.toJson (l : Sdl.DirectiveLocation) : Json := .string l.tag

/-- Reads a directive location. -/
def Sdl.DirectiveLocation.ofJson? (j : Json) : Option Sdl.DirectiveLocation :=
  j.tagged? Sdl.DirectiveLocation.all Sdl.DirectiveLocation.tag

/-- The JSON form of a directive. -/
def Directive.toJson (d : Directive) : Json :=
  .object [
    ("def_location", d.location.toJson),
    ("description", .ofString? d.description),
    ("locations", .array (d.locations.map Sdl.DirectiveLocation.toJson)),
    ("name", .string d.name),
    ("parameters", d.parameters.toJson InputValue.toJson),
    ("repeatable", .bool d.repeatable)]

/-- Reads a directive. -/
def Directive.ofJson? (j : Json) : Option Directive :=
  match j.record? ["def_location", "description", "locations", "name", "parameters",
    "repeatable"] with
  | some [location, description, locations, name, parameters, repeatable] => do
    let location ← Json.required? Location.ofJson? location
    let description ← Json.optional? Json.string? description
    let locations ← Json.required? (Json.list? Sdl.DirectiveLocation.ofJson?) locations
    let name ← Json.required? Json.string? name
    let parameters ← Json.required? (Keyed.ofJson? InputValue.ofJson?) parameters
    let repeatable ← Json.required? Json.bool? repeatable
    return { location, description, locations, name, parameters, repeatable }
  | _ => none

end SchemaHint
