import SchemaHint.Sdl.TypeExpr
import SchemaHint.Sdl.Value

/-!
# Schema documents

The definitions of a schema text. A type definition and a type extension share their `Body`, the
part that adds members to a type.
-/

namespace SchemaHint.Sdl

set_option autoImplicit false

/-- A directive that is applied to an element, with its arguments. -/
structure Application where
  name : String
  arguments : List (String × Value)

/-- An argument or an input field. -/
structure InputDef where
  position : Position
  description : Option String
  name : String
  type : TypeExpr
  default : Option Value
  directives : List Application

/-- A field of an object or an interface. -/
structure FieldDef where
  position : Position
  description : Option String
  name : String
  arguments : List InputDef
  type : TypeExpr
  directives : List Application

/-- A value of an enum. -/
structure EnumValueDef where
  position : Position
  description : Option String
  name : String
  directives : List Application

/-- The kind of a type and the members that a definition or an extension gives it. -/
inductive Body
  | scalar
  | object (interfaces : List String) (fields : List FieldDef)
  | interface (interfaces : List String) (fields : List FieldDef)
  | union (members : List String)
  | enum (values : List EnumValueDef)
  | inputObject (fields : List InputDef)

/-- The definition of a type. -/
structure TypeDef where
  position : Position
  description : Option String
  name : String
  directives : List Application
  body : Body

/-- An addition to a type that is defined elsewhere. -/
structure TypeExtension where
  position : Position
  name : String
  directives : List Application
  body : Body

/-- The element of a document that a directive can be applied to. -/
inductive DirectiveLocation
  | field
  | fragmentDefinition
  | fragmentSpread
  | inlineFragment
  | mutation
  | query
  | subscription
  | variableDefinition
  | argumentDefinition
  | enum
  | enumValue
  | fieldDefinition
  | inputFieldDefinition
  | inputObject
  | interface
  | object
  | scalar
  | schema
  | union
deriving DecidableEq, Repr

namespace DirectiveLocation

/-- Every location, those of query documents first. -/
def all : List DirectiveLocation := [
  field, fragmentDefinition, fragmentSpread, inlineFragment, mutation, query, subscription,
  variableDefinition, argumentDefinition, enum, enumValue, fieldDefinition, inputFieldDefinition,
  inputObject, interface, object, scalar, schema, union]

/-- The word for a location in schema texts. -/
def word : DirectiveLocation → String
  | field => "FIELD"
  | fragmentDefinition => "FRAGMENT_DEFINITION"
  | fragmentSpread => "FRAGMENT_SPREAD"
  | inlineFragment => "INLINE_FRAGMENT"
  | mutation => "MUTATION"
  | query => "QUERY"
  | subscription => "SUBSCRIPTION"
  | variableDefinition => "VARIABLE_DEFINITION"
  | argumentDefinition => "ARGUMENT_DEFINITION"
  | enum => "ENUM"
  | enumValue => "ENUM_VALUE"
  | fieldDefinition => "FIELD_DEFINITION"
  | inputFieldDefinition => "INPUT_FIELD_DEFINITION"
  | inputObject => "INPUT_OBJECT"
  | interface => "INTERFACE"
  | object => "OBJECT"
  | scalar => "SCALAR"
  | schema => "SCHEMA"
  | union => "UNION"

/-- The location of a word. -/
def ofWord? (s : String) : Option DirectiveLocation := all.find? fun l => l.word = s

end DirectiveLocation

/-- The definition of a directive. -/
structure DirectiveDef where
  position : Position
  description : Option String
  name : String
  arguments : List InputDef
  repeatable : Bool
  locations : List DirectiveLocation

/-- The choice of the root types. -/
structure SchemaDef where
  position : Position
  directives : List Application
  query : Option String
  mutation : Option String
  subscription : Option String

/-- A definition of a schema document. -/
inductive Definition
  | schema (d : SchemaDef)
  | type (d : TypeDef)
  | extension (d : TypeExtension)
  | directive (d : DirectiveDef)

/-- The definitions of a schema text, in order. -/
abbrev Document := List Definition

end SchemaHint.Sdl
