import SchemaHint.Schema.Basic

/-!
# Fields of types, those of the language included

`Schema.field?` finds the field of a type by name. Besides the fields that the type declares there
are three that the language adds: two on the query root and one on every composite type.
-/

namespace SchemaHint

set_option autoImplicit false

namespace MetaField

/-- The field of the query root that describes the schema. -/
def schema : Field := .builtin "__schema" (.builtin "__Schema" false)
  "Access the current type schema of this server." []

/-- The field of the query root that describes a type. -/
def type : Field := .builtin "__type" (.builtin "__Type" true)
  "Request the type information of a single type."
  [.builtin "name" (.builtin "String" false) "The name of the type to look up." none]

/-- The field of every composite type that tells the object type of a value. -/
def typename : Field := .builtin "__typename" (.builtin "String" false)
  "The name of the current Object type at runtime." []

end MetaField

/-- The field that a selection of the given name on a type stands for. -/
def Schema.field? (s : Schema) (parent : NamedType) (name : String) : Option Field :=
  if name = "__schema" && s.isQueryType parent then some MetaField.schema
  else if name = "__type" && s.isQueryType parent then some MetaField.type
  else if name = "__typename" && parent.isComposite then some MetaField.typename
  else parent.fields?.bind fun fields => fields.get? name

end SchemaHint
