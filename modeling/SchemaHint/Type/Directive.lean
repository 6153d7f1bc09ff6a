import SchemaHint.Type.Member

/-!
# Directives

A directive of a schema, and the four that every schema has.
-/

namespace SchemaHint

set_option autoImplicit false

open Sdl (DirectiveLocation)

/-- A directive that documents can apply. -/
structure Directive where
  location : Location
  description : Option String
  /-- The elements that it can be applied to, in the order of its definition. -/
  locations : List DirectiveLocation
  name : String
  parameters : Keyed InputValue
  repeatable : Bool
deriving DecidableEq

namespace Directive

/-- The directive that a definition in a text with the given path makes. -/
def ofDef (path : Option String) (d : Sdl.DirectiveDef) : Directive :=
  { location := Location.ofPosition path d.position
    description := d.description
    locations := d.locations
    name := d.name
    parameters := parametersOf (d.arguments.map (InputValue.ofDef path))
    repeatable := d.repeatable }

/-- A directive that the language defines. -/
def builtin (name description : String) (arguments : List InputValue)
    (locations : List DirectiveLocation) : Directive :=
  { location := .builtin
    description := some description
    locations
    name
    parameters := parametersOf arguments
    repeatable := false }

/-- Whether the language defines a directive. -/
def isBuiltin (d : Directive) : Bool := d.location = .builtin

/-- Whether a directive can be applied at a location. -/
def isValidAt (d : Directive) (l : DirectiveLocation) : Bool := d.locations.contains l

/-- Leaves an element out if its argument is true. -/
def skipIf : Directive := builtin "skip"
  "Directs the executor to skip this field or fragment when the `if` argument is true."
  [.builtin "if" (.builtin "Boolean" false) "Skipped when true." none]
  [.field, .fragmentSpread, .inlineFragment]

/-- Leaves an element out unless its argument is true. -/
def includeIf : Directive := builtin "include"
  "Directs the executor to include this field or fragment only when the `if` argument is true."
  [.builtin "if" (.builtin "Boolean" false) "Included when true." none]
  [.field, .fragmentSpread, .inlineFragment]

/-- Marks an element as no longer supported. -/
def deprecated : Directive := builtin "deprecated"
  "Marks an element of a GraphQL schema as no longer supported."
  [.builtin "reason" (.builtin "String" true)
    ("Explains why this element was deprecated, usually also including a suggestion for how to " ++
      "access supported similar data.")
    (some (Text.quoted defaultDeprecation))]
  [.argumentDefinition, .enumValue, .fieldDefinition, .inputFieldDefinition]

/-- Tells where the behaviour of a scalar is specified. -/
def specifiedBy : Directive := builtin "specifiedBy"
  "Exposes a URL that specifies the behavior of this scalar."
  [.builtin "url" (.builtin "String" false) "The URL that specifies the behavior of this scalar."
    none]
  [.scalar]

/-- The directives that every schema has. -/
def builtins : List Directive := [skipIf, includeIf, deprecated, specifiedBy]

end Directive

end SchemaHint
