import SchemaHint.Keyed
import SchemaHint.Sdl.Document
import SchemaHint.Type.Annotated

/-!
# Members of types

Input values (arguments and input fields), fields and enum values, with the functions that make
them from their definitions in a schema text.
-/

namespace SchemaHint

set_option autoImplicit false

/-- An argument of a field or a directive, or a field of an input object. -/
structure InputValue where
  location : Location
  /-- The text of the default value. -/
  default : Option String
  description : Option String
  name : String
  type : AnnotatedType
deriving DecidableEq

/-- The member that a definition in a text with the given path makes. -/
def InputValue.ofDef (path : Option String) (d : Sdl.InputDef) : InputValue :=
  let location := Location.ofPosition path d.position
  { location
    default := d.default.map Sdl.Value.text
    description := d.description
    name := d.name
    type := AnnotatedType.ofTypeExpr location d.type }

/-- An argument that the language defines. -/
def InputValue.builtin (name : String) (type : AnnotatedType) (description : String)
    (default : Option String) : InputValue :=
  { location := .builtin, default, description := some description, name, type }

/-- The arguments by name. A later argument takes the place of an earlier one of its name. -/
def parametersOf (arguments : List InputValue) : Keyed InputValue :=
  Keyed.ofList (arguments.map fun a => (a.name, a))

/-- The reason that a `deprecated` directive without one gives. -/
def defaultDeprecation : String := "No longer supported"

/-- The reason for which an element with the given directives is deprecated, if it is. -/
def deprecationReason? (directives : List Sdl.Application) : Option String :=
  (directives.find? fun d => d.name = "deprecated").map fun d =>
    match d.arguments.lookup "reason" with
    | some (.string reason) => reason
    | _ => defaultDeprecation

/-- A field of an object or an interface. -/
structure Field where
  location : Location
  deprecation : Option String
  description : Option String
  name : String
  parameters : Keyed InputValue
  type : AnnotatedType
deriving DecidableEq

/-- The member that a definition in a text with the given path makes. -/
def Field.ofDef (path : Option String) (d : Sdl.FieldDef) : Field :=
  let location := Location.ofPosition path d.position
  { location
    deprecation := deprecationReason? d.directives
    description := d.description
    name := d.name
    parameters := parametersOf (d.arguments.map (InputValue.ofDef path))
    type := AnnotatedType.ofTypeExpr location d.type }

/-- A field that the language defines. -/
def Field.builtin (name : String) (type : AnnotatedType) (description : String)
    (arguments : List InputValue) : Field :=
  { location := .builtin
    deprecation := none
    description := some description
    name
    parameters := parametersOf arguments
    type }

/-- A value of an enum. -/
structure EnumValue where
  location : Location
  deprecation : Option String
  description : Option String
  name : String
deriving DecidableEq

/-- The member that a definition in a text with the given path makes. -/
def EnumValue.ofDef (path : Option String) (d : Sdl.EnumValueDef) : EnumValue :=
  { location := Location.ofPosition path d.position
    deprecation := deprecationReason? d.directives
    description := d.description
    name := d.name }

end SchemaHint
