import SchemaHint.Text.Quoted
import SchemaHint.Type.Named

/-!
# Errors of schemas

Why definitions do not make up a schema: `ReferenceError` for a use of a type that does not fit,
`BuildError` for everything that stops the building. `message` gives the explanation of each.
-/

namespace SchemaHint

set_option autoImplicit false

/-- An operation of the query language. -/
inductive Operation
  | mutation
  | query
  | subscription
deriving DecidableEq, Repr

/-- The name of an operation, which is also the name of its root type unless a schema chooses. -/
def Operation.name : Operation → String
  | .mutation => "Mutation"
  | .query => "Query"
  | .subscription => "Subscription"

/-- A type that is chosen as a root, and the place of the choice. -/
structure RootChoice where
  location : Location
  typeName : String
deriving DecidableEq, Repr

/-- A use of a type name that does not fit. -/
inductive ReferenceError
  | notInterface (location : Location) (name typeName : String)
  | inputFieldOfOutputType (location : Location) (field name typeName : String)
  | outputFieldOfInputType (location : Location) (field name typeName : String)
  | parameterOfOutputType (location : Location) (parameter name : String)
  | memberNotObject (location : Location) (kind : TypeKind) (name typeName : String)
  | undefinedType (location : Location) (name : String)
deriving DecidableEq, Repr

namespace ReferenceError

/-- The place that an error tells. -/
def location : ReferenceError → Location
  | notInterface l .. => l
  | inputFieldOfOutputType l .. => l
  | outputFieldOfInputType l .. => l
  | parameterOfOutputType l .. => l
  | memberNotObject l .. => l
  | undefinedType l _ => l

/-- The explanation of an error. -/
def message : ReferenceError → String
  | notInterface _ name typeName =>
    "The `" ++ typeName ++ "` type declares that it implements `" ++ name ++
      "`, but that is not an interface type"
  | inputFieldOfOutputType _ field name typeName =>
    "Input fields can not be declared with a non-input type: The `" ++ typeName ++ "." ++ field ++
      "` field is an input field, but the `" ++ name ++ "` type is a non-input type."
  | outputFieldOfInputType _ field name typeName =>
    "Output fields can not be declared with an input type: The `" ++ typeName ++ "." ++ field ++
      "` field is an output field, but the `" ++ name ++ "` type is an input-type"
  | parameterOfOutputType _ parameter name =>
    "Parameters can only be declared with input-compatible types: The `" ++ parameter ++
      "` parameter was declared with the `" ++ name ++
      "` type, which is not an input-compatible type."
  | memberNotObject _ kind name typeName =>
    "Invalid union member type: The `" ++ typeName ++ "` type defines one of its members as `" ++
      name ++ "`, but this type is a " ++ kind.name ++
      " type and union members can only be object types."
  | undefinedType _ name => "There is no type defined with the name `" ++ name ++ "`"

end ReferenceError

/-- Why a system cannot open or read a file. -/
inductive SystemError
  | missing
  | notDirectory
  | isDirectory
  | nameTooLong
deriving DecidableEq, Repr

namespace SystemError

/-- The number of an error. -/
def code : SystemError → Nat
  | missing => 2
  | notDirectory => 20
  | isDirectory => 21
  | nameTooLong => 36

/-- The name of an error. -/
def name : SystemError → String
  | missing => "NotFound"
  | notDirectory => "NotADirectory"
  | isDirectory => "IsADirectory"
  | nameTooLong => "InvalidFilename"

/-- The explanation of an error. -/
def message : SystemError → String
  | missing => "No such file or directory"
  | notDirectory => "Not a directory"
  | isDirectory => "Is a directory"
  | nameTooLong => "File name too long"

end SystemError

/-- Why a path leads nowhere: the system says so, or the path holds a NUL, with which no system is
asked. -/
inductive PathError
  | system (e : SystemError)
  | holdsNul
deriving DecidableEq, Repr

/-- The explanation of an error. -/
def PathError.message : PathError → String
  | .system e => e.message
  | .holdsNul => "file name contained an unexpected NUL byte"

/-- Why a file cannot be read as a text. -/
inductive ReadFailure
  | path (e : PathError)
  | notText
deriving DecidableEq, Repr

/-- The explanation of a failure. -/
def ReadFailure.message : ReadFailure → String
  | .path (.system e) => e.message ++ " (os error " ++ toString e.code ++ ")"
  | .path .holdsNul => PathError.holdsNul.message
  | .notText => "stream did not contain valid UTF-8"

/-- Why definitions do not make up a schema. -/
inductive BuildError
  | duplicateDirective (name : String) (first second : Location)
  | duplicateEnumValue (typeName : String) (first second : Location) (value : String)
  | duplicateField (first second : Location) (field typeName : String)
  | duplicateInterface (location : Location) (interface typeName : String)
  | duplicateOperation (operation : Operation) (first second : RootChoice)
  | duplicateType (name : String) (first second : Location)
  | duplicateMember (first second : Location) (member typeName : String)
  | emptyEnum (location : Location) (typeName : String)
  | extensionOfUndefinedType (location : Location) (typeName : String)
  | extensionOfOtherKind (kind : TypeKind) (location : Location) (typeName : String)
  | reservedDirectiveName (location : Location) (name : String)
  | reservedFieldName (location : Location) (field typeName : String)
  | reservedTypeName (location : Location) (name : String)
  | implementsItself (location : Location) (typeName : String)
  | noQueryType
  | rootNotObject (operation : Operation) (root : RootChoice) (kind : TypeKind)
  | sharedRoot (typeName : String) (first second : Operation)
  | malformed (path : Option String)
  | redefinedBuiltinDirective (name : String) (location : Location)
  | unreadable (path : String) (failure : ReadFailure)
  | badReferences (errors : List ReferenceError)
  | undefinedRoot (operation : Operation) (root : RootChoice)
deriving DecidableEq, Repr

/-- The explanation of an error. -/
def BuildError.message : BuildError → String
  | duplicateDirective name .. =>
    "Multiple directives were defined with the name `@" ++ name ++ "`"
  | duplicateEnumValue typeName _ _ value =>
    "The `" ++ typeName ++ "` enum defines the `" ++ value ++ "` value more than once"
  | duplicateField _ _ field typeName =>
    "The `" ++ typeName ++ "` type defines the `" ++ field ++ "` field more than once"
  | duplicateInterface _ interface typeName =>
    "The `" ++ typeName ++ "` type declares that it implements the `" ++ interface ++
      "` interface more than once"
  | duplicateOperation operation .. =>
    "The " ++ operation.name ++ " root operation type was defined more than once"
  | duplicateType name .. => "Multiple GraphQL types with the name `" ++ name ++ "` were defined"
  | duplicateMember _ _ member typeName =>
    "The `" ++ typeName ++ "` union specifies `" ++ member ++ "` as a member more than once"
  | emptyEnum _ typeName => "The `" ++ typeName ++ "` enum must define one or more unique values"
  | extensionOfUndefinedType _ typeName =>
    "Attempted to extend the `" ++ typeName ++ "` type, which is not defined"
  | extensionOfOtherKind kind _ typeName =>
    "Attempted to extend the `" ++ typeName ++
      "` type with an extension of a different kind: `" ++ typeName ++ "` is a(n) " ++ kind.name ++
      " type"
  | reservedDirectiveName .. => "Custom directive names must not start with `__`"
  | reservedFieldName .. => "Field names must not start with `__`"
  | reservedTypeName .. => "Type names must not start with `__`"
  | implementsItself _ typeName =>
    "Interface types may not declare that they implement themselves: The `" ++ typeName ++
      "` interface does just that"
  | noQueryType => "Attempted to build a schema that has no Query operation type defined"
  | rootNotObject operation root kind =>
    "The " ++ operation.name ++ " root operation type must be an object type, but `" ++
      root.typeName ++ "` is a(n) " ++ kind.name ++ " type"
  | sharedRoot typeName first second =>
    "The " ++ first.name ++ " and " ++ second.name ++
      " root operations are defined with the same GraphQL type (`" ++ typeName ++
      "`), but this is not allowed in GraphQL. All root operations must be defined with " ++
      "different types."
  | malformed _ => "Error parsing schema string"
  | redefinedBuiltinDirective name _ =>
    "Attempted to redefine the builtin `@" ++ name ++ "` directive"
  | unreadable path failure =>
    "Failure while trying to read the schema file at " ++ Text.quoted path ++ ": " ++
      failure.message
  | badReferences errors =>
    "Encountered the following type-validation errors while building the schema:\n\n" ++
      "\n".intercalate (errors.map fun e => "  * " ++ e.message)
  | undefinedRoot operation root =>
    "The " ++ operation.name ++ " root operation type is declared as `" ++ root.typeName ++
      "`, but no such type is defined"

end SchemaHint
