import SchemaHint.Type.Kind
import SchemaHint.Type.Member

/-!
# Named types

A type of a schema is a built-in scalar or a type that the schema defines: a header with its name,
description and location, and a body with its members.
-/

namespace SchemaHint

set_option autoImplicit false

/-- A scalar that every schema has. -/
inductive BuiltinScalar
  | boolean
  | float
  | id
  | int
  | string
deriving DecidableEq, Repr

namespace BuiltinScalar

/-- The built-in scalars in the order in which schemas list them. -/
def all : List BuiltinScalar := [boolean, float, id, int, string]

/-- The kind of a built-in scalar. -/
def kind : BuiltinScalar → TypeKind
  | boolean => .boolean
  | float => .float
  | id => .id
  | int => .int
  | string => .string

/-- The name of a built-in scalar. -/
def name (s : BuiltinScalar) : String := s.kind.name

end BuiltinScalar

/-- What a schema says about a type besides its members. -/
structure Header where
  location : Location
  description : Option String
  name : String
deriving DecidableEq, Repr

/-- The kind of a type that a schema defines, with its members. -/
inductive Body
  | scalar
  | enum (values : Keyed EnumValue)
  | inputObject (fields : Keyed InputValue)
  | interface (fields : Keyed Field) (interfaces : List String)
  | object (fields : Keyed Field) (interfaces : List String)
  /-- A union, with the place at which each member is listed. -/
  | union (members : Keyed Location)
deriving DecidableEq

/-- The kind of the types with a body. -/
def Body.kind : Body → TypeKind
  | .scalar => .scalar
  | .enum _ => .enum
  | .inputObject _ => .inputObject
  | .interface .. => .interface
  | .object .. => .object
  | .union _ => .union

/-- A type of a schema. -/
inductive NamedType
  | builtin (scalar : BuiltinScalar)
  | defined (header : Header) (body : Body)
deriving DecidableEq

namespace NamedType

/-- The name of a type. -/
def name : NamedType → String
  | .builtin s => s.name
  | .defined h _ => h.name

/-- The kind of a type. -/
def kind : NamedType → TypeKind
  | .builtin s => s.kind
  | .defined _ b => b.kind

/-- The description of a type. -/
def description : NamedType → Option String
  | .builtin _ => none
  | .defined h _ => h.description

/-- The place where a type is defined. -/
def location : NamedType → Location
  | .builtin _ => .builtin
  | .defined h _ => h.location

/-- Whether a type is an interface or a union. -/
def isAbstract (t : NamedType) : Bool := t.kind.isAbstract

/-- Whether fields can be selected on a type. -/
def isComposite (t : NamedType) : Bool := t.kind.isComposite

/-- Whether arguments and input fields can have a type. -/
def isInput (t : NamedType) : Bool := t.kind.isInput

/-- The fields of an object or an interface. -/
def fields? : NamedType → Option (Keyed Field)
  | .defined _ (.interface fields _) => some fields
  | .defined _ (.object fields _) => some fields
  | _ => none

/-- The names of the interfaces that an object or an interface implements. -/
def interfaceNames? : NamedType → Option (List String)
  | .defined _ (.interface _ interfaces) => some interfaces
  | .defined _ (.object _ interfaces) => some interfaces
  | _ => none

/-- The values of an enum. -/
def enumValues? : NamedType → Option (Keyed EnumValue)
  | .defined _ (.enum values) => some values
  | _ => none

/-- The fields of an input object. -/
def inputFields? : NamedType → Option (Keyed InputValue)
  | .defined _ (.inputObject fields) => some fields
  | _ => none

/-- The members of a union. -/
def members? : NamedType → Option (Keyed Location)
  | .defined _ (.union members) => some members
  | _ => none

end NamedType

end SchemaHint
