/-!
# Kinds of types

The kinds that the type system tells apart, and which of them can be selected on or given as input.
-/

namespace SchemaHint

set_option autoImplicit false

/-- The kind of a type; each built-in scalar is a kind of its own. -/
inductive TypeKind
  | boolean
  | enum
  | float
  | id
  | inputObject
  | int
  | interface
  | object
  | scalar
  | string
  | union
deriving DecidableEq, Repr

namespace TypeKind

/-- Every kind. -/
def all : List TypeKind :=
  [boolean, enum, float, id, inputObject, int, interface, object, scalar, string, union]

/-- The name of a kind, which is the name of the type for a built-in scalar. -/
def name : TypeKind → String
  | boolean => "Boolean"
  | enum => "Enum"
  | float => "Float"
  | id => "ID"
  | inputObject => "InputObject"
  | int => "Int"
  | interface => "Interface"
  | object => "Object"
  | scalar => "Scalar"
  | string => "String"
  | union => "Union"

/-- Interfaces and unions, whose values are of some object type. -/
def isAbstract : TypeKind → Bool
  | interface | union => true
  | _ => false

/-- The kinds on which fields can be selected. -/
def isComposite : TypeKind → Bool
  | interface | object | union => true
  | _ => false

/-- The kinds that arguments and input fields can have. -/
def isInput (k : TypeKind) : Bool := !k.isComposite

end TypeKind

end SchemaHint
