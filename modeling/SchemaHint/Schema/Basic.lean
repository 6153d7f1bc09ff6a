import SchemaHint.Type.Directive
import SchemaHint.Type.Named

/-!
# Schemas

A schema holds types and directives by name and the names of its root types. `possibleTypes` lists
the object types that a value of a type can have.
-/

namespace SchemaHint

set_option autoImplicit false

/-- The types and directives that documents are written against. -/
structure Schema where
  directives : Keyed Directive
  mutation : Option String
  query : String
  subscription : Option String
  types : Keyed NamedType

namespace Schema

/-- The type of a name. -/
def type? (s : Schema) (name : String) : Option NamedType := s.types.get? name

/-- The directive of a name. -/
def directive? (s : Schema) (name : String) : Option Directive := s.directives.get? name

/-- The type that queries start from. -/
def queryType? (s : Schema) : Option NamedType := s.type? s.query

/-- The type that mutations start from. -/
def mutationType? (s : Schema) : Option NamedType := s.mutation.bind s.type?

/-- The type that subscriptions start from. -/
def subscriptionType? (s : Schema) : Option NamedType := s.subscription.bind s.type?

/-- Whether a type is the one that queries start from. -/
def isQueryType (s : Schema) (t : NamedType) : Bool := t.isComposite && t.name = s.query

/-- The type of the name inside all lists of an annotation. -/
def innermostType? (s : Schema) (a : AnnotatedType) : Option NamedType := s.type? a.innermostName

/-- Whether a type is an object that implements the interface of the given name. -/
def implementsAsObject (interface : String) : NamedType → Bool
  | .defined _ (.object _ interfaces) => interfaces.contains interface
  | _ => false

/-- The types that are listed as members of a union. -/
def memberTypes (s : Schema) (members : Keyed Location) : List NamedType :=
  members.keys.filterMap s.type?

/-- The object types that a value of the given type can have: the members of a union, the objects
that implement an interface, an object itself. -/
def possibleTypes (s : Schema) (t : NamedType) : List NamedType :=
  match t with
  | .defined h (.interface ..) => s.types.values.filter (implementsAsObject h.name)
  | .defined _ (.object ..) => [t]
  | .defined _ (.union members) => s.memberTypes members
  | _ => []

/-- The interfaces among the types of the given names. -/
def interfaceTypes (s : Schema) (names : List String) : List NamedType :=
  (names.filterMap s.type?).filter fun t => t.kind = .interface

end Schema

end SchemaHint
