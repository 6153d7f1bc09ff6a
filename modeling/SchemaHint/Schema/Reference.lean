import SchemaHint.Schema.Error
import SchemaHint.Type.Directive

/-!
# References between types

A `Reference` is a use of a type name by a member of a type or a directive. `Reference.error?` says
what is wrong with it in a given list of types, and `referenceErrors` goes through all of them.
-/

namespace SchemaHint

set_option autoImplicit false

/-- What a type name is used for. Where the used name and the element that uses it are written in
different places, `defined` is the place of the element. -/
inductive Use
  /-- The type of the given name implements the interface. -/
  | interfaceOf (typeName : String)
  /-- A field of an object or interface has the type. -/
  | outputField (typeName field : String) (defined : Location)
  /-- A field of an input object has the type. -/
  | inputField (typeName field : String) (defined : Location)
  /-- An argument of a field or directive has the type. -/
  | parameter (parameter : String) (defined : Location)
  /-- The union of the given name has the type as a member. -/
  | memberOf (typeName : String)
deriving DecidableEq, Repr

/-- A use of a type name, and where it is written. -/
structure Reference where
  name : String
  location : Location
  use : Use
deriving DecidableEq, Repr

namespace Reference

/-- The reference of an annotation. -/
def ofAnnotated (a : AnnotatedType) (use : Use) : Reference :=
  ⟨a.innermostName, a.innermostLocation, use⟩

/-- The reference of an argument. -/
def ofParameter (p : InputValue) : Reference := ofAnnotated p.type (.parameter p.name p.location)

/-- The references of a field: its own type, and then those of its arguments. -/
def ofField (typeName : String) (f : Field) : List Reference :=
  ofAnnotated f.type (.outputField typeName f.name f.location) ::
    f.parameters.values.map ofParameter

/-- The references of an object or an interface. -/
def ofComposite (h : Header) (fields : Keyed Field) (interfaces : List String) : List Reference :=
  interfaces.map (⟨·, h.location, .interfaceOf h.name⟩) ++
    fields.values.flatMap (ofField h.name)

/-- The references of a type, in the order of its members. -/
def ofType : NamedType → List Reference
  | .defined h (.inputObject fields) =>
    fields.values.map fun f => ofAnnotated f.type (.inputField h.name f.name f.location)
  | .defined h (.interface fields interfaces) => ofComposite h fields interfaces
  | .defined h (.object fields interfaces) => ofComposite h fields interfaces
  | .defined h (.union members) => members.entries.map fun m => ⟨m.1, m.2, .memberOf h.name⟩
  | _ => []

/-- The references of a directive. -/
def ofDirective (d : Directive) : List Reference := d.parameters.values.map ofParameter

/-- What is wrong with the use of a type that is defined, if anything is. -/
def misuse? (r : Reference) (t : NamedType) : Option ReferenceError :=
  match r.use with
  | .interfaceOf typeName =>
    if t.kind = .interface then none else some (.notInterface r.location r.name typeName)
  | .outputField typeName field defined =>
    if t.kind = .inputObject then some (.outputFieldOfInputType defined field r.name typeName)
    else none
  | .inputField typeName field defined =>
    if t.isInput then none else some (.inputFieldOfOutputType defined field r.name typeName)
  | .parameter parameter defined =>
    if t.isInput then none else some (.parameterOfOutputType defined parameter r.name)
  | .memberOf typeName =>
    if t.kind = .object then none else some (.memberNotObject r.location t.kind r.name typeName)

/-- What is wrong with a reference among the given types, if anything is. -/
def error? (types : Keyed NamedType) (r : Reference) : Option ReferenceError :=
  match types.get? r.name with
  | none => some (.undefinedType r.location r.name)
  | some t => r.misuse? t

end Reference

/-- Every reference of the given types and directives, type by type and then directive by
directive. -/
def allReferences (types : Keyed NamedType) (directives : Keyed Directive) : List Reference :=
  types.values.flatMap Reference.ofType ++ directives.values.flatMap Reference.ofDirective

/-- The errors of all references, in order. -/
def referenceErrors (types : Keyed NamedType) (directives : Keyed Directive) :
    List ReferenceError :=
  (allReferences types directives).filterMap (Reference.error? types)

end SchemaHint
