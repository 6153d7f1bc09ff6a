import SchemaHint.Schema.Basic
import SchemaHint.Schema.Reference
import SchemaHint.Sdl.Parser

/-!
# Building schemas

A `Draft` takes up definitions one by one. Type extensions wait until all definitions are there,
because they may come before what they extend; `Draft.build` merges them in the order in which they
came, finds the root types, checks every reference and gives the schema.
-/

namespace SchemaHint

set_option autoImplicit false

/-- Names that start with two underscores belong to the language. -/
def isReserved (name : String) : Bool := ['_', '_'].isPrefixOf name.toList

/-! ## Members -/

/-- Adds the values that an enum lists. -/
def addEnumValues (path : Option String) (typeName : String) (values : Keyed EnumValue)
    (defs : List Sdl.EnumValueDef) : Except BuildError (Keyed EnumValue) :=
  defs.foldlM (fun values d =>
    let v := EnumValue.ofDef path d
    values.add v.name v fun old => .duplicateEnumValue typeName old.location v.location v.name)
    values

/-- Adds the fields that an input object lists. -/
def addInputFields (path : Option String) (typeName : String) (fields : Keyed InputValue)
    (defs : List Sdl.InputDef) : Except BuildError (Keyed InputValue) :=
  defs.foldlM (fun fields d =>
    let f := InputValue.ofDef path d
    fields.add f.name f fun old => .duplicateField old.location f.location f.name typeName)
    fields

/-- Adds the fields that an object or an interface lists. -/
def addFields (path : Option String) (typeName : String) (fields : Keyed Field)
    (defs : List Sdl.FieldDef) : Except BuildError (Keyed Field) :=
  defs.foldlM (fun fields d =>
    let f := Field.ofDef path d
    if isReserved f.name then .error (.reservedFieldName f.location f.name typeName)
    else
      fields.add f.name f fun old => .duplicateField old.location f.location f.name typeName)
    fields

/-- Adds the interfaces that a definition or extension at a location lists. -/
def addInterfaces (typeName : String) (location : Location) (interfaces : List String)
    (names : List String) : Except BuildError (List String) :=
  names.foldlM (fun interfaces name =>
    if name = typeName then .error (.implementsItself location typeName)
    else if interfaces.contains name then .error (.duplicateInterface location name typeName)
    else .ok (interfaces ++ [name]))
    interfaces

/-- Adds the members that a union's definition or extension at a location lists. -/
def addMembers (typeName : String) (location : Location) (members : Keyed Location)
    (names : List String) : Except BuildError (Keyed Location) :=
  names.foldlM (fun members name =>
    members.add name location fun old => .duplicateMember old location name typeName)
    members

/-- The body without members that a definition starts from. -/
def Body.start : Sdl.Body → Body
  | .scalar => .scalar
  | .object .. => .object .empty []
  | .interface .. => .interface .empty []
  | .union _ => .union .empty
  | .enum _ => .enum .empty
  | .inputObject _ => .inputObject .empty

/-- Adds the members that a definition or extension at a location lists, which must be of the same
kind. -/
def Body.extend (path : Option String) (typeName : String) (location : Location) :
    Body → Sdl.Body → Except BuildError Body
  | .scalar, .scalar => .ok .scalar
  | .enum values, .enum defs => do
    let values ← addEnumValues path typeName values defs
    return .enum values
  | .inputObject fields, .inputObject defs => do
    let fields ← addInputFields path typeName fields defs
    return .inputObject fields
  | .interface fields interfaces, .interface names defs => do
    let fields ← addFields path typeName fields defs
    let interfaces ← addInterfaces typeName location interfaces names
    return .interface fields interfaces
  | .object fields interfaces, .object names defs => do
    let fields ← addFields path typeName fields defs
    let interfaces ← addInterfaces typeName location interfaces names
    return .object fields interfaces
  | .union members, .union names => do
    let members ← addMembers typeName location members names
    return .union members
  | body, _ => .error (.extensionOfOtherKind body.kind location typeName)

/-- Whether a body is that of an enum without values. -/
def Body.isEmptyEnum : Body → Bool
  | .enum values => values.entries.isEmpty
  | _ => false

/-! ## Definitions -/

/-- What has been loaded of a schema. -/
structure Draft where
  directives : Keyed Directive
  /-- The extensions in the order in which they came, each with the path of its text. -/
  extensions : List (Option String × Sdl.TypeExtension)
  mutation : Option RootChoice
  query : Option RootChoice
  subscription : Option RootChoice
  types : Keyed NamedType

namespace Draft

/-- The types that every schema has. -/
def builtinTypes : Keyed NamedType :=
  Keyed.ofList (BuiltinScalar.all.map fun s => (s.name, .builtin s))

/-- The directives that every schema has. -/
def builtinDirectives : Keyed Directive :=
  Keyed.ofList (Directive.builtins.map fun d => (d.name, d))

/-- The draft to start from. -/
def start : Draft :=
  { directives := builtinDirectives
    extensions := []
    mutation := none
    query := none
    subscription := none
    types := builtinTypes }

/-- Takes up a type definition. -/
def addType (path : Option String) (draft : Draft) (d : Sdl.TypeDef) : Except BuildError Draft := do
  let location := Location.ofPosition path d.position
  let body ← (Body.start d.body).extend path d.name location d.body
  if body.isEmptyEnum then throw (.emptyEnum location d.name)
  if isReserved d.name then throw (.reservedTypeName location d.name)
  let types ← draft.types.add d.name (.defined ⟨location, d.description, d.name⟩ body)
    fun old => .duplicateType d.name old.location location
  return { draft with types }

/-- Takes up a directive definition. -/
def addDirective (path : Option String) (draft : Draft) (d : Sdl.DirectiveDef) :
    Except BuildError Draft :=
  let location := Location.ofPosition path d.position
  match draft.directives.get? d.name with
  | some old =>
    if old.isBuiltin then .error (.redefinedBuiltinDirective d.name location)
    else .error (.duplicateDirective d.name old.location location)
  | none =>
    if isReserved d.name then .error (.reservedDirectiveName location d.name)
    else .ok { draft with directives := draft.directives.insert d.name (.ofDef path d) }

/-- The choice of a root type after another one at a location, of which there may be only one. -/
def chooseRoot (operation : Operation) (location : Location) (chosen : Option RootChoice)
    (typeName : Option String) : Except BuildError (Option RootChoice) :=
  match typeName, chosen with
  | none, _ => .ok chosen
  | some name, none => .ok (some ⟨location, name⟩)
  | some name, some first => .error (.duplicateOperation operation first ⟨location, name⟩)

/-- Takes up the choice of the root types. -/
def addRoots (path : Option String) (draft : Draft) (d : Sdl.SchemaDef) :
    Except BuildError Draft := do
  let location := Location.ofPosition path d.position
  let query ← chooseRoot .query location draft.query d.query
  let mutation ← chooseRoot .mutation location draft.mutation d.mutation
  let subscription ← chooseRoot .subscription location draft.subscription d.subscription
  return { draft with query, mutation, subscription }

/-- Takes up a definition of a text with the given path. -/
def add (path : Option String) (draft : Draft) : Sdl.Definition → Except BuildError Draft
  | .schema d => draft.addRoots path d
  | .type d => draft.addType path d
  | .extension d => .ok { draft with extensions := draft.extensions ++ [(path, d)] }
  | .directive d => draft.addDirective path d

/-- Takes up the definitions of a document in order. -/
def addDocument (path : Option String) (draft : Draft) (d : Sdl.Document) :
    Except BuildError Draft :=
  d.foldlM (add path) draft

/-- Takes up the definitions of a text. -/
def load (path : Option String) (draft : Draft) (text : String) : Except BuildError Draft :=
  match Sdl.Document.parse? text with
  | none => .error (.malformed path)
  | some d => draft.addDocument path d

/-! ## The end of the loading -/

/-- Merges an extension into the type that it extends. -/
def merge (types : Keyed NamedType) (path : Option String) (e : Sdl.TypeExtension) :
    Except BuildError (Keyed NamedType) :=
  let location := Location.ofPosition path e.position
  match types.get? e.name with
  | none => .error (.extensionOfUndefinedType location e.name)
  | some (.builtin s) => .error (.extensionOfOtherKind s.kind location e.name)
  | some (.defined h body) => do
    let body ← body.extend path e.name location e.body
    return types.insert e.name (.defined h body)

/-- Merges extensions in order. -/
def mergeAll (types : Keyed NamedType) (extensions : List (Option String × Sdl.TypeExtension)) :
    Except BuildError (Keyed NamedType) :=
  extensions.foldlM (fun types e => merge types e.1 e.2) types

/-- The name of the root type of an operation: the one that was chosen, which must be an object,
else the object type with the name of the operation, if there is one. -/
def rootOf (types : Keyed NamedType) (operation : Operation) (chosen : Option RootChoice) :
    Except BuildError (Option String) :=
  match chosen with
  | none =>
    match types.get? operation.name with
    | some t => .ok (if t.kind = .object then some operation.name else none)
    | none => .ok none
  | some root =>
    match types.get? root.typeName with
    | some t =>
      if t.kind = .object then .ok (some root.typeName)
      else .error (.rootNotObject operation root t.kind)
    | none => .error (.undefinedRoot operation root)

/-- The error of two operations with the same root, if there are two. -/
def sharedRoot? (query : String) (mutation subscription : Option String) : Option BuildError :=
  if mutation = some query then some (.sharedRoot query .query .mutation)
  else if subscription = some query then some (.sharedRoot query .query .subscription)
  else
    match mutation with
    | none => none
    | some m =>
      if subscription = some m then some (.sharedRoot m .mutation .subscription) else none

/-- The schema of what has been loaded. -/
def build (draft : Draft) : Except BuildError Schema := do
  let types ← mergeAll draft.types draft.extensions
  let query ← match ← rootOf types .query draft.query with
    | some name => .ok name
    | none => .error .noQueryType
  let mutation ← rootOf types .mutation draft.mutation
  let subscription ← rootOf types .subscription draft.subscription
  if let some e := sharedRoot? query mutation subscription then throw e
  let errors := referenceErrors types draft.directives
  if !errors.isEmpty then throw (.badReferences errors)
  return { directives := draft.directives, mutation, query, subscription, types }

end Draft

end SchemaHint
