import SchemaHint.Candidate.Basic
import SchemaHint.Context.Basic

/-!
# Candidates at a position

`generate` lists what could stand at the leaf of a chain, given the context there. It answers
nothing where no suggestion applies, or where the context lacks what they are drawn from.
-/

namespace SchemaHint

set_option autoImplicit false

namespace Candidate

open Chain (Kind State)
open Sdl (DirectiveLocation)

/-! ## Names -/

/-- What a document can start with. -/
def documentKeywords : List Candidate :=
  ["query", "mutation", "subscription", "fragment", "\x7b"].map fun text => { text }

/-- The candidate of a field. -/
def ofField (s : Schema) (f : Field) : Candidate :=
  { text := f.name
    type := some (.ofAnnotated s f.type)
    description := f.description
    deprecation := f.deprecation }

/-- The candidate of an argument or an input field. -/
def ofInputValue (s : Schema) (v : InputValue) : Candidate :=
  { text := v.name, type := some (.ofAnnotated s v.type), description := v.description }

/-- The candidate of a type. -/
def ofType (t : NamedType) : Candidate := { text := t.name, description := t.description }

/-- The fields that can be selected on the parent type. `__typename` is offered only where it tells
something, on abstract types. -/
def fieldNames (s : Schema) (ctx : Context) : Option (List Candidate) :=
  ctx.parent.map fun parent =>
    let declared := (parent.fields?.map Keyed.values).getD []
    let typename := if parent.isAbstract then [MetaField.typename] else []
    let root := if s.isQueryType parent then [MetaField.schema, MetaField.type] else []
    (declared ++ typename ++ root).map (ofField s)

/-- The arguments that can be given. -/
def argumentNames (s : Schema) (ctx : Context) : Option (List Candidate) :=
  ctx.arguments.map fun arguments => arguments.values.map (ofInputValue s)

/-- The input fields that can be given. -/
def objectFieldNames (s : Schema) (ctx : Context) : Option (List Candidate) :=
  ctx.objectFields.map fun fields => fields.values.map (ofInputValue s)

/-! ## Values and types -/

/-- The values of a type that has a few: an enum or the booleans. -/
def valuesOf (t : NamedType) : Option (List Candidate) :=
  let type := some (CandidateType.ofType t)
  match t with
  | .defined _ (.enum values) =>
    some (values.values.map fun v =>
      { text := v.name, type, description := v.description, deprecation := v.deprecation })
  | .builtin .boolean =>
    some [
      { text := "true", type, description := some "Not false." },
      { text := "false", type, description := some "Not true." }]
  | _ => none

/-- The values that the innermost value position takes. -/
def values (s : Schema) (ctx : Context) : Option (List Candidate) :=
  (ctx.input.bind s.innermostType?).bind valuesOf

/-- The types that a fragment inside the parent type can be on. -/
def typeConditions (s : Schema) (ctx : Context) : List Candidate :=
  let types := match ctx.parent with
    | some parent => if parent.isAbstract then s.possibleTypes parent else [parent]
    | none => s.types.values.filter NamedType.isComposite
  types.map ofType

/-- The types that a variable can have. -/
def inputTypes (s : Schema) : List Candidate := (s.types.values.filter NamedType.isInput).map ofType

/-! ## Directives and fragments -/

/-- Where a directive stands that is directly inside a state of the given kind. -/
def directiveLocation? : Kind → Option DirectiveLocation
  | .aliasedField | .field => some .field
  | .fragmentDefinition => some .fragmentDefinition
  | .fragmentSpread => some .fragmentSpread
  | .inlineFragment => some .inlineFragment
  | .mutation => some .mutation
  | .query | .shortQuery => some .query
  | .subscription => some .subscription
  | .variableDefinition => some .variableDefinition
  | _ => none

/-- The directives that can be applied directly inside a state of the given kind. -/
def directives (s : Schema) (ancestor : Option Kind) : List Candidate :=
  match ancestor.bind directiveLocation? with
  | none => []
  | some location =>
    (s.directives.values.filter fun d => d.isValidAt location).map fun d =>
      { text := d.name, description := d.description }

/-- Whether a value can be of both types: they are the same, or some object type is possible for
both. -/
def typesOverlap (s : Schema) (a b : NamedType) : Bool :=
  a.name = b.name ||
    (s.possibleTypes b).any fun t => (s.possibleTypes a).any fun u => u.name = t.name

/-- Whether a fragment can be spread inside the parent type. -/
def fragmentApplies (s : Schema) (ctx : Context) (fragment : KnownFragment) : Bool :=
  match ctx.parent, s.type? fragment.typeCondition with
  | none, _ => true
  | some parent, some type => typesOverlap s parent type
  | some _, none => false

/-- The candidate of a fragment. -/
def ofFragment (s : Schema) (fragment : KnownFragment) : Candidate :=
  { text := fragment.name
    type := (s.type? fragment.typeCondition).map .ofType
    description := some (fragment.description.getD
      ("fragment " ++ fragment.name ++ " on " ++ fragment.typeCondition)) }

/-- The fragments that can be spread. -/
def fragmentSpreads (s : Schema) (ctx : Context) (fragments : List KnownFragment) :
    List Candidate :=
  (fragments.filter (fragmentApplies s ctx)).map (ofFragment s)

/-! ## All positions -/

/-- The candidates at a leaf with the given context, directly inside a state of the kind
`ancestor`. -/
def generate (s : Schema) (ctx : Context) (leaf : State) (ancestor : Option Kind)
    (fragments : List KnownFragment) : Option (List Candidate) :=
  match leaf.kind with
  | .document => some documentKeywords
  | .aliasedField | .field | .selectionSet => fieldNames s ctx
  | .arguments => argumentNames s ctx
  | .argument =>
    if leaf.step = 0 then argumentNames s ctx
    else if leaf.step = 2 then values s ctx
    else none
  | .objectValue => objectFieldNames s ctx
  | .objectField =>
    if leaf.step = 0 then objectFieldNames s ctx
    else if leaf.step = 2 then values s ctx
    else none
  | .enumValue => values s ctx
  | .listValue => if leaf.step = 1 then values s ctx else none
  | .typeCondition => if leaf.step = 1 then some (typeConditions s ctx) else none
  | .namedType =>
    match ancestor with
    | some .typeCondition => some (typeConditions s ctx)
    | some .listType | some .variableDefinition => some (inputTypes s)
    | _ => none
  | .variableDefinition => if leaf.step = 2 then some (inputTypes s) else none
  | .listType => if leaf.step = 1 then some (inputTypes s) else none
  | .directive => some (directives s ancestor)
  | .fragmentSpread => if leaf.step = 1 then some (fragmentSpreads s ctx fragments) else none
  | _ => none

end Candidate

end SchemaHint
