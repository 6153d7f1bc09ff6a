import SchemaHint.Chain.Basic
import SchemaHint.Context.MetaField

/-!
# What a chain says about the cursor

A `Context` collects the types and definitions around the cursor. `Context.resolve` goes along a
chain from the outside in; each state changes only what its kind determines, and what it cannot
determine is unknown from there on.
-/

namespace SchemaHint

set_option autoImplicit false

/-- The type of an expression: the annotation of a field, or a type that an operation or a fragment
starts from. -/
inductive ExprType
  | annotated (type : AnnotatedType)
  | named (type : NamedType)
deriving DecidableEq

namespace ExprType

/-- The named type inside all lists. -/
def namedType? (s : Schema) : ExprType → Option NamedType
  | .annotated a => s.innermostType? a
  | .named t => some t

/-- The text of a type. -/
def text : ExprType → String
  | .annotated a => a.text
  | .named t => t.name

end ExprType

/-- What is known at the cursor. -/
structure Context where
  /-- The type of the innermost selection, operation or fragment. -/
  type : Option ExprType := none
  /-- The type whose selection set is around the cursor. -/
  parent : Option NamedType := none
  /-- The type that the innermost value has to have. -/
  input : Option AnnotatedType := none
  directive : Option Directive := none
  field : Option Field := none
  argument : Option InputValue := none
  arguments : Option (Keyed InputValue) := none
  objectFields : Option (Keyed InputValue) := none
deriving DecidableEq

namespace Context

open Chain (Kind State)

/-- Nothing is known. -/
def unknown : Context := {}

/-- The field that a state selects, if the context has a type to select on. -/
def selected? (s : Schema) (ctx : Context) (name : Option String) : Option Field := do
  let _ ← ctx.type
  let parent ← ctx.parent
  let n ← name
  s.field? parent n

/-- The arguments that belong to a list of arguments directly inside the given kind. -/
def argumentsIn (ctx : Context) : Option Kind → Option (Keyed InputValue)
  | some .aliasedField | some .field => ctx.field.map Field.parameters
  | some .directive => ctx.directive.map Directive.parameters
  | _ => none

/-- The context inside a state, given the context around it and the kind of the state before. -/
def enter (s : Schema) (before : Option Kind) (ctx : Context) (state : State) : Context :=
  match state.kind with
  | .query | .shortQuery => { ctx with type := s.queryType?.map .named }
  | .mutation => { ctx with type := s.mutationType?.map .named }
  | .subscription => { ctx with type := s.subscriptionType?.map .named }
  | .fragmentDefinition | .inlineFragment =>
    { ctx with type := (state.typeName.bind s.type?).map .named }
  | .aliasedField | .field =>
    let field := ctx.selected? s state.name
    { ctx with field, type := field.map fun f => .annotated f.type }
  | .selectionSet => { ctx with parent := ctx.type.bind (ExprType.namedType? s) }
  | .directive => { ctx with directive := state.name.bind s.directive? }
  | .arguments => { ctx with arguments := ctx.argumentsIn before }
  | .argument =>
    let argument := ctx.arguments.bind fun as => state.name.bind fun n =>
      as.values.find? fun a => a.name = n
    { ctx with argument, input := argument.map InputValue.type }
  | .listValue => { ctx with input := ctx.input.bind AnnotatedType.item? }
  | .objectValue =>
    { ctx with objectFields := (ctx.input.bind s.innermostType?).bind NamedType.inputFields? }
  | .objectField =>
    { ctx with
      input := ctx.objectFields.bind fun fs => state.name.bind fun n =>
        (fs.get? n).map InputValue.type }
  | _ => ctx

/-- The context after further states, given the context and the kind of the state before them. -/
def resolveFrom (s : Schema) (before : Option Kind) (ctx : Context) : List State → Context
  | [] => ctx
  | state :: rest => resolveFrom s (some state.kind) (enter s before ctx state) rest

/-- The context at the leaf of a chain. -/
def resolve (s : Schema) (c : Chain) : Context := resolveFrom s none unknown c

end Context

end SchemaHint
