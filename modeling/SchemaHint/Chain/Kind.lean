/-!
# Kinds of grammar states

The productions of the query grammar that a cursor can be in, each with the name by which chains
spell it.
-/

namespace SchemaHint.Chain

set_option autoImplicit false

/-- A production of the query grammar. -/
inductive Kind
  | aliasedField
  | argument
  | arguments
  | booleanValue
  | comment
  | defaultValue
  | directive
  | document
  | enumValue
  | field
  | fragmentDefinition
  | fragmentSpread
  | inlineFragment
  | invalid
  | listType
  | listValue
  | mutation
  | namedType
  | nonNullType
  | nullValue
  | numberValue
  | objectField
  | objectValue
  | query
  | selection
  | selectionSet
  | shortQuery
  | stringValue
  | subscription
  | typeCondition
  | variableUse
  | variableDefinition
  | variableDefinitions
deriving DecidableEq, Repr

namespace Kind

/-- Every kind, in alphabetical order. -/
def all : List Kind := [
  aliasedField, argument, arguments, booleanValue, comment, defaultValue, directive, document,
  enumValue, field, fragmentDefinition, fragmentSpread, inlineFragment, invalid, listType,
  listValue, mutation, namedType, nonNullType, nullValue, numberValue, objectField, objectValue,
  query, selection, selectionSet, shortQuery, stringValue, subscription, typeCondition, variableUse,
  variableDefinition, variableDefinitions]

/-- The name of a kind. -/
def name : Kind → String
  | aliasedField => "AliasedField"
  | argument => "Argument"
  | arguments => "Arguments"
  | booleanValue => "BooleanValue"
  | comment => "Comment"
  | defaultValue => "DefaultValue"
  | directive => "Directive"
  | document => "Document"
  | enumValue => "EnumValue"
  | field => "Field"
  | fragmentDefinition => "FragmentDefinition"
  | fragmentSpread => "FragmentSpread"
  | inlineFragment => "InlineFragment"
  | invalid => "Invalid"
  | listType => "ListType"
  | listValue => "ListValue"
  | mutation => "Mutation"
  | namedType => "NamedType"
  | nonNullType => "NonNullType"
  | nullValue => "NullValue"
  | numberValue => "NumberValue"
  | objectField => "ObjectField"
  | objectValue => "ObjectValue"
  | query => "Query"
  | selection => "Selection"
  | selectionSet => "SelectionSet"
  | shortQuery => "ShortQuery"
  | stringValue => "StringValue"
  | subscription => "Subscription"
  | typeCondition => "TypeCondition"
  | variableUse => "Variable"
  | variableDefinition => "VariableDefinition"
  | variableDefinitions => "VariableDefinitions"

/-- The kind of a name. -/
def ofName? (s : String) : Option Kind := all.find? fun k => k.name = s

/-- Whether the kind is the selection of a field, under its own name or an alias. -/
def isField : Kind → Bool
  | aliasedField | field => true
  | _ => false

end Kind

end SchemaHint.Chain
