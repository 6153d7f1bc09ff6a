import SchemaHint.Schema.Error

/-!
# Errors taken apart

A `Diagnostic` is an error as its name and its named parts, in a fixed order; it is what reports of
an error are written from.
-/

namespace SchemaHint

set_option autoImplicit false

/-- A part of an error. -/
inductive Part
  | text (s : String)
  | location (l : Location)
  | operation (o : Operation)
  | kind (k : TypeKind)
  | root (r : RootChoice)
  | path (p : String)
  | maybePath (p : Option String)
  | references (errors : List ReferenceError)

/-- The name of an error and its parts. -/
structure Diagnostic where
  name : String
  parts : List (String × Part)

/-- The parts of a bad reference. -/
def ReferenceError.diagnostic : ReferenceError → Diagnostic
  | notInterface location name typeName =>
    ⟨"ImplementsNonInterfaceType", [
      ("loc", .location location),
      ("non_interface_type_name", .text name),
      ("type_name", .text typeName)]⟩
  | inputFieldOfOutputType location field name typeName =>
    ⟨"InvalidInputFieldWithOutputType", [
      ("def_location", .location location),
      ("field_name", .text field),
      ("invalid_type_name", .text name),
      ("parent_type_name", .text typeName)]⟩
  | outputFieldOfInputType location field name typeName =>
    ⟨"InvalidOutputFieldWithInputType", [
      ("def_location", .location location),
      ("field_name", .text field),
      ("input_type_name", .text name),
      ("parent_type_name", .text typeName)]⟩
  | parameterOfOutputType location parameter name =>
    ⟨"InvalidParameterWithOutputOnlyType", [
      ("def_location", .location location),
      ("parameter_name", .text parameter),
      ("outputonly_type_name", .text name)]⟩
  | memberNotObject location kind name typeName =>
    ⟨"InvalidUnionMemberTypeKind", [
      ("location", .location location),
      ("member_type_kind", .kind kind),
      ("member_type_name", .text name),
      ("union_type_name", .text typeName)]⟩
  | undefinedType location name =>
    ⟨"UndefinedTypeName", [
      ("ref_location", .location location),
      ("undefined_type_name", .text name)]⟩

/-- What is said of a text that is not a schema document. -/
def malformedText : String := "The text does not follow the grammar of schema documents"

/-- The parts of an error. -/
def BuildError.diagnostic : BuildError → Diagnostic
  | duplicateDirective name first second =>
    ⟨"DuplicateDirectiveDefinition", [
      ("directive_name", .text name),
      ("location1", .location first),
      ("location2", .location second)]⟩
  | duplicateEnumValue typeName first second value =>
    ⟨"DuplicateEnumValueDefinition", [
      ("enum_name", .text typeName),
      ("value_def1", .location first),
      ("value_def2", .location second),
      ("value_name", .text value)]⟩
  | duplicateField first second field typeName =>
    ⟨"DuplicateFieldNameDefinition", [
      ("field_def1", .location first),
      ("field_def2", .location second),
      ("field_name", .text field),
      ("type_name", .text typeName)]⟩
  | duplicateInterface location interface typeName =>
    ⟨"DuplicateInterfaceImplementsDeclaration", [
      ("def_location", .location location),
      ("duplicated_interface_name", .text interface),
      ("type_name", .text typeName)]⟩
  | duplicateOperation operation first second =>
    ⟨"DuplicateOperationDefinition", [
      ("operation", .operation operation),
      ("location1", .root first),
      ("location2", .root second)]⟩
  | duplicateType name first second =>
    ⟨"DuplicateTypeDefinition", [
      ("type_name", .text name),
      ("def1", .location first),
      ("def2", .location second)]⟩
  | duplicateMember first second member typeName =>
    ⟨"DuplicatedUnionMember", [
      ("member1", .location first),
      ("member2", .location second),
      ("member_name", .text member),
      ("type_name", .text typeName)]⟩
  | emptyEnum location typeName =>
    ⟨"EnumWithNoValues", [("location", .location location), ("type_name", .text typeName)]⟩
  | extensionOfUndefinedType location typeName =>
    ⟨"ExtensionOfUndefinedType", [
      ("extension_location", .location location),
      ("type_name", .text typeName)]⟩
  | extensionOfOtherKind kind location typeName =>
    ⟨"InvalidExtensionType", [
      ("existing_type_kind", .kind kind),
      ("extension_location", .location location),
      ("type_name", .text typeName)]⟩
  | reservedDirectiveName location name =>
    ⟨"InvalidDunderPrefixedDirectiveName", [
      ("def_location", .location location),
      ("directive_name", .text name)]⟩
  | reservedFieldName location field typeName =>
    ⟨"InvalidDunderPrefixedFieldName", [
      ("def_location", .location location),
      ("field_name", .text field),
      ("type_name", .text typeName)]⟩
  | reservedTypeName location name =>
    ⟨"InvalidDunderPrefixedTypeName", [
      ("def_location", .location location),
      ("type_name", .text name)]⟩
  | implementsItself location typeName =>
    ⟨"InvalidSelfImplementingInterface", [
      ("def_location", .location location),
      ("interface_name", .text typeName)]⟩
  | noQueryType => ⟨"NoQueryOperationTypeDefined", []⟩
  | rootNotObject operation root kind =>
    ⟨"NonObjectOperationType", [
      ("operation", .operation operation),
      ("type_def", .root root),
      ("type_kind", .kind kind)]⟩
  | sharedRoot typeName first second =>
    ⟨"NonUniqueOperationTypes", [
      ("reused_type_name", .text typeName),
      ("operation1", .operation first),
      ("operation2", .operation second)]⟩
  | malformed path => ⟨"ParseError", [("file", .maybePath path), ("err", .text malformedText)]⟩
  | redefinedBuiltinDirective name location =>
    ⟨"RedefinitionOfBuiltinDirective", [
      ("directive_name", .text name),
      ("location", .location location)]⟩
  | unreadable path failure =>
    ⟨"SchemaFileReadError", [("file", .path path), ("message", .text failure.message)]⟩
  | badReferences errors => ⟨"TypeValidationErrors", [("errors", .references errors)]⟩
  | undefinedRoot operation root =>
    ⟨"UndefinedOperationType", [("operation", .operation operation), ("type_def", .root root)]⟩

end SchemaHint
