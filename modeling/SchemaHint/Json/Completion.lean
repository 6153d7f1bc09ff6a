import SchemaHint.Completion.Hint
import SchemaHint.Json.Type

/-!
# Completions as JSON

The JSON forms of candidates, fragments, tokens, ranking options and completions, and their readers.
-/

namespace SchemaHint

set_option autoImplicit false

namespace CandidateType

/-- The JSON form of a candidate's type. -/
def toJson : CandidateType → Json
  | .list item nullable =>
    .object [("List", .object [("item", item.toJson), ("nullable", .bool nullable)])]
  | .named kind name nullable =>
    .object [("Named", .object [
      ("kind", (kind.map TypeKind.toJson).getD .null),
      ("name", .string name),
      ("nullable", .bool nullable)])]

/-- Reads a candidate's type. -/
def ofJson? (j : Json) : Option CandidateType :=
  match _hj : j.variant? with
  | some ("List", some content) =>
    match _hc : content.named? ["item", "nullable"] with
    | some [some item, nullable] => do
      let item ← ofJson? item
      let nullable ← Json.required? Json.bool? nullable
      return .list item nullable
    | _ => none
  | some ("Named", some content) =>
    match content.named? ["kind", "name", "nullable"] with
    | some [kind, name, nullable] => do
      let kind ← Json.optional? TypeKind.ofJson? kind
      let name ← Json.required? Json.string? name
      let nullable ← Json.required? Json.bool? nullable
      return .named kind name nullable
    | _ => none
  | _ => none
termination_by sizeOf j
decreasing_by
  exact Nat.lt_trans (Json.sizeOf_lt_of_named? _hc (by simp)) (Json.sizeOf_lt_of_variant? _hj)

end CandidateType

/-- The JSON form of a candidate. -/
def Candidate.toJson (c : Candidate) : Json :=
  .object [
    ("deprecation_reason", .ofString? c.deprecation),
    ("description", .ofString? c.description),
    ("text", .string c.text),
    ("type_ref", (c.type.map CandidateType.toJson).getD .null)]

/-- Reads a candidate. -/
def Candidate.ofJson? (j : Json) : Option Candidate :=
  match j.record? ["deprecation_reason", "description", "text", "type_ref"] with
  | some [deprecation, description, text, type] => do
    let deprecation ← Json.optional? Json.string? deprecation
    let description ← Json.optional? Json.string? description
    let text ← Json.required? Json.string? text
    let type ← Json.optional? CandidateType.ofJson? type
    return { deprecation, description, text, type }
  | _ => none

/-- The JSON form of a fragment. -/
def KnownFragment.toJson (f : KnownFragment) : Json :=
  .object [
    ("description", .ofString? f.description),
    ("name", .string f.name),
    ("type_condition", .string f.typeCondition)]

/-- Reads a fragment. -/
def KnownFragment.ofJson? (j : Json) : Option KnownFragment :=
  match j.record? ["description", "name", "type_condition"] with
  | some [description, name, typeCondition] => do
    let description ← Json.optional? Json.string? description
    let name ← Json.required? Json.string? name
    let typeCondition ← Json.required? Json.string? typeCondition
    return { description, name, typeCondition }
  | _ => none

/-- The identifier of a token class in JSON. -/
def TokenClass.tag : TokenClass → String
  | .atom => "Atom"
  | .attributeName => "Attribute"
  | .builtin => "Builtin"
  | .comment => "Comment"
  | .definition => "Def"
  | .invalid => "Invalid"
  | .keyword => "Keyword"
  | .number => "Number"
  | .property => "Property"
  | .punctuation => "Punctuation"
  | .qualifier => "Qualifier"
  | .string => "String"
  | .stringSpecial => "StringSpecial"
  | .variableName => "Variable"

/-- The JSON form of a token class. -/
def TokenClass.toJson (c : TokenClass) : Json := .string c.tag

/-- Reads a token class. -/
def TokenClass.ofJson? (j : Json) : Option TokenClass := j.tagged? TokenClass.all TokenClass.tag

/-- The JSON form of a token. -/
def CursorToken.toJson (t : CursorToken) : Json :=
  .object [
    ("token_class", (t.tokenClass.map TokenClass.toJson).getD .null),
    ("string", .string t.string),
    ("start", .natural t.start),
    ("end", .natural t.stop)]

/-- Reads a token. -/
def CursorToken.ofJson? (j : Json) : Option CursorToken :=
  match j.record? ["token_class", "string", "start", "end"] with
  | some [tokenClass, string, start, stop] => do
    let tokenClass ← Json.optional? TokenClass.ofJson? tokenClass
    let string ← Json.required? Json.string? string
    let start ← Json.required? Json.natural? start
    let stop ← Json.required? Json.natural? stop
    return { tokenClass, string, start, stop }
  | _ => none

/-- The JSON form of ranking options. -/
def Fuzzy.RankOptions.toJson (o : Fuzzy.RankOptions) : Json :=
  .object [
    ("max_proximity", .real o.maxProximity),
    ("fall_back_to_unfiltered", .bool o.fallBack)]

/-- Reads ranking options. -/
def Fuzzy.RankOptions.ofJson? (j : Json) : Option Fuzzy.RankOptions :=
  match j.record? ["max_proximity", "fall_back_to_unfiltered"] with
  | some [maxProximity, fallBack] => do
    let maxProximity ← Json.required? Json.real? maxProximity
    let fallBack ← Json.required? Json.bool? fallBack
    return { maxProximity, fallBack }
  | _ => none

/-- The JSON form of a completion. -/
def Completion.toJson (c : Completion) : Json :=
  .object [
    ("candidates", .array (c.candidates.map Candidate.toJson)),
    ("line", .natural c.line),
    ("range_start", .natural c.rangeStart),
    ("range_end", .natural c.rangeEnd)]

/-- Reads a completion. -/
def Completion.ofJson? (j : Json) : Option Completion :=
  match j.record? ["candidates", "line", "range_start", "range_end"] with
  | some [candidates, line, rangeStart, rangeEnd] => do
    let candidates ← Json.required? (Json.list? Candidate.ofJson?) candidates
    let line ← Json.required? Json.natural? line
    let rangeStart ← Json.required? Json.natural? rangeStart
    let rangeEnd ← Json.required? Json.natural? rangeEnd
    return { candidates, line, rangeStart, rangeEnd }
  | _ => none

end SchemaHint
