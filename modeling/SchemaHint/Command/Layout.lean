import SchemaHint.Json.Type
import SchemaHint.Schema.Diagnostic

/-!
# Laying out structured values

A `Layout` is a value made of named parts, as errors are reported. `Layout.text` writes it over
several lines: every part stands on lines of its own, four columns further in than what holds it,
and ends in a comma.
-/

namespace SchemaHint.Command

set_option autoImplicit false

/-- A value to be laid out. -/
inductive Layout
  /-- A word or a quoted text. -/
  | atom (text : String)
  /-- A name and named parts in braces. -/
  | record (name : String) (parts : List (String × Layout))
  /-- A name and one part in parentheses. -/
  | wrapped (name : String) (part : Layout)
  /-- Parts in brackets. -/
  | list (parts : List Layout)

namespace Layout

/-- The lines of a part: a label in front, a comma at the end, and all of it indented. -/
def partLines (label : String) (lines : List String) : List String :=
  let labelled := match lines with
    | [] => [label]
    | first :: rest => (label ++ first) :: rest
  let ended := labelled.dropLast ++ (labelled.getLast?.map (· ++ ",")).toList
  ended.map ("    " ++ ·)

mutual

/-- The lines of a value. -/
def lines : Layout → List String
  | .atom text => [text]
  | .record name parts => (name ++ " \x7b") :: recordLines parts ++ ["\x7d"]
  | .wrapped name part => (name ++ "(") :: partLines "" part.lines ++ [")"]
  | .list [] => ["[]"]
  | .list (part :: parts) => "[" :: partLines "" part.lines ++ listLines parts ++ ["]"]

/-- The lines of the parts of a record. -/
def recordLines : List (String × Layout) → List String
  | [] => []
  | (label, part) :: parts => partLines (label ++ ": ") part.lines ++ recordLines parts

/-- The lines of the parts of a list. -/
def listLines : List Layout → List String
  | [] => []
  | part :: parts => partLines "" part.lines ++ listLines parts

end

/-- The text of a value. -/
def text (l : Layout) : String := "\n".intercalate l.lines

/-! ## Errors -/

/-- A text in quotes. -/
def ofText (s : String) : Layout := .atom (Text.quoted s)

/-- A number. -/
def ofNat (n : Nat) : Layout := .atom (toString n)

/-- The layout of a location. -/
def ofLocation : Location → Layout
  | .builtin => .atom "GraphQLBuiltIn"
  | .text => .atom "Schema"
  | .file path p =>
    .wrapped "SchemaFile" (.record "FilePosition" [
      ("col", ofNat p.column), ("file", ofText path), ("line", ofNat p.line)])

/-- The layout of a part of an error, where the bad references have been laid out. -/
def ofPart (ofReference : ReferenceError → Layout) : Part → Layout
  | .text s => ofText s
  | .location l => ofLocation l
  | .operation o => .atom o.name
  | .kind k => .atom k.tag
  | .root r =>
    .record "NamedTypeDefLocation" [
      ("def_location", ofLocation r.location), ("type_name", ofText r.typeName)]
  | .path p => ofText p
  | .maybePath none => .atom "None"
  | .maybePath (some p) => .wrapped "Some" (ofText p)
  | .references errors => .list (errors.map ofReference)

/-- The layout of an error. -/
def ofDiagnostic (ofReference : ReferenceError → Layout) (d : Diagnostic) : Layout :=
  match d.parts with
  | [] => .atom d.name
  | parts => .record d.name (parts.map fun p => (p.1, ofPart ofReference p.2))

/-- The layout of a bad reference. -/
def ofReferenceError (e : ReferenceError) : Layout :=
  ofDiagnostic (fun e => ofText e.message) e.diagnostic

/-- The layout of a build error. -/
def ofBuildError (e : BuildError) : Layout := ofDiagnostic ofReferenceError e.diagnostic

end Layout

end SchemaHint.Command
