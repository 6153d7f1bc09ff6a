import SchemaHint.Command.Files
import SchemaHint.Command.Layout

/-!
# Finding schema files

`SchemaFiles.collect` finds the files at or below some paths whose extension is one of those given.
A file that is the only path is taken whatever its extension.
-/

namespace SchemaHint.Command

set_option autoImplicit false

/-- What was found at or below some paths. -/
structure SchemaFiles where
  /-- The paths that lead nowhere, with the reason. -/
  errors : List (String × PathError)
  /-- The absolute paths of the files. -/
  paths : List String
  /-- How many files have another extension. -/
  skipped : Nat

namespace SchemaFiles

/-- The extensions of schema files. -/
def defaultExtensions : List String := ["graphql", "graphqls"]

/-- The part of a file name after its last dot, unless that is its first character. -/
def extension? (name : String) : Option String :=
  let cs := name.toList.reverse
  match cs.dropWhile (· ≠ '.') with
  | [] => none
  | [_] => none
  | _ :: _ :: _ => some (String.ofList (cs.takeWhile (· ≠ '.')).reverse)

/-- An extension without the dots in front of it. -/
def withoutDots (extension : String) : String :=
  String.ofList (extension.toList.dropWhile (· = '.'))

/-- Whether a row of names ends in one of the extensions. -/
def hasExtension (extensions : List String) (names : List String) : Bool :=
  match names.getLast?.bind extension? with
  | none => false
  | some e => (extensions.map withoutDots).contains e

/-- The files at or below a path, or the reason why it leads nowhere. -/
def filesAt (files : Files) (path : String) : Except PathError (List (List String)) :=
  match files.resolve path with
  | .error e => .error e
  | .ok (names, node) => .ok (node.files.map (names ++ ·))

/-- Adds what is at or below a path. -/
def addPath (files : Files) (extensions : List String) (found : SchemaFiles) (path : String) :
    SchemaFiles :=
  match filesAt files path with
  | .error e => { found with errors := found.errors ++ [(path, e)] }
  | .ok all =>
    let chosen := all.filter (hasExtension extensions)
    { found with
      paths := found.paths ++ chosen.map Files.absolutePath
      skipped := found.skipped + (all.length - chosen.length) }

/-- The absolute path of a path that is a file. -/
def onlyFile? (files : Files) : List String → Option String
  | [path] =>
    match files.resolve path with
    | .ok (names, .file _) => some (Files.absolutePath names)
    | _ => none
  | _ => none

/-- The schema files at or below some paths. -/
def collect (files : Files) (paths extensions : List String) : SchemaFiles :=
  let found := paths.foldl (addPath files extensions) ⟨[], [], 0⟩
  if found.paths.isEmpty then
    match onlyFile? files paths with
    | some path => { found with paths := [path], skipped := found.skipped - 1 }
    | none => found
  else found

/-- The layout of the reason why a path leads nowhere. -/
def reasonLayout : PathError → Layout
  | .system e =>
    .record "Os" [
      ("code", Layout.ofNat e.code),
      ("kind", .atom e.name),
      ("message", Layout.ofText e.message)]
  | .holdsNul =>
    .record "Error" [
      ("kind", .atom "InvalidInput"),
      ("message", Layout.ofText PathError.holdsNul.message)]

/-- The layout of a path that leads nowhere. -/
def errorLayout (e : String × PathError) : Layout :=
  .record "Error" [
    ("depth", Layout.ofNat 0),
    ("inner", .record "Io" [
      ("path", .wrapped "Some" (Layout.ofText e.1)),
      ("err", reasonLayout e.2)])]

end SchemaFiles

end SchemaHint.Command
