import SchemaHint.Command.Arguments

/-!
# Running commands

`runHint` and `runValidate` give the outcome of each command on given files: what is printed, and
whether the command succeeded.
-/

namespace SchemaHint.Command

set_option autoImplicit false

/-- What a command prints: on the standard output if it succeeds, else on the standard error. -/
inductive Outcome
  | success (text : String)
  | failure (text : String)
deriving DecidableEq, Repr

/-- The mark in front of a success. -/
def greenCheck : String := "\u2705"

/-- The mark in front of a failure. -/
def redCross : String := "\u274C"

/-- The schema of files. -/
def buildFiles (files : Files) (paths : List String) : Except BuildError Schema :=
  match loadFiles files .start paths with
  | .error e => .error e
  | .ok draft => draft.build

/-- The extensions that were given, or else those of schema files. -/
def extensionsOr (given : List String) : List String :=
  if given.isEmpty then SchemaFiles.defaultExtensions else given

/-- The report of paths that lead nowhere. -/
def locatingFailure (what : String) (errors : List (String × PathError)) : Outcome :=
  .failure (redCross ++ " Errors locating " ++ what ++ ": " ++
    (Layout.list (errors.map SchemaFiles.errorLayout)).text)

/-! ## Hints -/

/-- The line of a candidate. -/
def candidateLine (c : Candidate) : String :=
  "\n  * " ++ c.text ++
    (c.type.map fun t => ": " ++ t.text).getD "" ++
    (c.description.map fun d => " - " ++ d).getD "" ++
    (c.deprecation.map fun r => " (deprecated: " ++ r ++ ")").getD ""

/-- The report of a completion. -/
def completionReport (c : Completion) : String :=
  greenCheck ++ " " ++ toString c.candidates.length ++ " completion(s) replacing line " ++
    toString c.line ++ ", columns " ++ toString c.rangeStart ++ ".." ++ toString c.rangeEnd ++
    ":" ++ String.join (c.candidates.map candidateLine)

/-- The request that the arguments of `hint` describe. -/
def hintRequest (chain : Chain) (a : HintArguments) : HintRequest :=
  { chain
    token :=
      { tokenClass := a.tokenClass
        string := a.token
        start := a.tokenStart
        stop := a.tokenEnd.getD (a.tokenStart + a.token.length) }
    line := a.line
    fragments := a.fragments }

/-- Finds the completions at a cursor. -/
def runHint (files : Files) (chain : Chain) (a : HintArguments) : Outcome :=
  let found := SchemaFiles.collect files a.schema (extensionsOr a.extensions)
  if !found.errors.isEmpty then locatingFailure "GraphQL schema files" found.errors
  else
    match buildFiles files found.paths with
    | .error e =>
      .failure (redCross ++ " Errors loading schema: " ++ (Layout.ofBuildError e).text)
    | .ok schema =>
      match complete a.options schema (hintRequest chain a) with
      | some c => .success (completionReport c)
      | none => .success ("No completions at `" ++ chain.text ++ "`.")

/-! ## Validation -/

/-- The report of files that make up a schema. -/
def validationReport (found : SchemaFiles) (s : Schema) : String :=
  greenCheck ++ " All GraphQL validated successfully:\n" ++
    "  * Analyzed " ++ toString found.paths.length ++ " files.\n" ++
    "  * Skipped " ++ toString found.skipped ++ " non-graphql files.\n" ++
    "  * Validated " ++ toString s.types.size ++ " type definitions.\n" ++
    "  * Validated " ++ toString s.directives.size ++ " directive definitions."

/-- Checks whether files make up a schema. -/
def runValidate (files : Files) (a : ValidateArguments) : Outcome :=
  let found := SchemaFiles.collect files a.paths (extensionsOr a.extensions)
  if !found.errors.isEmpty then locatingFailure "GraphQL files" found.errors
  else
    match buildFiles files found.paths with
    | .error e =>
      .failure (redCross ++ " Errors validating schema: " ++ (Layout.ofBuildError e).text)
    | .ok schema => .success (validationReport found schema)

end SchemaHint.Command
