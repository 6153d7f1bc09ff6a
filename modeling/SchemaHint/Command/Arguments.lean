import SchemaHint.Candidate.Fragment
import SchemaHint.Command.Options
import SchemaHint.Command.SchemaFiles
import SchemaHint.Completion.Hint
import SchemaHint.Decimal.Reader

/-!
# Commands and their arguments

`Invocation.read` reads a whole command line: the command `hint` with the cursor's chain and token,
the command `validate` with the paths to check, or no command at all.
-/

namespace SchemaHint.Command

set_option autoImplicit false

/-! ## Values -/

/-- The value that a reader makes of the only text. -/
def valueOf {α : Type} (read : String → Option α) (values : List String) : Except UsageError α :=
  match values.head?.bind read with
  | some a => .ok a
  | none => .error .badValue

/-- Reads a 64-bit word. -/
def word? (s : String) : Option Nat := Text.word? s.toList

/-- Paths, none of which is empty. -/
def pathsOf (values : List String) : Except UsageError (List String) :=
  if values.contains "" then .error .missingValue else .ok values

/-- The texts between commas. -/
def splitAtCommas (values : List String) : List String :=
  values.flatMap fun v => (Text.pieces ',' v.toList).map String.ofList

/-! ## Options -/

/-- The option that asks for help. -/
def helpOption {α : Type} : Opt α :=
  { long := "help", short := some 'h', arity := .none, set := fun _ _ => .error .helpWanted }

/-- The option that asks for the version. -/
def versionOption {α : Type} : Opt α :=
  { long := "version", short := some 'V', arity := .none, set := fun _ _ => .error .versionWanted }

/-- An option without values. -/
def flag {α : Type} (long : String) (short : Option Char) (set : α → α) : Opt α :=
  { long, short, arity := .none, set := fun _ a => .ok (set a) }

/-- An option with one value. -/
def single {α β : Type} (long : String) (read : String → Option β) (set : β → α → α) : Opt α :=
  { long, arity := .one, set := fun values a => (valueOf read values).map (set · a) }

/-- An option with one value that can be given again. -/
def repeated {α β : Type} (long : String) (read : String → Option β) (set : β → α → α) : Opt α :=
  { single long read set with repeatable := true }

/-- The option for the extensions of schema files, which are given with commas between them. -/
def extensionsOption {α : Type} (set : List String → α → α) : Opt α :=
  { long := "graphql-file-exts"
    arity := .one
    repeatable := true
    set := fun values a => .ok (set (splitAtCommas values) a) }

/-! ## The command `hint` -/

/-- The arguments of `hint`. -/
structure HintArguments where
  chain : Option Chain := none
  fragments : List KnownFragment := []
  extensions : List String := []
  line : Nat := 0
  options : Fuzzy.RankOptions := {}
  schema : List String := []
  token : String := ""
  tokenClass : Option TokenClass := none
  tokenEnd : Option Nat := none
  tokenStart : Nat := 0
  verbose : Bool := false

/-- The options of `hint`. -/
def hintSpec : Spec HintArguments :=
  { options := [
      single "chain" (fun s => (Chain.parse s).toOption) fun c a => { a with chain := some c },
      repeated "fragment" (fun s => (KnownFragment.parse s).toOption) fun f a =>
        { a with fragments := a.fragments ++ [f] },
      extensionsOption fun es a => { a with extensions := a.extensions ++ es },
      single "line" word? fun n a => { a with line := n },
      single "max-proximity" (fun s => Binary64.read? s.toList) fun x a =>
        { a with options := { a.options with maxProximity := x } },
      flag "no-fallback" none fun a => { a with options := { a.options with fallBack := false } },
      { long := "schema"
        arity := .many
        repeatable := true
        set := fun values a =>
          (pathsOf values).map fun ps => { a with schema := a.schema ++ ps } },
      single "token" some fun s a => { a with token := s },
      single "token-class" (fun s => (TokenClass.parse s).toOption) fun c a =>
        { a with tokenClass := some c },
      single "token-end" word? fun n a => { a with tokenEnd := some n },
      single "token-start" word? fun n a => { a with tokenStart := n },
      flag "verbose" (some 'v') fun a => { a with verbose := true },
      helpOption] }

/-! ## The command `validate` -/

/-- The arguments of `validate`. -/
structure ValidateArguments where
  extensions : List String := []
  paths : List String := []
  verbose : Bool := false

/-- The options of `validate`. -/
def validateSpec : Spec ValidateArguments :=
  { options := [
      extensionsOption fun es a => { a with extensions := a.extensions ++ es },
      flag "verbose" (some 'v') fun a => { a with verbose := true },
      helpOption]
    positional := some
      { long := ""
        arity := .many
        repeatable := true
        set := fun values a => (pathsOf values).map fun ps => { a with paths := a.paths ++ ps } } }

/-! ## Command lines -/

/-- What a command line asks for. -/
inductive Invocation
  /-- No command. -/
  | overview (verbose : Bool)
  | hint (chain : Chain) (arguments : HintArguments)
  | validate (arguments : ValidateArguments)

namespace Invocation

/-- The names of the commands. -/
def commands : List String := ["hint", "validate", "help"]

/-- The options before a command. -/
def topSpec : Spec Bool :=
  { options := [flag "verbose" (some 'v') fun _ => true, helpOption, versionOption]
    commands }

/-- What it comes to when help is asked for by a command. -/
def helpError : List String → UsageError
  | [] => .helpWanted
  | [name] => if commands.contains name then .helpWanted else .unknownCommand
  | _ :: _ :: _ => .unknownCommand

/-- Reads the arguments of `hint`. -/
def readHint (arguments : List String) : Except UsageError Invocation :=
  match hintSpec.read {} arguments with
  | .error e => .error e
  | .ok (a, _) =>
    match a.chain with
    | some c => if a.schema.isEmpty then .error .missingArgument else .ok (.hint c a)
    | none => .error .missingArgument

/-- Reads the arguments of `validate`. -/
def readValidate (arguments : List String) : Except UsageError Invocation :=
  match validateSpec.read {} arguments with
  | .error e => .error e
  | .ok (a, _) => if a.paths.isEmpty then .error .missingArgument else .ok (.validate a)

/-- Reads a command line without the name of the program. -/
def read (arguments : List String) : Except UsageError Invocation :=
  match topSpec.read false arguments with
  | .error e => .error e
  | .ok (verbose, none) => .ok (.overview verbose)
  | .ok (_, some ("hint", rest)) => readHint rest
  | .ok (_, some ("validate", rest)) => readValidate rest
  | .ok (_, some (_, rest)) => .error (helpError rest)

end Invocation

end SchemaHint.Command
