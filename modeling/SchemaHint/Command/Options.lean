/-!
# Reading command lines

A `Spec` describes the options of a command, each of which changes the settings. `Spec.read` goes
through the arguments from left to right. The values of an option are taken in, and refused, only
when the next option comes or the arguments end; an argument that is not known stops the reading at
once.
-/

namespace SchemaHint.Command

set_option autoImplicit false

/-- Why a command line does not give a command. -/
inductive UsageError
  | helpWanted
  | versionWanted
  | unknownCommand
  | unknownArgument
  | missingArgument
  | repeatedArgument
  | missingValue
  | unwantedValue
  | badValue
deriving DecidableEq, Repr

/-- How many values an option has. -/
inductive Arity
  | none
  | one
  | many
deriving DecidableEq, Repr

/-- An option, and what its values do to the settings. -/
structure Opt (α : Type) where
  long : String
  short : Option Char := Option.none
  arity : Arity
  repeatable : Bool := false
  set : List String → α → Except UsageError α

/-- The options of a command. -/
structure Spec (α : Type) where
  options : List (Opt α)
  /-- What takes the arguments that belong to no option. -/
  positional : Option (Opt α) := Option.none
  /-- The names of the commands that take over the rest of the arguments. -/
  commands : List String := []

/-- The state of the reading: an option may be open, with its values so far. -/
structure Progress (α : Type) where
  settings : α
  given : List String := []
  pending : Option (Opt α × List String) := Option.none

namespace Progress

variable {α : Type}

/-- Takes in one occurrence of an option. -/
def take (p : Progress α) (o : Opt α) (values : List String) : Except UsageError (Progress α) :=
  if o.arity ≠ .none && values.isEmpty then .error .missingValue
  else if !o.repeatable && p.given.contains o.long then .error .repeatedArgument
  else
    match o.set values p.settings with
    | .error e => .error e
    | .ok settings => .ok { settings, given := o.long :: p.given }

/-- Takes in the option that is open. -/
def close (p : Progress α) : Except UsageError (Progress α) :=
  match p.pending with
  | Option.none => .ok p
  | some (o, values) => { p with pending := Option.none }.take o values

/-- Takes in the option that is open and opens another one. -/
def openOption (p : Progress α) (o : Opt α) : Except UsageError (Progress α) :=
  match p.close with
  | .error e => .error e
  | .ok p => .ok { p with pending := some (o, []) }

/-- Takes in the option that is open and then a whole occurrence of another one. -/
def takeNow (p : Progress α) (o : Opt α) (values : List String) :
    Except UsageError (Progress α) :=
  match p.close with
  | .error e => .error e
  | .ok p => p.take o values

/-- The option that is open with the argument as its next value, if it takes one. -/
def feed? (p : Progress α) (argument : String) : Option (Progress α) :=
  match p.pending with
  | some (o, values) =>
    if o.long ≠ "" && (o.arity = .many || values.isEmpty) then
      some { p with pending := some (o, values ++ [argument]) }
    else Option.none
  | Option.none => Option.none

/-- Adds an argument to the positional ones. -/
def feedPositional (p : Progress α) (o : Opt α) (argument : String) :
    Except UsageError (Progress α) :=
  match p.pending with
  | some (q, values) =>
    if q.long = o.long then .ok { p with pending := some (q, values ++ [argument]) }
    else
      match p.close with
      | .error e => .error e
      | .ok p => .ok { p with pending := some (o, [argument]) }
  | Option.none => .ok { p with pending := some (o, [argument]) }

end Progress

namespace Spec

variable {α : Type}

/-- Reads an option by its long name, with a value after an equals sign if there is one. -/
def readLong (spec : Spec α) (p : Progress α) (text : List Char) :
    Except UsageError (Progress α) :=
  let name := String.ofList (text.takeWhile (· ≠ '='))
  let value := (text.dropWhile (· ≠ '=')).tail?
  match spec.options.find? fun o => o.long = name with
  | Option.none => .error .unknownArgument
  | some o =>
    match o.arity, value with
    | .none, some _ => .error .unwantedValue
    | .none, Option.none => p.takeNow o []
    | _, some v => p.takeNow o [String.ofList v]
    | _, Option.none => p.openOption o

/-- Reads a row of flags by their short names. -/
def readShorts (spec : Spec α) (p : Progress α) : List Char → Except UsageError (Progress α)
  | [] => .ok p
  | c :: cs =>
    match spec.options.find? fun o => o.short = some c with
    | Option.none => .error .unknownArgument
    | some o =>
      match p.takeNow o [] with
      | .error e => .error e
      | .ok p => readShorts spec p cs

/-- What is wrong with an argument that nothing takes. -/
def surplus (spec : Spec α) (ended : Bool) (argument : String) : UsageError :=
  if spec.commands.isEmpty || (ended && spec.commands.contains argument) then .unknownArgument
  else .unknownCommand

/-- Reads an argument that is no option. -/
def readPlain (spec : Spec α) (ended : Bool) (p : Progress α) (argument : String) :
    Except UsageError (Progress α) :=
  match if ended then Option.none else p.feed? argument with
  | some p => .ok p
  | Option.none =>
    match spec.positional with
    | some o => p.feedPositional o argument
    | Option.none => .error (spec.surplus ended argument)

/-- Reads the arguments up to the name of a command. `ended` tells whether two dashes have ended the
options. The result holds the settings and the name of the command with the arguments after it. -/
def readFrom (spec : Spec α) (ended : Bool) (p : Progress α) :
    List String → Except UsageError (α × Option (String × List String))
  | [] =>
    match p.close with
    | .error e => .error e
    | .ok p => .ok (p.settings, Option.none)
  | argument :: rest =>
    let go (r : Except UsageError (Progress α)) (ended : Bool) :=
      match r with
      | .error e => .error e
      | .ok p => readFrom spec ended p rest
    if ended then go (spec.readPlain true p argument) true
    else if spec.commands.contains argument then
      match p.close with
      | .error e => .error e
      | .ok p => .ok (p.settings, some (argument, rest))
    else
      match argument.toList with
      | ['-', '-'] => go (.ok p) true
      | '-' :: '-' :: text => go (spec.readLong p text) false
      | '-' :: c :: cs => go (spec.readShorts p (c :: cs)) false
      | _ => go (spec.readPlain false p argument) false

/-- Reads the arguments of a command that starts from the given settings. -/
def read (spec : Spec α) (settings : α) (arguments : List String) :
    Except UsageError (α × Option (String × List String)) :=
  spec.readFrom false { settings } arguments

end Spec

end SchemaHint.Command
