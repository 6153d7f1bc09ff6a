/-!
# Locations

Where an element of a schema comes from: the language itself, a text that was loaded without a file
name, or a place in a file.
-/

namespace SchemaHint

set_option autoImplicit false

/-- A line and a column, both counted from one. -/
structure Position where
  line : Nat
  column : Nat
deriving DecidableEq, Repr

/-- The place where an element was defined. -/
inductive Location
  /-- The language defines the element in every schema. -/
  | builtin
  /-- The element stands in a text that has no file name. -/
  | text
  /-- The element stands in a file. -/
  | file (path : String) (position : Position)
deriving DecidableEq, Repr

/-- The location of a position in a text, given the path of its file if it has one. -/
def Location.ofPosition (path : Option String) (position : Position) : Location :=
  match path with
  | some p => .file p position
  | none => .text

end SchemaHint
