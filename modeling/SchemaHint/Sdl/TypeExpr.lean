import SchemaHint.Sdl.Lexer

/-!
# Type expressions

A type expression names a type, puts one into a list or marks one as non-null. `TypeExpr.chars`
writes an expression and `TypeExpr.read` reads one off the front of the tokens.
-/

namespace SchemaHint.Sdl

set_option autoImplicit false

/-- The type of a field, an argument or an input field, as it is written. -/
inductive TypeExpr
  | named (name : String)
  | list (item : TypeExpr)
  | nonNull (type : TypeExpr)
deriving DecidableEq, Repr

namespace TypeExpr

/-- The mark of a type that is not nullable. -/
def mark (nonNull : Bool) : List Char := if nonNull then ['!'] else []

/-- The characters of a type expression. -/
def chars : TypeExpr → List Char
  | .named name => name.toList
  | .list item => '[' :: item.chars ++ [']']
  | .nonNull t => t.chars ++ mark true

/-- Marks a type as non-null if an exclamation mark comes next. -/
def readMark (t : TypeExpr) : List Located → TypeExpr × List Located
  | ⟨_, .punct .bang⟩ :: rest => (.nonNull t, rest)
  | tokens => (t, tokens)

/-- Reads a type expression. A type can be marked once. -/
def read : List Located → Option (TypeExpr × List Located)
  | ⟨_, .name name⟩ :: rest => some (readMark (.named name) rest)
  | ⟨_, .punct .openBracket⟩ :: rest =>
    match read rest with
    | some (item, ⟨_, .punct .closeBracket⟩ :: rest) => some (readMark (.list item) rest)
    | _ => none
  | _ => none

/-- Reads a text that holds a type expression and nothing else. -/
def parse? (cs : List Char) : Option TypeExpr :=
  match tokenize cs with
  | none => none
  | some tokens =>
    match read tokens with
    | some (t, []) => some t
    | _ => none

end TypeExpr

end SchemaHint.Sdl
