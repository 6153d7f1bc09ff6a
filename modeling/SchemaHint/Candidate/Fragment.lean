import SchemaHint.Candidate.Basic
import SchemaHint.Text.Blank
import SchemaHint.Text.Split

/-!
# Fragments as text

A known fragment can be given as `Name:Type`.
-/

namespace SchemaHint

set_option autoImplicit false

namespace KnownFragment

/-- A text that is not that of a fragment. -/
structure ParseError where
  input : String
deriving DecidableEq, Repr

/-- The explanation of an error. -/
def ParseError.message (e : ParseError) : String :=
  "Expected `FragmentName:TypeName`, got `" ++ e.input ++ "`"

/-- Reads a fragment: the name stands before the first colon and the type after it, and neither is
blank. -/
def parse (s : String) : Except ParseError KnownFragment :=
  match Text.cut ':' s.toList with
  | (name, some type) =>
    if Text.isBlankText name || Text.isBlankText type then .error ⟨s⟩
    else
      .ok { name := String.ofList (Text.trim name), typeCondition := String.ofList (Text.trim type) }
  | (_, none) => .error ⟨s⟩

end KnownFragment

end SchemaHint
