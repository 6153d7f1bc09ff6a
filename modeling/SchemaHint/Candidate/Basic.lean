import SchemaHint.Schema.Basic

/-!
# Candidates

A candidate is a text that could stand at the cursor, with what there is to tell about it.
-/

namespace SchemaHint

set_option autoImplicit false

/-- The type of a candidate, with the kind of the type inside all lists if the schema has it. -/
inductive CandidateType
  | list (item : CandidateType) (nullable : Bool)
  | named (kind : Option TypeKind) (name : String) (nullable : Bool)
deriving DecidableEq, Repr

namespace CandidateType

/-- The candidate type of an annotation. -/
def ofAnnotated (s : Schema) : AnnotatedType → CandidateType
  | .list item nullable _ => .list (ofAnnotated s item) nullable
  | .named name nullable _ => .named ((s.type? name).map NamedType.kind) name nullable

/-- The candidate type of a named type, which is nullable. -/
def ofType (t : NamedType) : CandidateType := .named (some t.kind) t.name true

/-- Whether null is a value of the outermost level. -/
def nullable : CandidateType → Bool
  | .list _ n => n
  | .named _ _ n => n

/-- The characters of a candidate type. -/
def chars : CandidateType → List Char
  | .list item nullable => '[' :: item.chars ++ ']' :: Sdl.TypeExpr.mark (!nullable)
  | .named _ name nullable => name.toList ++ Sdl.TypeExpr.mark (!nullable)

/-- The text of a candidate type. -/
def text (t : CandidateType) : String := String.ofList t.chars

end CandidateType

/-- A text that could stand at the cursor. -/
structure Candidate where
  deprecation : Option String := none
  description : Option String := none
  text : String
  type : Option CandidateType := none
deriving DecidableEq, Repr

/-- A fragment that is defined elsewhere. -/
structure KnownFragment where
  description : Option String := none
  name : String
  typeCondition : String
deriving DecidableEq, Repr

end SchemaHint
