import SchemaHint.Location
import SchemaHint.Sdl.TypeExpr

/-!
# Type annotations

An annotation is the type of a field, an argument or an input field, together with the place where
it is written. Each level, a list or the name inside, has its own nullability.
-/

namespace SchemaHint

set_option autoImplicit false

/-- The type of an element, level by level. -/
inductive AnnotatedType
  | list (item : AnnotatedType) (nullable : Bool) (location : Location)
  | named (name : String) (nullable : Bool) (location : Location)
deriving DecidableEq, Repr

namespace AnnotatedType

/-- A built-in reference to a type. -/
def builtin (name : String) (nullable : Bool) : AnnotatedType := .named name nullable .builtin

/-- The annotation of a type expression at a location, with the given nullability of the outermost
level. A mark is about the level behind which it stands: inside a list it has to be repeated. -/
def ofMarked (location : Location) (nullable : Bool) : Sdl.TypeExpr → AnnotatedType
  | .named name => .named name nullable location
  | .list item => .list (ofMarked location true item) nullable location
  | .nonNull t => ofMarked location false t

/-- The annotation of a type expression at a location. -/
def ofTypeExpr (location : Location) (t : Sdl.TypeExpr) : AnnotatedType := ofMarked location true t

/-- Whether null is a value of the outermost level. -/
def nullable : AnnotatedType → Bool
  | .list _ n _ => n
  | .named _ n _ => n

/-- Where the outermost level is written. -/
def location : AnnotatedType → Location
  | .list _ _ l => l
  | .named _ _ l => l

/-- The annotation of the items of a list. -/
def item? : AnnotatedType → Option AnnotatedType
  | .list item _ _ => some item
  | .named .. => none

/-- The name inside all lists. -/
def innermostName : AnnotatedType → String
  | .list item _ _ => item.innermostName
  | .named name _ _ => name

/-- Whether null is a value of the level inside all lists. -/
def innermostNullable : AnnotatedType → Bool
  | .list item _ _ => item.innermostNullable
  | .named _ n _ => n

/-- Where the name inside all lists is written. -/
def innermostLocation : AnnotatedType → Location
  | .list item _ _ => item.innermostLocation
  | .named _ _ l => l

/-- The characters of an annotation. -/
def chars : AnnotatedType → List Char
  | .list item nullable _ => '[' :: item.chars ++ ']' :: Sdl.TypeExpr.mark (!nullable)
  | .named name nullable _ => name.toList ++ Sdl.TypeExpr.mark (!nullable)

/-- The text of an annotation. -/
def text (a : AnnotatedType) : String := String.ofList a.chars

end AnnotatedType

end SchemaHint
