/-!
# Cutting a text at a separator

`cut sep` takes a text apart at the first `sep`, `pieces sep` at every one.
-/

namespace SchemaHint.Text

set_option autoImplicit false

/-- The text before the first `sep` and, if there is a `sep`, the text after it. -/
def cut (sep : Char) : List Char → List Char × Option (List Char)
  | [] => ([], none)
  | c :: cs =>
    if c = sep then ([], some cs)
    else
      let r := cut sep cs
      (c :: r.1, r.2)

/-- The texts between the occurrences of `sep`, one more than there are occurrences. -/
def pieces (sep : Char) : List Char → List (List Char)
  | [] => [[]]
  | c :: cs =>
    if c = sep then [] :: pieces sep cs
    else match pieces sep cs with
      | [] => [[c]]
      | p :: ps => (c :: p) :: ps

/-- The texts in order, with `sep` between them. -/
def join (sep : List Char) (texts : List (List Char)) : List Char :=
  List.intercalate sep texts

end SchemaHint.Text
