import SchemaHint.Text.Blank
import SchemaHint.Text.Numeral
import SchemaHint.Text.Split

/-!
# Strings in schema texts

A string stands between quotes on one line, with escapes; a block string stands between triple
quotes, and the indentation that its lines share is not part of it. `stringBody?` and `blockBody?`
find the end of each, `unescape?` and `blockValue` the text that it stands for.
-/

namespace SchemaHint.Sdl

set_option autoImplicit false

/-! ## Quoted strings -/

/-- The text up to the closing quote, and the text after it. A line break ends the search. -/
def stringBody? : List Char → Option (List Char × List Char)
  | [] => none
  | '"' :: cs => some ([], cs)
  | '\n' :: _ => none
  | '\\' :: '"' :: cs => (stringBody? cs).map fun r => ('\\' :: '"' :: r.1, r.2)
  | '\\' :: '\\' :: cs => (stringBody? cs).map fun r => ('\\' :: '\\' :: r.1, r.2)
  | c :: cs => (stringBody? cs).map fun r => (c :: r.1, r.2)

/-- The character of a code point that is not half of a surrogate pair. -/
def scalar? (n : Nat) : Option Char := if n.isValidChar then some (Char.ofNat n) else none

/-- The text that the body of a string stands for. -/
def unescape? : List Char → Option (List Char)
  | [] => some []
  | '\\' :: 'u' :: a :: b :: c :: d :: cs => do
    let x ← (Text.hexNatural? [a, b, c, d]).bind scalar?
    let rest ← unescape? cs
    return x :: rest
  | '\\' :: c :: cs => do
    let x ← match c with
      | '"' => some '"'
      | '\\' => some '\\'
      | '/' => some '/'
      | 'n' => some '\n'
      | 'r' => some '\r'
      | 't' => some '\t'
      | 'f' => some '\x0C'
      | 'b' => some '\x10'
      | _ => none
    let rest ← unescape? cs
    return x :: rest
  | '\\' :: [] => none
  | c :: cs => (unescape? cs).map (c :: ·)

/-! ## Block strings -/

/-- The text up to the closing triple quote, and the text after it. A triple quote after a backslash
does not close; `escaped` tells whether the character before was one. -/
def blockBody? : Bool → List Char → Option (List Char × List Char)
  | _, [] => none
  | escaped, '"' :: '"' :: '"' :: cs =>
    if escaped then (blockBody? false cs).map fun r => ('"' :: '"' :: '"' :: r.1, r.2)
    else some ([], cs)
  | _, c :: cs => (blockBody? (c = '\\') cs).map fun r => (c :: r.1, r.2)

/-- A line without the carriage return at its end. -/
def dropReturn (line : List Char) : List Char :=
  if line.getLast? = some '\r' then line.dropLast else line

/-- The lines of a text, each without its line break. -/
def textLines (cs : List Char) : List (List Char) :=
  let ls := Text.pieces '\n' cs
  ls.dropLast.map dropReturn ++ ls.getLast?.toList

/-- The number of bytes of a text. -/
def byteCount : List Char → Nat
  | [] => 0
  | c :: cs => c.utf8Size + byteCount cs

/-- The bytes of the blanks that a line starts with. -/
def indentOf (line : List Char) : Nat := byteCount (line.takeWhile Text.isBlank)

/-- The line after its first `n` bytes. -/
def dropBytes : Nat → List Char → List Char
  | _, [] => []
  | n, c :: cs => if n = 0 then c :: cs else dropBytes (n - c.utf8Size) cs

/-- The least number of a list. -/
def least? : List Nat → Option Nat
  | [] => none
  | n :: ns => some (ns.foldl min n)

/-- The line without the common indentation, if it is that long. -/
def dedent (indent : Option Nat) (line : List Char) : List Char :=
  match indent with
  | none => line
  | some n => if n ≤ byteCount line then dropBytes n line else line

/-- Every escaped triple quote without its backslash. -/
def unescapeTriples : List Char → List Char
  | [] => []
  | '\\' :: '"' :: '"' :: '"' :: cs => '"' :: '"' :: '"' :: unescapeTriples cs
  | c :: cs => c :: unescapeTriples cs

/-- The list without the blank lines at its two ends. -/
def trimLines (lines : List (List Char)) : List (List Char) :=
  ((lines.dropWhile Text.isBlankText).reverse.dropWhile Text.isBlankText).reverse

/-- The text that the body of a block string stands for. The first line keeps its indentation, and
does not count for the one that the others share. -/
def blockValue (body : List Char) : List Char :=
  let lines := textLines body
  let indent := least? ((lines.tail.filter (fun l => !Text.isBlankText l)).map indentOf)
  let dedented := lines.take 1 ++ lines.tail.map (dedent indent)
  Text.join ['\n'] ((trimLines dedented).map unescapeTriples)

end SchemaHint.Sdl
