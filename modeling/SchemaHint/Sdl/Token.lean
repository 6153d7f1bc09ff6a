import SchemaHint.Decimal.Binary64
import SchemaHint.Location

/-!
# Tokens of schema texts

A token is a punctuator, a name, a number or a string. `Punctuator.ofChar?` and the
character classes say how tokens are spelled.
-/

namespace SchemaHint.Sdl

set_option autoImplicit false

/-- The punctuation of the language. -/
inductive Punctuator
  | openParen
  | closeParen
  | openBracket
  | closeBracket
  | openBrace
  | closeBrace
  | bang
  | dollar
  | colon
  | equals
  | atSign
  | pipe
  | ampersand
  | ellipsis
deriving DecidableEq, Repr

/-- The punctuator of one character. -/
def Punctuator.ofChar? (c : Char) : Option Punctuator :=
  match c with
  | '(' => some .openParen
  | ')' => some .closeParen
  | '[' => some .openBracket
  | ']' => some .closeBracket
  | '\x7b' => some .openBrace
  | '\x7d' => some .closeBrace
  | '!' => some .bang
  | '$' => some .dollar
  | ':' => some .colon
  | '=' => some .equals
  | '@' => some .atSign
  | '|' => some .pipe
  | '&' => some .ampersand
  | _ => none

/-- Whether a punctuator opens a bracketed part. -/
def Punctuator.opens : Punctuator → Bool
  | .openParen | .openBracket | .openBrace => true
  | _ => false

/-- Whether a punctuator closes a bracketed part. -/
def Punctuator.closes : Punctuator → Bool
  | .closeParen | .closeBracket | .closeBrace => true
  | _ => false

/-- A word of a schema text, with the value it stands for. -/
inductive Token
  | punct (p : Punctuator)
  | name (text : String)
  | int (value : Int)
  | float (value : Binary64)
  | string (value : String)
deriving DecidableEq, Repr

/-- A token and the position of its first character. -/
structure Located where
  position : Position
  token : Token
deriving DecidableEq, Repr

/-- A character that a name can start with. -/
def isNameStart (c : Char) : Bool := c.isAlpha || c = '_'

/-- A character that a name can go on with. -/
def isNameChar (c : Char) : Bool := c.isAlphanum || c = '_'

/-- A character that stands between tokens and means nothing. -/
def isIgnored (c : Char) : Bool :=
  c = ' ' || c = ',' || c = '\t' || c = '\n' || c = '\r' || c = '\uFEFF'

/-- A character at which a number ends. -/
def endsNumber (c : Char) : Bool :=
  c = ' ' || c = '\n' || c = '\r' || c = '\t' || c = ',' || c = '#' ||
    (Punctuator.ofChar? c).isSome

end SchemaHint.Sdl
