/-!
# Tokens at the cursor

A `CursorToken` is the word of the query text that the cursor touches, with the class that an
editor's lexer gave it.
-/

namespace SchemaHint

set_option autoImplicit false

/-- The lexical class of a token. -/
inductive TokenClass
  | atom
  | attributeName
  | builtin
  | comment
  | definition
  | invalid
  | keyword
  | number
  | property
  | punctuation
  | qualifier
  | string
  | stringSpecial
  | variableName
deriving DecidableEq, Repr

namespace TokenClass

/-- Every class. -/
def all : List TokenClass := [
  atom, attributeName, builtin, comment, definition, invalid, keyword, number, property, punctuation,
  qualifier, string, stringSpecial, variableName]

/-- The name of a class. -/
def name : TokenClass → String
  | atom => "atom"
  | attributeName => "attribute"
  | builtin => "builtin"
  | comment => "comment"
  | definition => "def"
  | invalid => "invalid"
  | keyword => "keyword"
  | number => "number"
  | property => "property"
  | punctuation => "punctuation"
  | qualifier => "qualifier"
  | string => "string"
  | stringSpecial => "stringspecial"
  | variableName => "variable"

/-- A text that is not the name of a class. -/
structure ParseError where
  name : String
deriving DecidableEq, Repr

/-- The explanation of an error. -/
def ParseError.message (e : ParseError) : String := "`" ++ e.name ++ "` is not a known token class"

/-- Reads the name of a class; `string-2` is another name of special strings. -/
def parse (s : String) : Except ParseError TokenClass :=
  if s = "string-2" then .ok stringSpecial
  else
    match all.find? fun c => c.name = s with
    | some c => .ok c
    | none => .error ⟨s⟩

end TokenClass

/-- The token that the cursor touches. -/
structure CursorToken where
  /-- Absent on blanks and wherever no token is. -/
  tokenClass : Option TokenClass
  string : String
  /-- The column of the first character. -/
  start : Nat
  /-- The column after the last character. -/
  stop : Nat
deriving DecidableEq, Repr

end SchemaHint
