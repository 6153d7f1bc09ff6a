import SchemaHint.Sdl.Number
import SchemaHint.Sdl.StringText

/-!
# From schema texts to tokens

`scan` takes a text apart into pieces: ignored characters, comments and tokens with their spelling.
`locate` gives each token the position at which it stands. `tokenize` does both and refuses texts
with too many open brackets.
-/

namespace SchemaHint.Sdl

set_option autoImplicit false

/-! ## Pieces -/

/-- A part of a text that lexing does not divide. -/
inductive Piece
  /-- A single ignored character. -/
  | ignored (c : Char)
  /-- A comment up to the end of its line. -/
  | comment
  /-- A token and the characters that spell it. -/
  | token (token : Token) (spelling : List Char)
deriving DecidableEq, Repr

/-- A character that ends a comment. -/
def endsComment (c : Char) : Bool := c = '\n' || c = '\r'

/-- The string or block string after an opening quote. -/
def nextString? (cs : List Char) : Option (Piece × List Char) :=
  match cs with
  | '"' :: '"' :: rest => do
    let (body, rest) ← blockBody? false rest
    let quotes := ['"', '"', '"']
    return (.token (.string (String.ofList (blockValue body))) (quotes ++ body ++ quotes), rest)
  | _ => do
    let (body, rest) ← stringBody? cs
    let value ← unescape? body
    return (.token (.string (String.ofList value)) ('"' :: body ++ ['"']), rest)

/-- The piece that starts with `c` in the text `c :: cs`, and what follows it. -/
def next? (c : Char) (cs : List Char) : Option (Piece × List Char) :=
  if isIgnored c then some (.ignored c, cs)
  else if c = '#' then some (.comment, (cs.dropWhile (fun x => !endsComment x)).tail)
  else if isNameStart c then
    let word := c :: cs.takeWhile isNameChar
    some (.token (.name (String.ofList word)) word, cs.dropWhile isNameChar)
  else if c.isDigit || c = '-' then
    let word := c :: cs.takeWhile (fun x => !endsNumber x)
    (number? word).map fun t => (.token t word, cs.dropWhile (fun x => !endsNumber x))
  else if c = '"' then nextString? cs
  else
    match c, cs with
    | '.', '.' :: '.' :: rest => some (.token (.punct .ellipsis) ['.', '.', '.'], rest)
    | _, _ => (Punctuator.ofChar? c).map fun p => (.token (.punct p) [c], cs)

/-- The pieces of a text. -/
def scan (cs : List Char) : Option (List Piece) :=
  match cs with
  | [] => some []
  | c :: cs =>
    match next? c cs with
    | none => none
    | some (piece, rest) =>
      if _h : rest.length ≤ cs.length then (scan rest).map (piece :: ·) else none
termination_by cs.length
decreasing_by simp; omega

/-! ## Positions -/

/-- The first position of a text. -/
def startPosition : Position := ⟨1, 1⟩

/-- The start of the next line. -/
def nextLine (p : Position) : Position := ⟨p.line + 1, 1⟩

/-- The position after the characters of a token. -/
def afterSpelling (p : Position) (spelling : List Char) : Position :=
  match spelling.count '\n' with
  | 0 => ⟨p.line, p.column + spelling.length⟩
  | n => ⟨p.line + n, 1 + (spelling.reverse.takeWhile (· ≠ '\n')).length⟩

/-- The position after a piece. -/
def afterPiece (p : Position) : Piece → Position
  | .ignored c =>
    if c = '\n' then nextLine p
    else if c = '\t' then ⟨p.line, p.column + 8⟩
    else if c = ' ' || c = ',' then ⟨p.line, p.column + 1⟩
    else p
  | .comment => nextLine p
  | .token _ spelling => afterSpelling p spelling

/-- The tokens among the pieces, each with its position; the first piece stands at `p`. -/
def locate (p : Position) : List Piece → List Located
  | [] => []
  | piece :: rest =>
    match piece with
    | .token t _ => ⟨p, t⟩ :: locate (afterPiece p piece) rest
    | _ => locate (afterPiece p piece) rest

/-! ## Nesting -/

/-- The number of brackets that may be open at a time. -/
def maxNesting : Nat := 50

/-- Whether at most `maxNesting` brackets are open at any time, `depth` being open at the start. -/
def nestsWithin (depth : Nat) : List Located → Bool
  | [] => true
  | ⟨_, .punct p⟩ :: rest =>
    if p.opens then depth < maxNesting && nestsWithin (depth + 1) rest
    else if p.closes then nestsWithin (depth - 1) rest
    else nestsWithin depth rest
  | _ :: rest => nestsWithin depth rest

/-- The tokens of a text. -/
def tokenize (cs : List Char) : Option (List Located) :=
  match scan cs with
  | none => none
  | some pieces =>
    let tokens := locate startPosition pieces
    if nestsWithin 0 tokens then some tokens else none

end SchemaHint.Sdl
