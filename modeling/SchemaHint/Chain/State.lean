import SchemaHint.Chain.Kind
import SchemaHint.Text.Blank
import SchemaHint.Text.Numeral
import SchemaHint.Text.Split

/-!
# Grammar states

A `State` is one production around the cursor, with the step reached in it and the name and type
name that belong to it. Its text is `Kind[#step][:name][@type]`; `State.text` writes it, leaving out
a zero step, and `State.parse` reads it.
-/

namespace SchemaHint.Chain

set_option autoImplicit false

/-- A production that encloses the cursor. -/
structure State where
  kind : Kind
  /-- The place within the production, such as `2` on the value of an argument. -/
  step : Nat := 0
  /-- The name of the field, argument, directive or fragment. -/
  name : Option String := none
  /-- The type named by a fragment. -/
  typeName : Option String := none
deriving DecidableEq, Repr

/-- Why a text is not that of a chain. -/
inductive ParseError
  | emptyChain
  | emptySegment (index : Nat)
  | invalidStep (segment : String)
  | unknownKind (name : String)
deriving DecidableEq, Repr

/-- The explanation of an error. -/
def ParseError.message : ParseError → String
  | .emptyChain => "A grammar state chain must contain at least one state"
  | .emptySegment index => "Grammar state #" ++ toString index ++ " in the chain is empty"
  | .invalidStep segment =>
    "The step in grammar state `" ++ segment ++ "` is not a non-negative integer"
  | .unknownKind name => "`" ++ name ++ "` is not a known grammar kind"

/-- Reads the name of a kind. -/
def Kind.parse (s : String) : Except ParseError Kind :=
  match ofName? s with
  | some k => .ok k
  | none => .error (.unknownKind s)

namespace State

/-- A part of a state's text: nothing, or its mark and the text. -/
def partChars (mark : Char) : Option (List Char) → List Char
  | none => []
  | some cs => mark :: cs

/-- The characters of a state's text. -/
def chars (s : State) : List Char :=
  s.kind.name.toList ++
    partChars '#' (if s.step = 0 then none else some (Text.digits s.step)) ++
    partChars ':' (s.name.map String.toList) ++
    partChars '@' (s.typeName.map String.toList)

/-- The text of a state. -/
def text (s : State) : String := String.ofList s.chars

/-- A part that is there and not empty. -/
def partOf? : Option (List Char) → Option String
  | none => none
  | some cs => if cs.isEmpty then none else some (String.ofList cs)

/-- Reads a step: zero when there is none, nothing when it is not a word. -/
def step? : Option (List Char) → Option Nat
  | none => some 0
  | some cs => Text.word? cs

/-- Reads the text of a state, blanks around it apart. The type name follows the first `@`, the name
the first `:` before that, and the step the first `#` before both. -/
def parseChars (cs : List Char) : Except ParseError State :=
  let segment := Text.trim cs
  let (front, typeName) := Text.cut '@' segment
  let (front, name) := Text.cut ':' front
  let (kind, step) := Text.cut '#' front
  match step? step with
  | none => .error (.invalidStep (String.ofList segment))
  | some n =>
    match Kind.parse (String.ofList kind) with
    | .error e => .error e
    | .ok k => .ok ⟨k, n, partOf? name, partOf? typeName⟩

/-- Reads the text of a state. -/
def parse (s : String) : Except ParseError State := parseChars s.toList

end State

end SchemaHint.Chain
