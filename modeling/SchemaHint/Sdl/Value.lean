import SchemaHint.Decimal.Shortest
import SchemaHint.Sdl.Lexer
import SchemaHint.Text.Quoted

/-!
# Values in schema texts

`Value.chars` writes a value and `Value.read` reads one off the front of the tokens, in a single
pass that keeps the lists and objects still open on a stack. The fields of an object are kept in the
order of their names.
-/

namespace SchemaHint.Sdl

set_option autoImplicit false

/-- A value, as default values and directive arguments write them. -/
inductive Value
  | boolean (b : Bool)
  | enum (name : String)
  | float (x : Binary64)
  | int (n : Int)
  | list (items : List Value)
  | null
  | object (fields : List (String × Value))
  | string (s : String)
  | variableUse (name : String)

namespace Value

/-! ## Writing -/

/-- The digits of an integer, with its sign. -/
def intChars (n : Int) : List Char :=
  if n < 0 then '-' :: Text.digits n.natAbs else Text.digits n.natAbs

mutual

/-- The characters of a value. -/
def chars : Value → List Char
  | .boolean b => if b then "true".toList else "false".toList
  | .enum name => name.toList
  | .float x => x.text.toList
  | .int n => intChars n
  | .list items => '[' :: Text.join [',', ' '] (itemsChars items) ++ [']']
  | .null => "null".toList
  | .object fields => '\x7b' :: Text.join [',', ' '] (fieldsChars fields) ++ ['\x7d']
  | .string s => Text.quotedChars s.toList
  | .variableUse name => '$' :: name.toList

/-- The characters of each value of a list. -/
def itemsChars : List Value → List (List Char)
  | [] => []
  | v :: vs => v.chars :: itemsChars vs

/-- The characters of each field of an object. -/
def fieldsChars : List (String × Value) → List (List Char)
  | [] => []
  | (name, v) :: fs => (name.toList ++ ':' :: ' ' :: v.chars) :: fieldsChars fs

end

/-- The text of a value. -/
def text (v : Value) : String := String.ofList v.chars

/-! ## Reading -/

/-- Puts a field into a list that is ordered by name, in place of one of the same name. -/
def insertField (name : String) (value : Value) : List (String × Value) → List (String × Value)
  | [] => [(name, value)]
  | (n, v) :: rest =>
    if name < n then (name, value) :: (n, v) :: rest
    else if name = n then (name, value) :: rest
    else (n, v) :: insertField name value rest

/-- A list or object of which some part has been read. -/
inductive Opened
  /-- A list, with its items so far, the last first. -/
  | list (items : List Value)
  /-- An object between two fields. -/
  | object (fields : List (String × Value))
  /-- An object before the value of the field of the given name. -/
  | field (fields : List (String × Value)) (name : String)

/-- What a value that has been read leads to: the end, or more to read into what is open. -/
inductive Next
  | done (value : Value)
  | more (stack : List Opened)
  | stuck

/-- Puts a value into the innermost part that is open. -/
def deliver (value : Value) : List Opened → Next
  | [] => .done value
  | .list items :: stack => .more (.list (value :: items) :: stack)
  | .field fields name :: stack => .more (.object (insertField name value fields) :: stack)
  | .object _ :: _ => .stuck

/-- The value of a name that is not a variable. -/
def ofName (name : String) : Value :=
  if name = "true" then .boolean true
  else if name = "false" then .boolean false
  else if name = "null" then .null
  else .enum name

/-- The value of a single token. -/
def ofToken? : Token → Option Value
  | .name n => some (ofName n)
  | .int n => some (.int n)
  | .float x => some (.float x)
  | .string s => some (.string s)
  | .punct _ => none

/-- Reads a value into the stack of what is open. Variables are read only if `withVariables` holds. -/
def readInto (withVariables : Bool) : List Opened → List Located → Option (Value × List Located)
  | .object fields :: stack, ⟨_, .name name⟩ :: ⟨_, .punct .colon⟩ :: rest =>
    readInto withVariables (.field fields name :: stack) rest
  | .object fields :: stack, ⟨_, .punct .closeBrace⟩ :: rest =>
    match deliver (.object fields) stack with
    | .done v => some (v, rest)
    | .more stack => readInto withVariables stack rest
    | .stuck => none
  | .object _ :: _, _ => none
  | .list items :: stack, ⟨_, .punct .closeBracket⟩ :: rest =>
    match deliver (.list items.reverse) stack with
    | .done v => some (v, rest)
    | .more stack => readInto withVariables stack rest
    | .stuck => none
  | stack, ⟨_, .punct .openBracket⟩ :: rest => readInto withVariables (.list [] :: stack) rest
  | stack, ⟨_, .punct .openBrace⟩ :: rest => readInto withVariables (.object [] :: stack) rest
  | stack, ⟨_, .punct .dollar⟩ :: ⟨_, .name name⟩ :: rest =>
    if withVariables then
      match deliver (.variableUse name) stack with
      | .done v => some (v, rest)
      | .more stack => readInto withVariables stack rest
      | .stuck => none
    else none
  | stack, ⟨_, token⟩ :: rest =>
    match ofToken? token with
    | none => none
    | some v =>
      match deliver v stack with
      | .done v => some (v, rest)
      | .more stack => readInto withVariables stack rest
      | .stuck => none
  | _, [] => none

/-- Reads a value that may hold variables. -/
def read (tokens : List Located) : Option (Value × List Located) := readInto true [] tokens

/-- Reads a value without variables. -/
def readConst (tokens : List Located) : Option (Value × List Located) := readInto false [] tokens

/-- Reads a text that holds a value without variables and nothing else. -/
def parse? (cs : List Char) : Option Value :=
  match tokenize cs with
  | none => none
  | some tokens =>
    match readConst tokens with
    | some (v, []) => some v
    | _ => none

end Value

end SchemaHint.Sdl
