import SchemaHint.Sdl.Document

/-!
# Reading schema documents

The readers follow the grammar with one token of lookahead and never go back: what a token starts
has to be complete. `Document.parse?` reads a whole text.
-/

namespace SchemaHint.Sdl

set_option autoImplicit false

/-- Takes a part of a document off the front of the tokens; it fails if no such part is there. -/
abbrev Reader := StateT (List Located) Option

namespace Reader

/-! ## Tokens -/

/-- The next token, which stays there. -/
def peek : Reader (Option Token) := do
  return (← get).head?.map Located.token

/-- The position of the next token. -/
def position : Reader Position := do
  match (← get).head? with
  | some t => return t.position
  | none => failure

/-- Whether the next token is the given punctuator. -/
def atPunct (p : Punctuator) : Reader Bool := do
  return (← peek) = some (.punct p)

/-- Whether the next token is the given word. -/
def atWord (word : String) : Reader Bool := do
  return (← peek) = some (.name word)

/-- Drops the next token. -/
def skip : Reader Unit := modify List.tail

/-- Reads the given punctuator. -/
def punct (p : Punctuator) : Reader Unit := do
  if ← atPunct p then skip else failure

/-- Reads the given word. -/
def word (w : String) : Reader Unit := do
  if ← atWord w then skip else failure

/-- Reads the given punctuator if it comes next. -/
def punct? (p : Punctuator) : Reader Bool := do
  if ← atPunct p then
    skip
    return true
  else return false

/-- Reads the given word if it comes next. -/
def word? (w : String) : Reader Bool := do
  if ← atWord w then
    skip
    return true
  else return false

/-- Reads a name. -/
def name : Reader String := do
  match ← peek with
  | some (.name n) =>
    skip
    return n
  | _ => failure

/-! ## Repetition -/

/-- Reads parts for as long as the next token starts one. A part takes at least one token. -/
def many {α : Type} (starts : Token → Bool) (part : Reader α) (tokens : List Located) :
    Option (List α × List Located) :=
  match tokens with
  | [] => some ([], [])
  | t :: ts =>
    if starts t.token then
      match part (t :: ts) with
      | none => none
      | some (a, rest) =>
        if _h : rest.length ≤ ts.length then
          (many starts part rest).map fun r => (a :: r.1, r.2)
        else none
    else some ([], t :: ts)
termination_by tokens.length
decreasing_by simp; omega

/-- Reads one part or more. -/
def many1 {α : Type} (starts : Token → Bool) (part : Reader α) : Reader (List α) := do
  let first ← part
  let others ← many starts part
  return first :: others

/-- Reads one part or more with the given punctuator between them. -/
def separated1 {α : Type} (sep : Punctuator) (part : Reader α) : Reader (List α) := do
  let first ← part
  let others ← many (· = .punct sep) (do skip; part)
  return first :: others

/-- Reads one part or more between two punctuators. -/
def enclosed1 {α : Type} (opening closing : Punctuator) (part : Reader α) : Reader (List α) := do
  punct opening
  let parts ← many1 (· ≠ .punct closing) part
  punct closing
  return parts

/-- Reads a part if the given punctuator comes next; it is empty otherwise. -/
def ifPunct {α : Type} (p : Punctuator) (part : Reader (List α)) : Reader (List α) := do
  if ← atPunct p then part else return []

/-! ## Parts of definitions -/

/-- Reads a string if one comes next. -/
def description? : Reader (Option String) := do
  match ← peek with
  | some (.string s) =>
    skip
    return some s
  | _ => return none

/-- Reads a type expression. -/
def typeExpr : Reader TypeExpr := TypeExpr.read

/-- Reads a named argument of an applied directive. -/
def argument : Reader (String × Value) := do
  let n ← name
  punct .colon
  let v ← Value.read
  return (n, v)

/-- Reads an applied directive. -/
def application : Reader Application := do
  punct .atSign
  let n ← name
  let arguments ← ifPunct .openParen (enclosed1 .openParen .closeParen argument)
  return ⟨n, arguments⟩

/-- Reads the directives that are applied to an element. -/
def directives : Reader (List Application) := many (· = .punct .atSign) application

/-- Reads an argument definition or an input field. -/
def inputDef : Reader InputDef := do
  let p ← position
  let d ← description?
  let n ← name
  punct .colon
  let t ← typeExpr
  let default ← if ← punct? .equals then some <$> (Value.readConst : Reader Value) else pure none
  let ds ← directives
  return ⟨p, d, n, t, default, ds⟩

/-- Reads argument definitions in parentheses, if there are any. -/
def arguments? : Reader (List InputDef) :=
  ifPunct .openParen (enclosed1 .openParen .closeParen inputDef)

/-- Reads a field definition. -/
def fieldDef : Reader FieldDef := do
  let p ← position
  let d ← description?
  let n ← name
  let arguments ← arguments?
  punct .colon
  let t ← typeExpr
  let ds ← directives
  return ⟨p, d, n, arguments, t, ds⟩

/-- Reads an enum value. -/
def enumValueDef : Reader EnumValueDef := do
  let p ← position
  let d ← description?
  let n ← name
  let ds ← directives
  return ⟨p, d, n, ds⟩

/-- Reads members in braces, if there are any. -/
def members? {α : Type} (part : Reader α) : Reader (List α) :=
  ifPunct .openBrace (enclosed1 .openBrace .closeBrace part)

/-- Reads the interfaces after `implements`, if there are any. -/
def interfaces? : Reader (List String) := do
  if ← word? "implements" then
    let _ ← punct? .ampersand
    separated1 .ampersand name
  else return []

/-- Reads the members of a union after an equals sign, if there are any. -/
def unionMembers? : Reader (List String) := do
  if ← punct? .equals then
    let _ ← punct? .pipe
    separated1 .pipe name
  else return []

/-- Reads the part of a type definition or extension after its keyword: the name, the directives
and the body. -/
def typeRest (keyword : String) : Reader (String × List Application × Body) := do
  let n ← name
  match keyword with
  | "scalar" => return (n, ← directives, .scalar)
  | "type" =>
    let is ← interfaces?
    let ds ← directives
    return (n, ds, .object is (← members? fieldDef))
  | "interface" =>
    let is ← interfaces?
    let ds ← directives
    return (n, ds, .interface is (← members? fieldDef))
  | "union" =>
    let ds ← directives
    return (n, ds, .union (← unionMembers?))
  | "enum" =>
    let ds ← directives
    return (n, ds, .enum (← members? enumValueDef))
  | "input" =>
    let ds ← directives
    return (n, ds, .inputObject (← members? inputDef))
  | _ => failure

/-! ## Definitions -/

/-- Reads a type definition from its keyword on. -/
def typeDef (description : Option String) : Reader TypeDef := do
  let p ← position
  let keyword ← name
  let (n, ds, body) ← typeRest keyword
  return ⟨p, description, n, ds, body⟩

/-- Whether a body adds what an extension without directives has to add. -/
def addsMembers : Body → Bool
  | .scalar => false
  | .object interfaces fields => !interfaces.isEmpty || !fields.isEmpty
  | .interface _ fields => !fields.isEmpty
  | .union members => !members.isEmpty
  | .enum values => !values.isEmpty
  | .inputObject fields => !fields.isEmpty

/-- Reads a type extension from the keyword after `extend` on. -/
def typeExtension : Reader TypeExtension := do
  let p ← position
  let keyword ← name
  let (n, ds, body) ← typeRest keyword
  if ds.isEmpty && !addsMembers body then failure
  return ⟨p, n, ds, body⟩

/-- Reads the word of a directive location. -/
def directiveLocation : Reader DirectiveLocation := do
  match DirectiveLocation.ofWord? (← name) with
  | some l => return l
  | none => failure

/-- Reads the locations of a directive. There may be none, but a name that comes next is one, and a
bar needs one after it. -/
def directiveLocations : Reader (List DirectiveLocation) := do
  if ← punct? .pipe then separated1 .pipe directiveLocation
  else
    match ← peek with
    | some (.name _) => separated1 .pipe directiveLocation
    | _ => return []

/-- Reads a directive definition from its keyword on. -/
def directiveDef (description : Option String) : Reader DirectiveDef := do
  let p ← position
  word "directive"
  punct .atSign
  let n ← name
  let arguments ← arguments?
  let repeatable ← word? "repeatable"
  word "on"
  let locations ← directiveLocations
  return ⟨p, description, n, arguments, repeatable, locations⟩

/-- Reads the name of an operation and that of its root type. -/
def rootType : Reader (String × String) := do
  let operation ← name
  punct .colon
  let typeName ← name
  return (operation, typeName)

/-- The root types by operation, if only operations are named and each at most once. -/
def rootTypes? (entries : List (String × String)) :
    Option (Option String × Option String × Option String) :=
  let operations := ["query", "mutation", "subscription"]
  if entries.all (fun e => operations.contains e.1) && (entries.map Prod.fst).Nodup then
    some (entries.lookup "query", entries.lookup "mutation", entries.lookup "subscription")
  else none

/-- Reads the choice of the root types from its keyword on. -/
def schemaDef : Reader SchemaDef := do
  let p ← position
  word "schema"
  let ds ← directives
  punct .openBrace
  let entries ← many (· ≠ .punct .closeBrace) rootType
  punct .closeBrace
  match rootTypes? entries with
  | some (query, mutation, subscription) => return ⟨p, ds, query, mutation, subscription⟩
  | none => failure

/-- Reads a definition. -/
def definition : Reader Definition := do
  if ← atWord "schema" then return .schema (← schemaDef)
  else if ← word? "extend" then return .extension (← typeExtension)
  else
    let d ← description?
    if ← atWord "directive" then return .directive (← directiveDef d)
    else return .type (← typeDef d)

/-- Reads definitions up to the end of the tokens. -/
def document : Reader Document := many1 (fun _ => true) definition

end Reader

/-- The document of a schema text. -/
def Document.parse? (s : String) : Option Document :=
  match tokenize s.toList with
  | none => none
  | some tokens => (Reader.document tokens).map Prod.fst

end SchemaHint.Sdl
