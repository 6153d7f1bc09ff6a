import SchemaHint.Chain.State

/-!
# Chains of grammar states

A chain lists the states around the cursor, the outermost first; the last one is its leaf.
`Chain.text` writes a chain with ` > ` between the states and `Chain.parse` reads one, telling the
leftmost segment that is wrong.
-/

namespace SchemaHint

set_option autoImplicit false

/-- The states around the cursor, the outermost first. -/
abbrev Chain := List Chain.State

namespace Chain

/-- The state that encloses the one at an index. -/
def enclosing (chain : Chain) : Nat → Option State
  | 0 => none
  | i + 1 => chain[i]?

/-- The state that the cursor is in. -/
def leaf (c : Chain) : Option State := c.getLast?

/-- The kind of the state just around the leaf. -/
def leafAncestorKind (c : Chain) : Option Kind := (enclosing c (c.length - 1)).map State.kind

/-- The characters of a chain's text. -/
def chars (c : Chain) : List Char := Text.join [' ', '>', ' '] (c.map State.chars)

/-- The text of a chain. -/
def text (c : Chain) : String := String.ofList (chars c)

/-- Reads the segments of a chain, the first of which has the given index. -/
def parseSegments (index : Nat) : List (List Char) → Except ParseError Chain
  | [] => .ok []
  | s :: rest =>
    if Text.isBlankText s then .error (.emptySegment index)
    else
      match State.parseChars s with
      | .error e => .error e
      | .ok state =>
        match parseSegments (index + 1) rest with
        | .error e => .error e
        | .ok states => .ok (state :: states)

/-- Reads the text of a chain: states with `>` between them. -/
def parseChars (cs : List Char) : Except ParseError Chain :=
  if Text.isBlankText cs then .error .emptyChain else parseSegments 0 (Text.pieces '>' cs)

/-- Reads the text of a chain. -/
def parse (s : String) : Except ParseError Chain := parseChars s.toList

/-- The node at an index and those that enclose it, the outermost first; each node comes with the
index of the one that encloses it. A walk that comes back to a node it has seen would not end, so at most
one step per node is taken. -/
def collectUpTo (nodes : List (State × Option Nat)) : Nat → Nat → Chain
  | 0, _ => []
  | n + 1, i =>
    match nodes[i]? with
    | none => []
    | some (state, none) => [state]
    | some (state, some j) => collectUpTo nodes n j ++ [state]

/-- The chain of the nodes from the one at `leaf` outwards, the outermost first. -/
def collect (nodes : List (State × Option Nat)) (leaf : Nat) : Chain :=
  collectUpTo nodes nodes.length leaf

end Chain

end SchemaHint
