import SchemaHint.Candidate.Generate
import SchemaHint.Completion.Result
import SchemaHint.Fuzzy.Rank

/-!
# Hints

`Hinter.hint` goes all the way from a request to a completion: context, candidates, ranking and
range. Every listener is told of each completion, in order.
-/

namespace SchemaHint

set_option autoImplicit false

/-- What is known about the cursor. -/
structure HintRequest where
  chain : Chain
  token : CursorToken
  line : Nat := 0
  fragments : List KnownFragment := []

/-- A source of completions. A listener answers each completion and its token with a notice. -/
structure Hinter (Notice : Type) where
  listeners : List (Completion → CursorToken → Notice) := []
  options : Fuzzy.RankOptions := {}

/-- The completion for a request: none in a comment, outside of all states, and where nothing can be
suggested. -/
def complete (options : Fuzzy.RankOptions) (s : Schema) (r : HintRequest) : Option Completion :=
  if r.token.tokenClass = some .comment then none
  else do
    let leaf ← r.chain.leaf
    let ctx := Context.resolve s r.chain
    let candidates ← Candidate.generate s ctx leaf r.chain.leafAncestorKind r.fragments
    return .assemble (Fuzzy.rank options r.token.string candidates) r.token r.line

/-- The completion for a request, if there is a schema, and the notices of the listeners, which hear
only of completions. -/
def Hinter.hint {Notice : Type} (h : Hinter Notice) (schema : Option Schema) (r : HintRequest) :
    Option Completion × List Notice :=
  match schema.bind fun s => complete h.options s r with
  | none => (none, [])
  | some c => (some c, h.listeners.map fun listener => listener c r.token)

end SchemaHint
