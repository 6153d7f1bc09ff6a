import SchemaHint.Candidate.Basic
import SchemaHint.Completion.Token
import SchemaHint.Fuzzy.Normalize

/-!
# Completions

A completion is a list of candidates and the columns of the line that an accepted one replaces.
-/

namespace SchemaHint

set_option autoImplicit false

/-- Candidates and the span that each of them would replace. -/
structure Completion where
  candidates : List Candidate
  line : Nat
  rangeStart : Nat
  rangeEnd : Nat
deriving DecidableEq, Repr

/-- The columns that a candidate replaces. Without a class or any character the token is only an
insertion point at its end; a sign in front of a word stays. -/
def CursorToken.replacementRange (t : CursorToken) : Nat × Nat :=
  match t.tokenClass, t.string.toList with
  | none, _ => (t.stop, t.stop)
  | _, [] => (t.stop, t.stop)
  | some _, c :: _ => (if Fuzzy.isWordChar c then t.start else t.start + 1, t.stop)

/-- The completion of a token on a line. -/
def Completion.assemble (candidates : List Candidate) (t : CursorToken) (line : Nat) : Completion :=
  { candidates, line, rangeStart := t.replacementRange.1, rangeEnd := t.replacementRange.2 }

end SchemaHint
