import SchemaHint.Candidate.Basic
import SchemaHint.Decimal.Binary64
import SchemaHint.Fuzzy.Distance
import SchemaHint.Fuzzy.Normalize

/-!
# Ranking candidates

`proximity` scores how far a candidate is from the typed text, in halves of an edit. `rank` keeps
the candidates within a bound and sorts them by score, then by length, equal ones staying in order.
-/

namespace SchemaHint.Fuzzy

set_option autoImplicit false

/-- Twice the distance between a typed text and a candidate, both in normal form. A candidate that
is longer than the typed text pays for only one of its further characters, and half an edit more
unless it starts with the typed text. -/
def proximityChars (candidate typed : List Char) : Nat :=
  let d := 2 * distanceChars typed candidate
  if typed.length < candidate.length then
    d - 2 * (candidate.length - typed.length - 1) + if typed.isPrefixOf candidate then 0 else 1
  else d

/-- Twice the score of a candidate's text against a typed text in normal form. -/
def proximity (candidate typed : String) : Nat :=
  proximityChars (normalizeChars candidate.toList) typed.toList

/-- What a ranking depends on. -/
structure RankOptions where
  /-- Candidates with a greater score are left out. -/
  maxProximity : Binary64 := .ofNat 2
  /-- Whether all candidates are kept when each would be left out. -/
  fallBack : Bool := true
deriving DecidableEq, Repr

/-- The keys by which candidates are sorted: the score, then the length of the text. -/
def sortKey (typed : String) (c : Candidate) : Nat × Nat :=
  (proximity c.text typed, c.text.length)

/-- Whether the first candidate may stand before the second. -/
def mayPrecede (typed : String) (a b : Candidate) : Bool :=
  let (p, m) := sortKey typed a
  let (q, n) := sortKey typed b
  p < q || (p = q && m ≤ n)

/-- Whether a candidate is close enough. -/
def isClose (options : RankOptions) (typed : String) (c : Candidate) : Bool :=
  options.maxProximity.halvesLe (proximity c.text typed)

/-- The candidates that are close to the typed text, the best first. Without a word character in the
typed text nothing is left out or moved. -/
def rank (options : RankOptions) (typed : String) (candidates : List Candidate) :
    List Candidate :=
  let typed := normalize typed
  if typed.isEmpty then candidates
  else
    let close := candidates.filter (isClose options typed)
    if close.isEmpty then
      if options.fallBack then candidates else []
    else close.mergeSort (mayPrecede typed)

end SchemaHint.Fuzzy
