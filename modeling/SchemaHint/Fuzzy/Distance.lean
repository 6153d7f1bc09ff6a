/-!
# Edit distance

`distance a b` counts the edits that turn `a` into `b`: dropping, adding or changing a character,
or swapping two neighbours that no other edit touches. It is computed row by row: the row of an
ending of `a` holds its distances to the endings of `b`, the longest first.
-/

namespace SchemaHint.Fuzzy

set_option autoImplicit false

/-- What it costs to put `y` in the place of `x`. -/
def changeCost (x y : Char) : Nat := if x = y then 0 else 1

/-- The row of the empty ending: each ending of `b` has to be added whole. -/
def lastRow : List Char → List Nat
  | [] => [0]
  | _ :: b => (b.length + 1) :: lastRow b

/-- The row of an ending that starts with `x`. `below` is the row of the ending after `x`; if that
starts with `x'`, `swap` holds `x'` and the row of the ending after both. -/
def nextRow (x : Char) : List Char → List Nat → Option (Char × List Nat) → List Nat
  | [], below, _ => [below.headD 0 + 1]
  | y :: b, below, swap =>
    let right := nextRow x b below.tail (swap.map fun p => (p.1, p.2.tail))
    let plain := min (min (below.headD 0 + 1) (right.headD 0 + 1))
      (below.tail.headD 0 + changeCost x y)
    let here := match swap, b with
      | some (x', row), y' :: _ =>
        if x = y' ∧ x' = y then min plain (row.tail.tail.headD 0 + changeCost x y) else plain
      | _, _ => plain
    here :: right

/-- The row of `a` and, if `a` starts with a character, that character and the row below. -/
def rows (b : List Char) : List Char → List Nat × Option (Char × List Nat)
  | [] => (lastRow b, none)
  | x :: a =>
    let r := rows b a
    (nextRow x b r.1 r.2, some (x, r.1))

/-- The number of edits between two texts. -/
def distanceChars (a b : List Char) : Nat := (rows b a).1.headD 0

/-- The number of edits between two texts. -/
def distance (a b : String) : Nat := distanceChars a.toList b.toList

end SchemaHint.Fuzzy
