import Mathlib.Algebra.Order.Ring.Nat
import Mathlib.Order.Bounds.Basic
import Mathlib.Order.MinMax
import SchemaHint.Fuzzy.Distance

/-!
# The distance is the least cost of an alignment

An alignment goes through two texts from left to right; every step of it uses up characters of one
or of both, and every character is used by exactly one step.

* `Step`, `Alignment` : the steps, what they use up and cost, and the alignments of two texts;
* `distanceChars_cons_cons` : the recurrence that the rows of distances follow;
* `distanceChars_step_le`, `exists_step` : no step brings the distance down by more than its cost,
  and some step brings it down by just that;
* `isLeast_cost_distanceChars` : the distance is the least cost of an alignment;
* `distance?` : the same rows with reads that fail past the end of a row; `rows?_eq` : none fails.
-/

namespace SchemaHint.Fuzzy

set_option autoImplicit false

/-! ## Alignments -/

/-- A step through a text and another one. -/
inductive Step
  /-- The next character of both is the same. -/
  | keep (x : Char)
  /-- The next character of the first is replaced. -/
  | change (x y : Char)
  /-- The next character of the first is left out. -/
  | drop (x : Char)
  /-- The next character of the second is put in. -/
  | add (y : Char)
  /-- The next two characters of the first change places. -/
  | swap (x y : Char)
deriving DecidableEq, Repr

namespace Step

/-- The characters of the first text that a step uses up. -/
def left : Step → List Char
  | .keep x => [x]
  | .change x _ => [x]
  | .drop x => [x]
  | .add _ => []
  | .swap x y => [x, y]

/-- The characters of the second text that a step uses up. -/
def right : Step → List Char
  | .keep x => [x]
  | .change _ y => [y]
  | .drop _ => []
  | .add y => [y]
  | .swap x y => [y, x]

def cost : Step → Nat
  | .keep _ => 0
  | _ => 1

theorem length_pos (s : Step) : 0 < s.left.length + s.right.length := by
  cases s <;> simp [left, right]

end Step

/-- A way through two texts, step by step. -/
structure Alignment (a b : List Char) where
  steps : List Step
  left_eq : steps.flatMap Step.left = a
  right_eq : steps.flatMap Step.right = b

namespace Alignment

variable {a b : List Char}

/-- What all steps cost together. -/
def cost (s : Alignment a b) : Nat := (s.steps.map Step.cost).sum

/-- The way through two empty texts. -/
def nil : Alignment [] [] := ⟨[], rfl, rfl⟩

/-- A step in front of an alignment. -/
def cons (step : Step) (s : Alignment a b) : Alignment (step.left ++ a) (step.right ++ b) where
  steps := step :: s.steps
  left_eq := by rw [List.flatMap_cons, s.left_eq]
  right_eq := by rw [List.flatMap_cons, s.right_eq]

theorem cost_cons (step : Step) (s : Alignment a b) : (cons step s).cost = s.cost + step.cost := by
  unfold cost cons
  rw [List.map_cons, List.sum_cons, Nat.add_comm]

/-- What holds of the empty alignment and is kept by every step in front holds of all. -/
theorem induct {p : ∀ a b, Alignment a b → Prop} (hnil : p [] [] nil)
    (hcons : ∀ (step : Step) (a b : List Char) (s : Alignment a b), p a b s →
      p _ _ (cons step s)) : ∀ {a b : List Char} (s : Alignment a b), p a b s := by
  rintro _ _ ⟨steps, rfl, rfl⟩
  induction steps with
  | nil => exact hnil
  | cons step steps ih => exact hcons step _ _ _ ih

end Alignment

/-! ## The recurrence -/

theorem length_lastRow (b : List Char) : (lastRow b).length = b.length + 1 := by
  induction b with
  | nil => rfl
  | cons y b ih => rw [lastRow, List.length_cons, ih, List.length_cons]

theorem tail_nextRow (x y : Char) (b : List Char) (below : List Nat)
    (swap : Option (Char × List Nat)) :
    (nextRow x (y :: b) below swap).tail =
      nextRow x b below.tail (swap.map fun p => (p.1, p.2.tail)) := rfl

theorem length_nextRow (x : Char) (b : List Char) (below : List Nat)
    (swap : Option (Char × List Nat)) : (nextRow x b below swap).length = b.length + 1 := by
  induction b generalizing below swap with
  | nil => rfl
  | cons y b ih =>
    have htail := ih below.tail (swap.map fun p => (p.1, p.2.tail))
    rw [← tail_nextRow x y, List.length_tail] at htail
    have hne : (nextRow x (y :: b) below swap).length ≠ 0 := Nat.succ_ne_zero _
    rw [List.length_cons]
    omega

theorem length_rows (a b : List Char) : (rows b a).1.length = b.length + 1 := by
  cases a with
  | nil => exact length_lastRow b
  | cons x a => exact length_nextRow ..

/-- The rows of an ending of `b` are what is left of those of `b`. -/
theorem tail_rows (y : Char) (a b : List Char) :
    (rows (y :: b) a).1.tail = (rows b a).1 ∧
      (rows (y :: b) a).2.map (fun p => (p.1, p.2.tail)) = (rows b a).2 := by
  induction a with
  | nil => exact ⟨rfl, rfl⟩
  | cons x a ih =>
    constructor
    · rw [rows, tail_nextRow, ih.1, ih.2]
      rfl
    · show some (x, (rows (y :: b) a).1.tail) = some (x, (rows b a).1)
      rw [ih.1]

theorem headD_rows (a b : List Char) : (rows b a).1.headD 0 = distanceChars a b := rfl

theorem headD_tail_rows (y : Char) (a b : List Char) :
    (rows (y :: b) a).1.tail.headD 0 = distanceChars a b := by
  rw [(tail_rows y a b).1, headD_rows]

theorem distanceChars_nil (b : List Char) : distanceChars [] b = b.length := by
  cases b <;> rfl

theorem distanceChars_cons_nil (x : Char) (a : List Char) :
    distanceChars (x :: a) [] = distanceChars a [] + 1 := rfl

theorem distanceChars_nil_right (a : List Char) : distanceChars a [] = a.length := by
  induction a with
  | nil => rfl
  | cons x a ih => rw [distanceChars_cons_nil, ih, List.length_cons]

/-- The least cost if the first step is not a swap. -/
def withoutSwap (x y : Char) (a b : List Char) : Nat :=
  min (min (distanceChars a (y :: b) + 1) (distanceChars (x :: a) b + 1))
    (distanceChars a b + changeCost x y)

/-- The reads of a row that a cell without a swap is made of. -/
theorem withoutSwap_eq (x y : Char) (a b : List Char) :
    withoutSwap x y a b =
      min (min ((rows (y :: b) a).1.headD 0 + 1)
          ((nextRow x b (rows (y :: b) a).1.tail
            ((rows (y :: b) a).2.map fun p => (p.1, p.2.tail))).headD 0 + 1))
        ((rows (y :: b) a).1.tail.headD 0 + changeCost x y) := by
  rw [(tail_rows y a b).1, (tail_rows y a b).2]
  rfl

theorem distanceChars_cons_cons (x y : Char) (a b : List Char) :
    distanceChars (x :: a) (y :: b) =
      match a, b with
      | x' :: a', y' :: b' =>
        if x = y' ∧ x' = y then min (withoutSwap x y a b) (distanceChars a' b' + changeCost x y)
        else withoutSwap x y a b
      | _, _ => withoutSwap x y a b := by
  match a, b with
  | [], b => exact (withoutSwap_eq x y [] b).symm
  | x' :: a', [] => exact (withoutSwap_eq x y (x' :: a') []).symm
  | x' :: a', y' :: b' =>
    have hswap : (rows (y :: y' :: b') a').1.tail.tail.headD 0 = distanceChars a' b' := by
      rw [(tail_rows y a' (y' :: b')).1, headD_tail_rows]
    dsimp only
    rw [withoutSwap_eq, ← hswap]
    rfl

/-- A cell is made of one of the cells that it reads. -/
theorem distanceChars_cases (x y : Char) (a b : List Char) :
    distanceChars (x :: a) (y :: b) = withoutSwap x y a b ∨
      ∃ a' b', a = y :: a' ∧ b = x :: b' ∧
        distanceChars (x :: a) (y :: b) = distanceChars a' b' + changeCost x y := by
  rw [distanceChars_cons_cons]
  match a, b with
  | [], b => exact Or.inl rfl
  | x' :: a', [] => exact Or.inl rfl
  | x' :: a', y' :: b' =>
    dsimp only
    by_cases hswap : x = y' ∧ x' = y
    · rw [if_pos hswap]
      obtain ⟨rfl, rfl⟩ := hswap
      rcases min_choice (withoutSwap x x' (x' :: a') (x :: b'))
          (distanceChars a' b' + changeCost x x') with h | h
      · exact Or.inl h
      · exact Or.inr ⟨a', b', rfl, rfl, h⟩
    · rw [if_neg hswap]
      exact Or.inl rfl

theorem distanceChars_le_withoutSwap (x y : Char) (a b : List Char) :
    distanceChars (x :: a) (y :: b) ≤ withoutSwap x y a b := by
  rw [distanceChars_cons_cons]
  split
  · split
    · exact min_le_left _ _
    · exact le_rfl
  · exact le_rfl

/-- What the relaxation by a swap reads is never less than the distance that it is for. -/
theorem distanceChars_swap_le (x y : Char) (a b : List Char) :
    distanceChars (x :: y :: a) (y :: x :: b) ≤ distanceChars a b + changeCost x y := by
  rw [distanceChars_cons_cons]
  dsimp only
  rw [if_pos ⟨rfl, rfl⟩]
  exact min_le_right _ _

/-! ## Single steps -/

theorem changeCost_self (x : Char) : changeCost x x = 0 := if_pos rfl

theorem changeCost_of_ne {x y : Char} (h : x ≠ y) : changeCost x y = 1 := if_neg h

theorem changeCost_le (x y : Char) : changeCost x y ≤ 1 := by
  unfold changeCost
  split <;> omega

theorem distanceChars_drop_le (x : Char) (a b : List Char) :
    distanceChars (x :: a) b ≤ distanceChars a b + 1 := by
  cases b with
  | nil => exact le_rfl
  | cons y b =>
    have h := distanceChars_le_withoutSwap x y a b
    unfold withoutSwap at h
    omega

theorem distanceChars_add_le (y : Char) (a b : List Char) :
    distanceChars a (y :: b) ≤ distanceChars a b + 1 := by
  cases a with
  | nil => rw [distanceChars_nil, distanceChars_nil, List.length_cons]
  | cons x a =>
    have h := distanceChars_le_withoutSwap x y a b
    unfold withoutSwap at h
    omega

theorem distanceChars_change_le (x y : Char) (a b : List Char) :
    distanceChars (x :: a) (y :: b) ≤ distanceChars a b + changeCost x y :=
  (distanceChars_le_withoutSwap x y a b).trans (min_le_right _ _)

/-- A step brings the distance down by at most its cost. -/
theorem distanceChars_step_le (s : Step) (a b : List Char) :
    distanceChars (s.left ++ a) (s.right ++ b) ≤ distanceChars a b + s.cost := by
  cases s with
  | keep x =>
    have h := distanceChars_change_le x x a b
    rwa [changeCost_self] at h
  | change x y =>
    have h := distanceChars_change_le x y a b
    have hcost := changeCost_le x y
    exact h.trans (Nat.add_le_add_left hcost _)
  | drop x => exact distanceChars_drop_le x a b
  | add y => exact distanceChars_add_le y a b
  | swap x y =>
    have h := distanceChars_swap_le x y a b
    have hcost := changeCost_le x y
    exact h.trans (Nat.add_le_add_left hcost _)

/-- Some step brings the distance down by its cost. -/
theorem exists_step {a b : List Char} (h : 0 < a.length + b.length) :
    ∃ (s : Step) (a' b' : List Char), a = s.left ++ a' ∧ b = s.right ++ b' ∧
      distanceChars a b = distanceChars a' b' + s.cost := by
  match a, b with
  | [], [] => exact absurd h (Nat.lt_irrefl 0)
  | [], y :: b =>
    refine ⟨.add y, [], b, rfl, rfl, ?_⟩
    rw [distanceChars_nil, distanceChars_nil]
    rfl
  | x :: a, [] => exact ⟨.drop x, a, [], rfl, rfl, rfl⟩
  | x :: a, y :: b =>
    rcases distanceChars_cases x y a b with hd | ⟨a', b', rfl, rfl, hd⟩
    · have hmin : distanceChars (x :: a) (y :: b) = distanceChars a (y :: b) + 1 ∨
          distanceChars (x :: a) (y :: b) = distanceChars (x :: a) b + 1 ∨
          distanceChars (x :: a) (y :: b) = distanceChars a b + changeCost x y := by
        unfold withoutSwap at hd
        omega
      rcases hmin with hdrop | hadd | hchange
      · exact ⟨.drop x, a, y :: b, rfl, rfl, hdrop⟩
      · exact ⟨.add y, x :: a, b, rfl, rfl, hadd⟩
      · by_cases hxy : x = y
        · subst hxy
          rw [changeCost_self] at hchange
          exact ⟨.keep x, a, b, rfl, rfl, hchange⟩
        · rw [changeCost_of_ne hxy] at hchange
          exact ⟨.change x y, a, b, rfl, rfl, hchange⟩
    · by_cases hxy : x = y
      · -- the relaxation costs nothing here, and neither do two characters that are kept
        subst hxy
        have hfirst := distanceChars_change_le x x (x :: a') (x :: b')
        have hsecond := distanceChars_change_le x x a' b'
        rw [changeCost_self] at hd hfirst hsecond
        refine ⟨.keep x, x :: a', x :: b', rfl, rfl, ?_⟩
        show distanceChars (x :: x :: a') (x :: x :: b') = distanceChars (x :: a') (x :: b') + 0
        omega
      · rw [changeCost_of_ne hxy] at hd
        exact ⟨.swap x y, a', b', rfl, rfl, hd⟩

/-! ## Whole alignments -/

theorem distanceChars_le_cost {a b : List Char} (s : Alignment a b) :
    distanceChars a b ≤ s.cost := by
  induction s using Alignment.induct with
  | hnil => exact le_rfl
  | hcons step a b s ih =>
    rw [Alignment.cost_cons]
    exact (distanceChars_step_le step a b).trans (Nat.add_le_add_right ih _)

theorem exists_cost_eq_distanceChars (a b : List Char) :
    ∃ s : Alignment a b, s.cost = distanceChars a b := by
  by_cases h : 0 < a.length + b.length
  · obtain ⟨step, a', b', rfl, rfl, hd⟩ := exists_step h
    have hpos := step.length_pos
    obtain ⟨s, hs⟩ := exists_cost_eq_distanceChars a' b'
    refine ⟨.cons step s, ?_⟩
    rw [Alignment.cost_cons, hs, hd]
  · have ha : a = [] := List.length_eq_zero_iff.mp (by omega)
    have hb : b = [] := List.length_eq_zero_iff.mp (by omega)
    subst ha hb
    exact ⟨.nil, rfl⟩
termination_by a.length + b.length
decreasing_by
  subst_vars
  rw [List.length_append, List.length_append]
  omega

theorem isLeast_cost_distanceChars (a b : List Char) :
    IsLeast {n | ∃ s : Alignment a b, s.cost = n} (distanceChars a b) := by
  refine ⟨exists_cost_eq_distanceChars a b, ?_⟩
  rintro n ⟨s, rfl⟩
  exact distanceChars_le_cost s

/-! ## Reads -/

/-- `nextRow` with reads that fail past the end of a row. -/
def nextRow? (x : Char) : List Char → List Nat → Option (Char × List Nat) → Option (List Nat)
  | [], below, _ => do
    let down ← below[0]?
    return [down + 1]
  | y :: b, below, swap => do
    let right ← nextRow? x b below.tail (swap.map fun p => (p.1, p.2.tail))
    let plain := min (min ((← below[0]?) + 1) ((← right[0]?) + 1)) ((← below[1]?) + changeCost x y)
    match swap, b with
    | some (x', row), y' :: _ =>
      if x = y' ∧ x' = y then
        let both ← row[2]?
        return min plain (both + changeCost x y) :: right
      else return plain :: right
    | _, _ => return plain :: right

/-- `rows` with reads that fail past the end of a row. -/
def rows? (b : List Char) : List Char → Option (List Nat × Option (Char × List Nat))
  | [] => some (lastRow b, none)
  | x :: a => do
    let r ← rows? b a
    let row ← nextRow? x b r.1 r.2
    return (row, some (x, r.1))

/-- `distance` with reads that fail past the end of a row. -/
def distance? (a b : String) : Option Nat := do
  let r ← rows? b.toList a.toList
  r.1[0]?

theorem getElem?_eq_headD_drop {row : List Nat} {k : Nat} (h : k < row.length) :
    row[k]? = some ((row.drop k).headD 0) := by
  rw [List.headD_eq_head?_getD, List.head?_drop, List.getElem?_eq_getElem h]
  rfl

/-- No read of a row fails if the rows that it is made from are long enough. -/
theorem nextRow?_eq {x : Char} {b : List Char} {below : List Nat} {swap : Option (Char × List Nat)}
    (hbelow : below.length = b.length + 1) (hswap : ∀ p ∈ swap, p.2.length = b.length + 1) :
    nextRow? x b below swap = some (nextRow x b below swap) := by
  induction b generalizing below swap with
  | nil =>
    rw [nextRow?, getElem?_eq_headD_drop (by omega)]
    rfl
  | cons y b ih =>
    rw [List.length_cons] at hbelow hswap
    have hright := @ih below.tail (swap.map fun p => (p.1, p.2.tail))
      (by rw [List.length_tail]; omega) (by
        intro q hq
        obtain ⟨p, hp, rfl⟩ := Option.mem_map.mp hq
        have hlength := hswap p hp
        rw [List.length_tail]
        omega)
    have hdown : below[0]? = some (below.headD 0) := getElem?_eq_headD_drop (by omega)
    have hnext : below[1]? = some (below.tail.headD 0) := by
      rw [getElem?_eq_headD_drop (by omega), List.drop_one]
    have hhead := @getElem?_eq_headD_drop (nextRow x b below.tail
      (swap.map fun p => (p.1, p.2.tail))) 0 (by rw [length_nextRow]; omega)
    unfold nextRow?
    simp only [hright, hdown, hnext, hhead, List.drop_zero, Option.bind_eq_bind, Option.bind_some]
    match swap, b, hswap with
    | none, _, _ => rfl
    | some (x', row), [], _ => rfl
    | some (x', row), y' :: b', hswap =>
      have hlength := hswap _ rfl
      have hboth : row[2]? = some (row.tail.tail.headD 0) := by
        rw [getElem?_eq_headD_drop (by rw [hlength]; simp), ← List.tail_drop, List.drop_one]
      by_cases h : x = y' ∧ x' = y
      · simp only [nextRow, if_pos h, hboth]
        rfl
      · simp only [nextRow, if_neg h]
        rfl

/-- No read fails. -/
theorem rows?_eq (a b : List Char) : rows? b a = some (rows b a) := by
  induction a with
  | nil => rfl
  | cons x a ih =>
    have hswap : ∀ p ∈ (rows b a).2, p.2.length = b.length + 1 := by
      intro p hp
      cases a with
      | nil => cases hp
      | cons x' a =>
        obtain rfl : (x', (rows b a).1) = p := Option.some.inj hp
        exact length_rows a b
    rw [rows?, ih]
    simp only [Option.bind_eq_bind, Option.bind_some, nextRow?_eq (length_rows a b) hswap]
    rfl

theorem distance?_eq (a b : String) : distance? a b = some (distance a b) := by
  have hlength := length_rows a.toList b.toList
  rw [distance?, rows?_eq]
  exact getElem?_eq_headD_drop (by omega)

end SchemaHint.Fuzzy
