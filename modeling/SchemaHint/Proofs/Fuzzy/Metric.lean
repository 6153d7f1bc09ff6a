import Mathlib.Algebra.Order.Group.Unbundled.Int
import SchemaHint.Proofs.Fuzzy.Proximity

/-!
# Laws of the distance

* `Alignment.flip`, `distanceChars_comm` : an alignment read the other way round costs the same;
* `distanceChars_le_max_length` : changing character by character and adding or dropping the rest
  costs no more than the longer text is long;
* `distance_laws` : the distance is symmetric, tells different texts apart and lies between the
  difference and the greater of the lengths.
-/

namespace SchemaHint.Fuzzy

set_option autoImplicit false

/-! ## Symmetry -/

namespace Step

/-- The step that leads back. -/
def flip : Step → Step
  | .keep x => .keep x
  | .change x y => .change y x
  | .drop x => .add x
  | .add y => .drop y
  | .swap x y => .swap y x

theorem left_flip (s : Step) : s.flip.left = s.right := by
  cases s <;> rfl

theorem right_flip (s : Step) : s.flip.right = s.left := by
  cases s <;> rfl

theorem cost_flip (s : Step) : s.flip.cost = s.cost := by
  cases s <;> rfl

end Step

/-- An alignment read from the second text to the first. -/
def Alignment.flip {a b : List Char} (s : Alignment a b) : Alignment b a where
  steps := s.steps.map Step.flip
  left_eq := by
    simp only [List.flatMap_map, Step.left_flip]
    exact s.right_eq
  right_eq := by
    simp only [List.flatMap_map, Step.right_flip]
    exact s.left_eq

theorem Alignment.cost_flip {a b : List Char} (s : Alignment a b) : s.flip.cost = s.cost := by
  unfold cost flip
  rw [List.map_map]
  simp only [Function.comp_def, Step.cost_flip]

theorem distanceChars_comm_le (a b : List Char) : distanceChars b a ≤ distanceChars a b := by
  obtain ⟨s, hs⟩ := exists_cost_eq_distanceChars a b
  rw [← hs, ← s.cost_flip]
  exact distanceChars_le_cost s.flip

theorem distanceChars_comm (a b : List Char) : distanceChars a b = distanceChars b a :=
  Nat.le_antisymm (distanceChars_comm_le b a) (distanceChars_comm_le a b)

/-! ## Bounds -/

theorem distanceChars_le_max_length (a b : List Char) :
    distanceChars a b ≤ max a.length b.length := by
  induction a generalizing b with
  | nil =>
    rw [distanceChars_nil]
    exact le_max_right _ _
  | cons x a ih =>
    cases b with
    | nil =>
      rw [distanceChars_nil_right]
      exact le_max_left _ _
    | cons y b =>
      have hstep := distanceChars_change_le x y a b
      have hcost := changeCost_le x y
      have hrest := ih b
      rw [List.length_cons, List.length_cons]
      omega

theorem abs_length_sub_le_distanceChars (a b : List Char) :
    |(a.length : ℤ) - b.length| ≤ distanceChars a b := by
  have hright := length_le_add_distanceChars a b
  have hleft := length_le_add_distanceChars b a
  rw [distanceChars_comm b a] at hleft
  rw [abs_le]
  omega

/-! ## Texts -/

/-- The distance is symmetric, is zero only from a text to itself, and lies between the difference
and the greater of the two lengths; so the distance to the empty text is the length. -/
theorem distance_laws (a b : String) :
    distance a b = distance b a ∧ (distance a b = 0 ↔ a = b) ∧
      |(a.length : ℤ) - b.length| ≤ distance a b ∧ distance a b ≤ max a.length b.length ∧
      distance a "" = a.length := by
  refine ⟨distanceChars_comm _ _, ?_, ?_, ?_, ?_⟩
  · exact distanceChars_eq_zero_iff.trans String.toList_inj
  · rw [← String.length_toList, ← String.length_toList]
    exact abs_length_sub_le_distanceChars _ _
  · rw [← String.length_toList, ← String.length_toList]
    exact distanceChars_le_max_length _ _
  · rw [← String.length_toList]
    exact distanceChars_nil_right _

end SchemaHint.Fuzzy
