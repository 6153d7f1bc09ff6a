import SchemaHint.Proofs.Fuzzy.Alignment

/-!
# The distance from a table of all beginnings

The table has a cell for every beginning of one text and every beginning of another one. It is
filled in place, row by row, with reads and writes that fail outside of it.

* `Alignment.reverse`, `distanceChars_reverse` : alignments can be gone through from the end;
* `Table.fill?` : the filling of the table;
* `Table.Filled` : the invariant of the filling; `Table.Filled.fillCell?` : one cell keeps it,
  `Table.exists_fill?` : no read and no write fails, and every cell ends as a distance;
* `isLeast_cost_distance` : the distance, and every cell, is the least cost of an alignment.
-/

namespace SchemaHint.Fuzzy

set_option autoImplicit false

/-! ## Alignments from the end -/

/-- The step that uses up the same characters in reverse. -/
def Step.reverse : Step → Step
  | .swap x y => .swap y x
  | s => s

namespace Step

theorem left_reverse (s : Step) : s.reverse.left = s.left.reverse := by
  cases s <;> rfl

theorem right_reverse (s : Step) : s.reverse.right = s.right.reverse := by
  cases s <;> rfl

theorem cost_reverse (s : Step) : s.reverse.cost = s.cost := by
  cases s <;> rfl

end Step

/-- An alignment gone through from the end. -/
def Alignment.reverse {a b : List Char} (s : Alignment a b) : Alignment a.reverse b.reverse where
  steps := s.steps.reverse.map Step.reverse
  left_eq := by
    have hreverse := congrArg List.reverse s.left_eq
    rw [List.reverse_flatMap] at hreverse
    simp only [List.flatMap_map, Step.left_reverse]
    exact hreverse
  right_eq := by
    have hreverse := congrArg List.reverse s.right_eq
    rw [List.reverse_flatMap] at hreverse
    simp only [List.flatMap_map, Step.right_reverse]
    exact hreverse

theorem Alignment.cost_reverse {a b : List Char} (s : Alignment a b) :
    s.reverse.cost = s.cost := by
  unfold cost reverse
  rw [List.map_map, List.map_reverse, List.sum_reverse]
  simp only [Function.comp_def, Step.cost_reverse]

theorem distanceChars_reverse_le (a b : List Char) :
    distanceChars a.reverse b.reverse ≤ distanceChars a b := by
  obtain ⟨s, hs⟩ := exists_cost_eq_distanceChars a b
  rw [← hs, ← s.cost_reverse]
  exact distanceChars_le_cost s.reverse

theorem distanceChars_reverse (a b : List Char) :
    distanceChars a.reverse b.reverse = distanceChars a b := by
  apply Nat.le_antisymm (distanceChars_reverse_le a b)
  have h := distanceChars_reverse_le a.reverse b.reverse
  rwa [List.reverse_reverse, List.reverse_reverse] at h

theorem distanceChars_append_swap_le (x y : Char) (a b : List Char) :
    distanceChars (a ++ [x, y]) (b ++ [y, x]) ≤ distanceChars a b + changeCost y x := by
  have h := distanceChars_swap_le y x a.reverse b.reverse
  rw [distanceChars_reverse] at h
  rw [← distanceChars_reverse, List.reverse_append, List.reverse_append]
  exact h

section Take
variable {a b : List Char} {i j : Nat}

theorem distanceChars_take_zero (hi : i ≤ a.length) (b : List Char) :
    distanceChars (a.take i) (b.take 0) = i := by
  rw [List.take_zero, distanceChars_nil_right, List.length_take, Nat.min_eq_left hi]

theorem distanceChars_zero_take (hj : j ≤ b.length) (a : List Char) :
    distanceChars (a.take 0) (b.take j) = j := by
  rw [List.take_zero, distanceChars_nil, List.length_take, Nat.min_eq_left hj]

theorem reverse_take_succ (hi : i < a.length) :
    (a.take (i + 1)).reverse = a[i] :: (a.take i).reverse := by
  rw [List.take_succ_eq_append_getElem hi, List.reverse_append]
  rfl

theorem distanceChars_take_succ (hi : i < a.length) (hj : j < b.length) :
    distanceChars (a.take (i + 1)) (b.take (j + 1)) =
      distanceChars (a[i] :: (a.take i).reverse) (b[j] :: (b.take j).reverse) := by
  rw [← distanceChars_reverse, reverse_take_succ hi, reverse_take_succ hj]

theorem withoutSwap_take (hi : i < a.length) (hj : j < b.length) :
    withoutSwap a[i] b[j] (a.take i).reverse (b.take j).reverse =
      min (min (distanceChars (a.take i) (b.take (j + 1)) + 1)
          (distanceChars (a.take (i + 1)) (b.take j) + 1))
        (distanceChars (a.take i) (b.take j) + changeCost a[i] b[j]) := by
  rw [withoutSwap, ← reverse_take_succ hi, ← reverse_take_succ hj, distanceChars_reverse,
    distanceChars_reverse, distanceChars_reverse]

/-- The cells of the first row and of the first column have no swap. -/
theorem distanceChars_take_succ_of_zero (hi : i < a.length) (hj : j < b.length)
    (h : i = 0 ∨ j = 0) :
    distanceChars (a.take (i + 1)) (b.take (j + 1)) =
      withoutSwap a[i] b[j] (a.take i).reverse (b.take j).reverse := by
  rw [distanceChars_take_succ hi hj, distanceChars_cons_cons]
  rcases h with rfl | rfl
  · rfl
  · cases (a.take i).reverse <;> rfl

theorem distanceChars_take_succ_succ (hi : i + 1 < a.length) (hj : j + 1 < b.length) :
    distanceChars (a.take (i + 2)) (b.take (j + 2)) =
      if a[i + 1] = b[j] ∧ a[i] = b[j + 1] then
        min (withoutSwap a[i + 1] b[j + 1] (a.take (i + 1)).reverse (b.take (j + 1)).reverse)
          (distanceChars (a.take i) (b.take j) + changeCost a[i + 1] b[j + 1])
      else withoutSwap a[i + 1] b[j + 1] (a.take (i + 1)).reverse (b.take (j + 1)).reverse := by
  rw [distanceChars_take_succ hi hj, distanceChars_cons_cons, reverse_take_succ (by omega),
    reverse_take_succ (by omega)]
  dsimp only
  rw [distanceChars_reverse]

end Take

/-! ## Tables -/

/-- Rows of numbers. -/
structure Table where
  rows : Array (Array Nat)

namespace Table

def get? (t : Table) (i j : Nat) : Option Nat := do
  let row ← t.rows[i]?
  row[j]?

/-- Puts a number into a cell. This fails if there is no such cell. -/
def set? (t : Table) (i j n : Nat) : Option Table := do
  let row ← t.rows[i]?
  if j < row.size then
    return ⟨t.rows.setIfInBounds i (row.setIfInBounds j n)⟩
  else none

theorem exists_set? {t : Table} {i j m : Nat} (h : t.get? i j = some m) (n : Nat) :
    ∃ t', t.set? i j n = some t' ∧
      ∀ k l, t'.get? k l = if k = i ∧ l = j then some n else t.get? k l := by
  obtain ⟨row, hrow, hcell⟩ := Option.bind_eq_some_iff.mp h
  obtain ⟨hi, rfl⟩ := Array.getElem?_eq_some_iff.mp hrow
  obtain ⟨hj, -⟩ := Array.getElem?_eq_some_iff.mp hcell
  refine ⟨⟨t.rows.setIfInBounds i (t.rows[i].setIfInBounds j n)⟩, ?_, fun k l => ?_⟩
  · simp [set?, hrow, hj]
  · unfold get?
    by_cases hk : k = i
    · subst hk
      by_cases hl : l = j
      · subst hl
        simp [hi, hj]
      · simp [hi, Array.getElem?_setIfInBounds_ne, Ne.symm hl, hl]
    · simp [Array.getElem?_setIfInBounds_ne, Ne.symm hk, hk]

/-! ## Filling -/

/-- The table with only zeros. -/
def zero (n m : Nat) : Table := ⟨Array.replicate (n + 1) (Array.replicate (m + 1) 0)⟩

/-- The table whose first column and first row are numbered. -/
def border? (n m : Nat) : Option Table := do
  let t ← (List.range (n + 1)).foldlM (fun t i => t.set? i 0 i) (zero n m)
  (List.range (m + 1)).foldlM (fun t j => t.set? 0 j j) t

/-- Fills the cell of the beginnings that end with the characters at `i` and `j`. -/
def fillCell? (a b : List Char) (t : Table) (i j : Nat) : Option Table := do
  let x ← a[i]?
  let y ← b[j]?
  let above ← t.get? i (j + 1)
  let before ← t.get? (i + 1) j
  let corner ← t.get? i j
  let t ← t.set? (i + 1) (j + 1)
    (min (min (above + 1) (before + 1)) (corner + changeCost x y))
  match i, j with
  | i + 1, j + 1 =>
    let x' ← a[i]?
    let y' ← b[j]?
    if x = y' ∧ x' = y then
      let here ← t.get? (i + 2) (j + 2)
      let both ← t.get? i j
      t.set? (i + 2) (j + 2) (min here (both + changeCost x y))
    else return t
  | _, _ => return t

def fillRow? (a b : List Char) (t : Table) (i : Nat) : Option Table :=
  (List.range b.length).foldlM (fun t j => fillCell? a b t i j) t

def fill? (a b : List Char) : Option Table := do
  let t ← border? a.length b.length
  (List.range a.length).foldlM (fillRow? a b) t

/-- A loop whose steps keep an invariant succeeds. -/
theorem exists_foldlM_range {f : Table → Nat → Option Table} {p : Nat → Table → Prop} {n : Nat}
    {t : Table} (hstart : p 0 t)
    (hstep : ∀ k < n, ∀ t, p k t → ∃ t', f t k = some t' ∧ p (k + 1) t') :
    ∃ t', (List.range n).foldlM f t = some t' ∧ p n t' := by
  induction n with
  | zero => exact ⟨t, rfl, hstart⟩
  | succ n ih =>
    obtain ⟨t', ht', hp⟩ := ih fun k hk => hstep k (by omega)
    obtain ⟨t'', ht'', hp'⟩ := hstep n (by omega) t' hp
    refine ⟨t'', ?_, hp'⟩
    rw [List.range_succ, List.foldlM_append, ht']
    simpa using ht''

theorem get?_zero {n m i j : Nat} (hi : i ≤ n) (hj : j ≤ m) : (zero n m).get? i j = some 0 := by
  simp [zero, get?, Nat.lt_succ_of_le hi, Nat.lt_succ_of_le hj]

/-! ## The invariant -/

/-- A table with a cell for all beginnings, of which those that are done hold their distance. -/
structure Filled (a b : List Char) (done : Nat → Nat → Prop) (t : Table) : Prop where
  exists_get? : ∀ i ≤ a.length, ∀ j ≤ b.length, ∃ n, t.get? i j = some n
  get?_eq : ∀ i ≤ a.length, ∀ j ≤ b.length, done i j →
    t.get? i j = some (distanceChars (a.take i) (b.take j))

section Filling
variable {a b : List Char} {done : Nat → Nat → Prop} {t : Table} {i j : Nat}

theorem Filled.mono {done' : Nat → Nat → Prop} (h : Filled a b done t)
    (hdone : ∀ k ≤ a.length, ∀ l ≤ b.length, done' k l → done k l) : Filled a b done' t :=
  ⟨h.exists_get?, fun k hk l hl hkl => h.get?_eq k hk l hl (hdone k hk l hl hkl)⟩

/-- A cell that is written to is no longer done, and the others stay as they are. -/
theorem Filled.set? (h : Filled a b done t) (hi : i ≤ a.length) (hj : j ≤ b.length) (n : Nat) :
    ∃ t', t.set? i j n = some t' ∧ t'.get? i j = some n ∧
      Filled a b (fun k l => done k l ∧ ¬ (k = i ∧ l = j)) t' := by
  obtain ⟨m, hm⟩ := h.exists_get? i hi j hj
  obtain ⟨t', ht', hget⟩ := exists_set? hm n
  refine ⟨t', ht', ?_, fun k hk l hl => ?_, fun k hk l hl hkl => ?_⟩
  · rw [hget, if_pos ⟨rfl, rfl⟩]
  · by_cases hcell : k = i ∧ l = j
    · rw [hget, if_pos hcell]
      exact ⟨n, rfl⟩
    · rw [hget, if_neg hcell]
      exact h.exists_get? k hk l hl
  · rw [hget, if_neg hkl.2]
    exact h.get?_eq k hk l hl hkl.1

/-- A cell that holds its distance is done. -/
theorem Filled.insert (h : Filled a b done t)
    (hget : t.get? i j = some (distanceChars (a.take i) (b.take j))) :
    Filled a b (fun k l => done k l ∨ k = i ∧ l = j) t := by
  refine ⟨h.exists_get?, fun k hk l hl hkl => ?_⟩
  rcases hkl with hkl | ⟨rfl, rfl⟩
  · exact h.get?_eq k hk l hl hkl
  · exact hget

/-- Writing the distance into a cell makes it done. -/
theorem Filled.set?_distanceChars (h : Filled a b done t) (hi : i ≤ a.length) (hj : j ≤ b.length)
    {n : Nat} (hn : n = distanceChars (a.take i) (b.take j)) :
    ∃ t', t.set? i j n = some t' ∧ Filled a b (fun k l => done k l ∨ k = i ∧ l = j) t' := by
  obtain ⟨t', ht', hget, h'⟩ := h.set? hi hj n
  rw [hn] at hget
  exact ⟨t', ht', (h'.insert hget).mono fun _ _ _ _ _ => by tauto⟩

theorem exists_border? (a b : List Char) :
    ∃ t, border? a.length b.length = some t ∧ Filled a b (fun i j => i = 0 ∨ j = 0) t := by
  have hzero : Filled a b (fun _ _ => False) (zero a.length b.length) :=
    ⟨fun i hi j hj => ⟨0, get?_zero hi hj⟩, fun _ _ _ _ h => h.elim⟩
  obtain ⟨t, ht, hcolumn⟩ := @exists_foldlM_range (fun t i => t.set? i 0 i)
    (fun n => Filled a b fun i j => i < n ∧ j = 0) (a.length + 1) _
    (hzero.mono fun _ _ _ _ _ => by omega) (fun k hk t h => by
      have hk' : k ≤ a.length := Nat.le_of_lt_succ hk
      obtain ⟨t', ht', h'⟩ := h.set?_distanceChars hk' (Nat.zero_le _)
        (distanceChars_take_zero hk' b).symm
      exact ⟨t', ht', h'.mono fun _ _ _ _ _ => by omega⟩)
  obtain ⟨t', ht', hrow⟩ := @exists_foldlM_range (fun t j => t.set? 0 j j)
    (fun n => Filled a b fun i j => j = 0 ∨ i = 0 ∧ j < n) (b.length + 1) t
    (hcolumn.mono fun _ _ _ _ _ => by omega) (fun k hk t h => by
      have hk' : k ≤ b.length := Nat.le_of_lt_succ hk
      obtain ⟨t', ht', h'⟩ := h.set?_distanceChars (Nat.zero_le _) hk'
        (distanceChars_zero_take hk' a).symm
      exact ⟨t', ht', h'.mono fun _ _ _ _ _ => by omega⟩)
  refine ⟨t', ?_, hrow.mono fun _ _ _ _ _ => by omega⟩
  rw [border?, ht]
  exact ht'

/-- The cells that are done before the one at `i + 1` and `j + 1`. -/
def Before (i j k l : Nat) : Prop := k ≤ i ∨ l = 0 ∨ k = i + 1 ∧ l ≤ j

/-- One cell is filled. -/
theorem Filled.fillCell? (h : Filled a b (Before i j) t) (hi : i < a.length) (hj : j < b.length) :
    ∃ t', fillCell? a b t i j = some t' ∧ Filled a b (Before i (j + 1)) t' := by
  have hx : a[i]? = some a[i] := List.getElem?_eq_getElem hi
  have hy : b[j]? = some b[j] := List.getElem?_eq_getElem hj
  have habove := h.get?_eq i (by omega) (j + 1) (by omega) (Or.inl le_rfl)
  have hbefore := h.get?_eq (i + 1) (by omega) j (by omega) (Or.inr (Or.inr ⟨rfl, le_rfl⟩))
  have hcorner := h.get?_eq i (by omega) j (by omega) (Or.inl le_rfl)
  obtain ⟨t₁, ht₁, hhere, h₁⟩ := h.set? (Nat.succ_le_of_lt hi) (Nat.succ_le_of_lt hj)
    (withoutSwap a[i] b[j] (a.take i).reverse (b.take j).reverse)
  -- the cell was not done before it is written to
  replace h₁ : Filled a b (Before i j) t₁ :=
    h₁.mono fun k _ l _ hkl => ⟨hkl, by unfold Before at hkl; omega⟩
  have hnext : ∀ k ≤ a.length, ∀ l ≤ b.length, Before i (j + 1) k l →
      Before i j k l ∨ k = i + 1 ∧ l = j + 1 := by
    unfold Before
    omega
  rw [withoutSwap_take hi hj] at ht₁
  simp only [Table.fillCell?, hx, hy, habove, hbefore, hcorner, ht₁, Option.bind_eq_bind,
    Option.bind_some]
  match i, j with
  | 0, j =>
    rw [← distanceChars_take_succ_of_zero hi hj (Or.inl rfl)] at hhere
    exact ⟨t₁, rfl, (h₁.insert hhere).mono hnext⟩
  | i + 1, 0 =>
    rw [← distanceChars_take_succ_of_zero hi hj (Or.inr rfl)] at hhere
    exact ⟨t₁, rfl, (h₁.insert hhere).mono hnext⟩
  | i + 1, j + 1 =>
    have hx' : a[i]? = some a[i] := List.getElem?_eq_getElem (by omega)
    have hy' : b[j]? = some b[j] := List.getElem?_eq_getElem (by omega)
    have hboth := h₁.get?_eq i (by omega) j (by omega) (Or.inl (Nat.le_succ i))
    have hcell := distanceChars_take_succ_succ hi hj
    simp only [hx', hy', Option.bind_some]
    by_cases hswap : a[i + 1] = b[j] ∧ a[i] = b[j + 1]
    · rw [if_pos hswap] at hcell
      obtain ⟨t₂, ht₂, h₂⟩ := h₁.set?_distanceChars (Nat.succ_le_of_lt hi)
        (Nat.succ_le_of_lt hj) hcell.symm
      refine ⟨t₂, ?_, h₂.mono hnext⟩
      simp only [if_pos hswap, hhere, hboth, Option.bind_some]
      exact ht₂
    · rw [if_neg hswap] at hcell
      rw [← hcell] at hhere
      refine ⟨t₁, ?_, (h₁.insert hhere).mono hnext⟩
      rw [if_neg hswap]
      rfl

/-- One row is filled. -/
theorem Filled.fillRow? (h : Filled a b (fun k l => k ≤ i ∨ l = 0) t) (hi : i < a.length) :
    ∃ t', fillRow? a b t i = some t' ∧ Filled a b (fun k l => k ≤ i + 1 ∨ l = 0) t' := by
  obtain ⟨t', ht', h'⟩ := @exists_foldlM_range (fun t j => Table.fillCell? a b t i j)
    (fun j => Filled a b (Before i j)) b.length t
    (h.mono fun k _ l _ hkl => by unfold Before at hkl; omega)
    (fun j hj t h => h.fillCell? hi hj)
  exact ⟨t', ht', h'.mono fun k _ l hl hkl => by unfold Before; omega⟩

end Filling

/-- No read and no write fails, and every cell ends as a distance. -/
theorem exists_fill? (a b : List Char) :
    ∃ t, fill? a b = some t ∧ ∀ i ≤ a.length, ∀ j ≤ b.length,
      t.get? i j = some (distanceChars (a.take i) (b.take j)) := by
  obtain ⟨t, ht, hborder⟩ := exists_border? a b
  obtain ⟨t', ht', h⟩ := @exists_foldlM_range (fillRow? a b)
    (fun i => Filled a b fun k l => k ≤ i ∨ l = 0) a.length t
    (hborder.mono fun _ _ _ _ _ => by omega) (fun i hi t h => h.fillRow? hi)
  refine ⟨t', ?_, fun i hi j hj => h.get?_eq i hi j hj (Or.inl hi)⟩
  rw [fill?, ht]
  exact ht'

end Table

/-! ## The distance -/

/-- All reads and writes are in bounds, the distance is the least cost of an alignment and so is
every cell of the table, and the relaxation by a swap does not go below that, also where it costs
nothing. -/
theorem isLeast_cost_distance (a b : String) :
    distance? a b = some (distance a b) ∧
      (∃ t, Table.fill? a.toList b.toList = some t ∧
        t.get? a.length b.length = some (distance a b) ∧
        ∀ i ≤ a.length, ∀ j ≤ b.length, ∃ n, t.get? i j = some n ∧
          IsLeast {n | ∃ s : Alignment (a.toList.take i) (b.toList.take j), s.cost = n} n) ∧
      IsLeast {n | ∃ s : Alignment a.toList b.toList, s.cost = n} (distance a b) ∧
      ∀ (x y : Char) (u v : List Char), ∃ s : Alignment (u ++ [x, y]) (v ++ [y, x]),
        s.cost ≤ distanceChars u v + changeCost y x := by
  obtain ⟨t, ht, hcells⟩ := Table.exists_fill? a.toList b.toList
  refine ⟨distance?_eq a b, ⟨t, ht, ?_, ?_⟩, isLeast_cost_distanceChars a.toList b.toList, ?_⟩
  · have hlast := hcells a.length le_rfl b.length le_rfl
    rwa [← String.length_toList, ← String.length_toList, List.take_length, List.take_length] at hlast
  · intro i hi j hj
    exact ⟨_, hcells i hi j hj, isLeast_cost_distanceChars _ _⟩
  · intro x y u v
    obtain ⟨s, hs⟩ := exists_cost_eq_distanceChars (u ++ [x, y]) (v ++ [y, x])
    refine ⟨s, ?_⟩
    rw [hs]
    exact distanceChars_append_swap_le x y u v

end SchemaHint.Fuzzy
