import SchemaHint.Proofs.Fuzzy.Ranking

/-!
# Rankings with a tighter bound

* `Binary64.value?`, `Binary64.AtMost` : the values of numbers, and their order, in which `nan` takes
  no part;
* `LongestPrefix` : the longest beginning of a list with a property;
* `filter_numbered` : sorting and leaving out commute, positions included;
* `rank_longestPrefix` : a tighter bound cuts off the end of the ranking and changes nothing else.
-/

namespace SchemaHint

set_option autoImplicit false

/-! ## Order of bounds -/

/-- The value of a number, between the two infinities; `nan` has none. -/
def Binary64.value? : Binary64 → Option (WithBot (WithTop ℚ))
  | .nan => none
  | .infinite true => some ⊥
  | .infinite false => some ⊤
  | .finite negative m e => some (((if negative then -1 else 1) * m * 2 ^ e : ℚ) : WithTop ℚ)

/-- Whether a number is at most another one; `nan` is not, and nothing is at most `nan`. -/
def Binary64.AtMost (x y : Binary64) : Prop := ∃ v ∈ x.value?, ∃ w ∈ y.value?, v ≤ w

theorem Binary64.atLeast_iff_value? {x : Binary64} {q : ℚ} :
    x.AtLeast q ↔ ∃ v ∈ x.value?, ((q : WithTop ℚ) : WithBot (WithTop ℚ)) ≤ v := by
  cases x with
  | nan => simp [AtLeast, value?]
  | infinite negative => cases negative <;> simp [AtLeast, value?]
  | finite negative m e =>
      unfold AtLeast value?
      simp only [Option.mem_def, Option.some.injEq, exists_eq_left', WithBot.coe_le_coe,
        WithTop.coe_le_coe]

theorem Binary64.AtLeast.mono {x y : Binary64} {q : ℚ} (h : x.AtMost y) (hx : x.AtLeast q) :
    y.AtLeast q := by
  obtain ⟨v, hv, w, hw, hvw⟩ := h
  obtain ⟨v', hv', hq⟩ := Binary64.atLeast_iff_value?.mp hx
  have heq : v' = v := Option.mem_unique hv' hv
  subst heq
  exact Binary64.atLeast_iff_value?.mpr ⟨w, hw, hq.trans hvw⟩

namespace Fuzzy

/-! ## Beginnings of a list -/

/-- A list is the longest beginning of another one of which all elements have a property. -/
structure LongestPrefix {α : Type} (p : α → Prop) (front l : List α) : Prop where
  isPrefix : front <+: l
  holds : ∀ a ∈ front, p a
  greatest : ∀ front', front' <+: l → (∀ a ∈ front', p a) → front' <+: front

/-- Where no element has a property that a later one lacks, those that have it come first. -/
theorem filter_isPrefix_of_pairwise {α : Type} {p : α → Bool} {l : List α}
    (h : l.Pairwise fun a b => p b = true → p a = true) : l.filter p <+: l := by
  induction l with
  | nil => exact List.nil_prefix
  | cons a l ih =>
      rw [List.pairwise_cons] at h
      by_cases ha : p a = true
      · rw [List.filter_cons_of_pos ha]
        exact (List.prefix_cons_inj a).mpr (ih h.2)
      · have hnil : l.filter p = [] := by
          rw [List.filter_eq_nil_iff]
          intro b hb hpb
          exact ha (h.1 b hb hpb)
        rw [List.filter_cons_of_neg ha, hnil]
        exact List.nil_prefix

theorem longestPrefix_filter {α : Type} {p : α → Bool} {l : List α}
    (h : l.Pairwise fun a b => p b = true → p a = true) :
    LongestPrefix (fun a => p a = true) (l.filter p) l where
  isPrefix := filter_isPrefix_of_pairwise h
  holds a ha := List.of_mem_filter ha
  greatest front hfront hall := by
    have hkept : front.filter p = front := List.filter_eq_self.mpr hall
    rw [← hkept]
    exact hfront.filter p

/-! ## Two rankings -/

section Rank
variable {o₁ o₂ : RankOptions} {typed : String} {cs : List Candidate}

theorem isClose_mono (h : o₁.maxProximity.AtMost o₂.maxProximity) {c : Candidate}
    (hc : isClose o₁ typed c = true) : isClose o₂ typed c = true :=
  isClose_iff.mpr ((isClose_iff.mp hc).mono h)

theorem isClose_of_mayPrecede {a b : Candidate} (hab : mayPrecede typed a b = true)
    (hb : isClose o₁ typed b = true) : isClose o₁ typed a = true := by
  rw [isClose_iff] at hb ⊢
  have hle : score a.text typed ≤ score b.text typed := by
    rw [← not_lt, score_lt_iff]
    rw [mayPrecede_iff] at hab
    omega
  rw [Binary64.atLeast_iff_value?] at hb ⊢
  obtain ⟨v, hv, hq⟩ := hb
  exact ⟨v, hv, le_trans (WithBot.coe_le_coe.mpr (WithTop.coe_le_coe.mpr hle)) hq⟩

/-- The candidates that a tighter bound keeps stand in the same order. -/
theorem filter_numbered (h : o₁.maxProximity.AtMost o₂.maxProximity) :
    ((numbered o₂ typed cs).filter fun p => isClose o₁ typed p.1) = numbered o₁ typed cs := by
  -- both lists have the same entries and are sorted by keys that are all different
  have hsorted := (@numbered_pairwise o₂ typed cs).filter fun p => isClose o₁ typed p.1
  have hnodup : ∀ {l : List (Candidate × Nat)},
      (l.Pairwise fun p q => rankKey typed p.1 p.2 < rankKey typed q.1 q.2) → l.Nodup := by
    intro l hl
    refine hl.imp ?_
    rintro p q hlt rfl
    exact lt_irrefl _ hlt
  have hperm : ((numbered o₂ typed cs).filter fun p => isClose o₁ typed p.1).Perm
      (numbered o₁ typed cs) := by
    rw [List.perm_ext_iff_of_nodup (hnodup hsorted) (hnodup numbered_pairwise)]
    intro p
    rw [List.mem_filter, mem_numbered_iff, mem_numbered_iff]
    constructor
    · rintro ⟨⟨hp, -⟩, hclose⟩
      exact ⟨hp, hclose⟩
    · rintro ⟨hp, hclose⟩
      exact ⟨⟨hp, isClose_mono h hclose⟩, hclose⟩
  refine hperm.eq_of_pairwise ?_ hsorted numbered_pairwise
  intro p q _ _ hpq hqp
  exact absurd hqp (lt_asymm hpq)

/-- Unless it falls back to all candidates, a ranking sorts those that are close enough. -/
theorem rank_eq_map_numbered (h : normalize typed ≠ "")
    (hfall : o₁.fallBack = false ∨ ∃ i, Kept o₁ (normalize typed) cs i) :
    rank o₁ typed cs = (numbered o₁ (normalize typed) cs).map Prod.fst := by
  rw [map_fst_numbered]
  by_cases hsome : ∃ i, Kept o₁ (normalize typed) cs i
  · exact rank_of_some h hsome
  · have hnone : ∀ i, ¬ Kept o₁ (normalize typed) cs i := not_exists.mp hsome
    have hoption : o₁.fallBack = false := hfall.resolve_right hsome
    rw [rank_of_none h hnone, hoption, filter_isClose_eq_nil_iff.mpr hnone, List.mergeSort_nil]
    rfl

/-- The score of a candidate is within the bound. -/
def Within (options : RankOptions) (typed : String) (c : Candidate) : Prop :=
  options.maxProximity.AtLeast (score c.text typed)

/-- A tighter bound cuts off the end of a ranking: what is left is its longest beginning with scores
within the bound. -/
theorem rank_longestPrefix (h : o₁.maxProximity.AtMost o₂.maxProximity)
    (hfall : o₁.fallBack = false ∧ o₂.fallBack = false ∨
      ∃ c ∈ cs, Within o₁ (normalize typed) c) :
    rank o₁ typed cs <+: rank o₂ typed cs ∧
      (normalize typed ≠ "" →
        LongestPrefix (Within o₁ (normalize typed)) (rank o₁ typed cs) (rank o₂ typed cs)) := by
  by_cases hempty : normalize typed = ""
  · rw [rank_of_eq_empty hempty, rank_of_eq_empty hempty]
    exact ⟨List.prefix_rfl, fun hne => absurd hempty hne⟩
  have hlongest :
      LongestPrefix (Within o₁ (normalize typed)) (rank o₁ typed cs) (rank o₂ typed cs) := by
    have hfall₁ : o₁.fallBack = false ∨ ∃ i, Kept o₁ (normalize typed) cs i := by
      refine hfall.imp And.left ?_
      rintro ⟨c, hc, hwithin⟩
      exact exists_kept_of_mem hc (isClose_iff.mpr hwithin)
    have hfall₂ : o₂.fallBack = false ∨ ∃ i, Kept o₂ (normalize typed) cs i := by
      refine hfall.imp And.right ?_
      rintro ⟨c, hc, hwithin⟩
      exact exists_kept_of_mem hc (isClose_mono h (isClose_iff.mpr hwithin))
    have hrank : rank o₁ typed cs = (rank o₂ typed cs).filter (isClose o₁ (normalize typed)) := by
      rw [rank_eq_map_numbered hempty hfall₁, rank_eq_map_numbered hempty hfall₂,
        ← filter_numbered h, List.filter_map]
      rfl
    have hsorted : (rank o₂ typed cs).Pairwise fun a b =>
        isClose o₁ (normalize typed) b = true → isClose o₁ (normalize typed) a = true := by
      rw [rank_eq_map_numbered hempty hfall₂, List.pairwise_map]
      exact numbered_sorted.imp isClose_of_mayPrecede
    have hwithin : Within o₁ (normalize typed) =
        fun c => isClose o₁ (normalize typed) c = true := by
      funext c
      exact propext isClose_iff.symm
    rw [hrank, hwithin]
    exact longestPrefix_filter hsorted
  exact ⟨hlongest.isPrefix, fun _ => hlongest⟩

/-- A bound of one cuts off a candidate that only contains the typed letters. -/
theorem rank_longestPrefix_catTexts :
    let tight : RankOptions := { maxProximity := .ofNat 1, fallBack := false }
    let loose : RankOptions := { maxProximity := .infinite false, fallBack := false }
    let cs : List Candidate := [{ text := "scatter" }, { text := "cot" }, { text := "Cats" }]
    tight.maxProximity.AtMost loose.maxProximity ∧
      LongestPrefix (Within tight (normalize "c-at")) (rank tight "c-at" cs) (rank loose "c-at" cs) ∧
      { text := "scatter" } ∉ rank tight "c-at" cs ∧ { text := "scatter" } ∈ rank loose "c-at" cs := by
  intro tight loose cs
  have hle : tight.maxProximity.AtMost loose.maxProximity :=
    ⟨_, Option.mem_some_self _, ⊤, Option.mem_some_self _, le_top⟩
  have hne : normalize "c-at" ≠ "" := by decide +kernel
  have hrank := fun o : RankOptions => @rank_eq_map_numbered o "c-at" cs hne
  have htight : { text := "scatter" } ∉ cs.filter (isClose tight (normalize "c-at")) := by
    decide +kernel
  have hloose : { text := "scatter" } ∈ cs.filter (isClose loose (normalize "c-at")) := by
    decide +kernel
  refine ⟨hle, (rank_longestPrefix hle (Or.inl ⟨rfl, rfl⟩)).2 hne, ?_, ?_⟩
  · rwa [hrank tight (Or.inl rfl), map_fst_numbered, List.mem_mergeSort]
  · rwa [hrank loose (Or.inl rfl), map_fst_numbered, List.mem_mergeSort]

end Rank

end Fuzzy

end SchemaHint
