import SchemaHint.Proofs.Fuzzy.Alignment
import SchemaHint.Proofs.Fuzzy.Ranking

/-!
# What a score says

* `length_le_add_distanceChars`, `length_eq_add_distanceChars_iff` : the distance is at least the
  difference of the lengths, and is that iff the shorter text is a subsequence of the longer one;
* `Scored` : what a score says of a candidate and the typed text;
* `PlacedBefore` : the elements of one sort stand before those of another one;
* `RankedByDefault` : what the default ranking makes of completions and exact matches.
-/

namespace SchemaHint.Fuzzy

set_option autoImplicit false

/-! ## Distance and length -/

namespace Step

theorem length_right_le (s : Step) : s.right.length ≤ s.left.length + s.cost := by
  cases s <;> simp [left, right, cost]

/-- Only characters that are kept or put in are paid for by the length. -/
theorem sublist_of_length_eq {s : Step} (h : s.right.length = s.left.length + s.cost) :
    s.left.Sublist s.right := by
  cases s <;> simp_all [left, right, cost]

theorem left_eq_right_of_cost_eq_zero {s : Step} (h : s.cost = 0) : s.left = s.right := by
  cases s <;> simp_all [left, right, cost]

end Step

namespace Alignment

variable {a b : List Char}

theorem length_right_le (s : Alignment a b) : b.length ≤ a.length + s.cost := by
  induction s using Alignment.induct with
  | hnil => exact le_rfl
  | hcons step a b s ih =>
    have hstep := step.length_right_le
    rw [cost_cons, List.length_append, List.length_append]
    omega

theorem sublist_of_length_eq (s : Alignment a b) (h : b.length = a.length + s.cost) :
    a.Sublist b := by
  induction s using Alignment.induct with
  | hnil => exact List.Sublist.refl []
  | hcons step a b s ih =>
    have hstep := step.length_right_le
    have hrest := s.length_right_le
    rw [cost_cons, List.length_append, List.length_append] at h
    exact (Step.sublist_of_length_eq (by omega)).append (ih (by omega))

theorem eq_of_cost_eq_zero (s : Alignment a b) (h : s.cost = 0) : a = b := by
  induction s using Alignment.induct with
  | hnil => rfl
  | hcons step a b s ih =>
    rw [cost_cons] at h
    rw [ih (by omega), Step.left_eq_right_of_cost_eq_zero (by omega)]

end Alignment

theorem length_le_add_distanceChars (a b : List Char) :
    b.length ≤ a.length + distanceChars a b := by
  obtain ⟨s, hs⟩ := exists_cost_eq_distanceChars a b
  rw [← hs]
  exact s.length_right_le

/-- A subsequence is turned into the whole by putting in the rest. -/
theorem distanceChars_le_of_sublist {a b : List Char} (h : a.Sublist b) :
    a.length + distanceChars a b ≤ b.length := by
  induction h with
  | slnil => exact le_rfl
  | @cons a b y h ih =>
    have hstep := distanceChars_add_le y a b
    rw [List.length_cons]
    omega
  | @cons_cons a b x h ih =>
    have hstep := distanceChars_change_le x x a b
    rw [changeCost_self] at hstep
    rw [List.length_cons, List.length_cons]
    omega

theorem length_eq_add_distanceChars_iff {a b : List Char} :
    b.length = a.length + distanceChars a b ↔ a.Sublist b := by
  constructor
  · intro h
    obtain ⟨s, hs⟩ := exists_cost_eq_distanceChars a b
    rw [← hs] at h
    exact s.sublist_of_length_eq h
  · intro h
    exact Nat.le_antisymm (length_le_add_distanceChars a b) (distanceChars_le_of_sublist h)

theorem distanceChars_eq_zero_iff {a b : List Char} : distanceChars a b = 0 ↔ a = b := by
  constructor
  · intro h
    obtain ⟨s, hs⟩ := exists_cost_eq_distanceChars a b
    exact s.eq_of_cost_eq_zero (hs.trans h)
  · rintro rfl
    have hself := length_eq_add_distanceChars_iff.mpr (List.Sublist.refl a)
    omega

/-! ## Scores -/

section Chars
variable {candidate typed : List Char}

theorem proximityChars_of_length_le (h : candidate.length ≤ typed.length) :
    proximityChars candidate typed = 2 * distanceChars typed candidate := by
  rw [proximityChars, if_neg (by omega)]

/-- The subtraction of the further characters is exact. -/
theorem proximityChars_of_length_lt (h : typed.length < candidate.length) :
    proximityChars candidate typed + 2 * candidate.length =
      2 * distanceChars typed candidate + 2 * typed.length + 2 +
        if typed <+: candidate then 0 else 1 := by
  have hle := length_le_add_distanceChars typed candidate
  have hstart : (if typed.isPrefixOf candidate then 0 else 1) =
      if typed <+: candidate then 0 else 1 := by
    simp only [List.isPrefixOf_iff_prefix]
  rw [proximityChars, if_pos h, hstart]
  omega

theorem proximityChars_of_isPrefix (h : typed.length < candidate.length)
    (hstart : typed <+: candidate) : proximityChars candidate typed = 2 := by
  have hscore := proximityChars_of_length_lt h
  have hlength := length_eq_add_distanceChars_iff.mpr hstart.sublist
  rw [if_pos hstart] at hscore
  omega

theorem proximityChars_of_sublist (h : typed.length < candidate.length)
    (hstart : ¬ typed <+: candidate) (hsub : typed.Sublist candidate) :
    proximityChars candidate typed = 3 := by
  have hscore := proximityChars_of_length_lt h
  have hlength := length_eq_add_distanceChars_iff.mpr hsub
  rw [if_neg hstart] at hscore
  omega

theorem five_le_proximityChars (h : typed.length < candidate.length)
    (hsub : ¬ typed.Sublist candidate) : 5 ≤ proximityChars candidate typed := by
  have hscore := proximityChars_of_length_lt h
  have hle := length_le_add_distanceChars typed candidate
  have hne : candidate.length ≠ typed.length + distanceChars typed candidate :=
    fun heq => hsub (length_eq_add_distanceChars_iff.mp heq)
  rw [if_neg fun hstart => hsub hstart.sublist] at hscore
  omega

theorem proximityChars_eq_two_iff (h : typed.length < candidate.length) :
    proximityChars candidate typed = 2 ↔ typed <+: candidate := by
  refine ⟨fun htwo => ?_, proximityChars_of_isPrefix h⟩
  by_contra hstart
  by_cases hsub : typed.Sublist candidate
  · have hthree := proximityChars_of_sublist h hstart hsub
    omega
  · have hfive := five_le_proximityChars h hsub
    omega

theorem proximityChars_eq_three_iff (h : typed.length < candidate.length) :
    proximityChars candidate typed = 3 ↔ typed.Sublist candidate ∧ ¬ typed <+: candidate := by
  refine ⟨fun hthree => ?_, fun hsub => proximityChars_of_sublist h hsub.2 hsub.1⟩
  rw [← proximityChars_eq_two_iff h]
  refine ⟨?_, by omega⟩
  by_contra hsub
  have hfive := five_le_proximityChars h hsub
  omega

theorem proximityChars_eq_zero_iff : proximityChars candidate typed = 0 ↔ candidate = typed := by
  rcases Nat.lt_or_ge typed.length candidate.length with h | h
  · have hscore := proximityChars_of_length_lt h
    have hle := length_le_add_distanceChars typed candidate
    refine iff_of_false (by omega) ?_
    rintro rfl
    exact Nat.lt_irrefl _ h
  · rw [proximityChars_of_length_le h, Nat.mul_eq_zero, or_iff_right (by decide),
      distanceChars_eq_zero_iff, eq_comm]

end Chars

/-- What a score says of a candidate in normal form and a typed text. -/
structure Scored (candidate typed : String) (q : ℚ) : Prop where
  nonneg : 0 ≤ q
  eq_zero_iff : q = 0 ↔ candidate = typed
  of_length_le : candidate.length ≤ typed.length → q = distance typed candidate
  /-- A longer candidate pays for only one of its further characters, and a half more unless it
  starts with the typed text. -/
  of_length_lt : typed.length < candidate.length →
    q = distance typed candidate - (candidate.length - typed.length - 1) +
      if typed.toList <+: candidate.toList then 0 else 1 / 2
  eq_one_iff : typed.length < candidate.length →
    (q = 1 ↔ typed.toList <+: candidate.toList)
  eq_three_halves_iff : typed.length < candidate.length →
    (q = 3 / 2 ↔ typed.toList.Sublist candidate.toList ∧ ¬ typed.toList <+: candidate.toList)
  five_halves_le : typed.length < candidate.length →
    ¬ typed.toList.Sublist candidate.toList → 5 / 2 ≤ q

theorem toList_normalize (s : String) : (normalize s).toList = normalizeChars s.toList :=
  String.toList_ofList

theorem proximity_eq (candidate typed : String) :
    proximity candidate typed = proximityChars (normalize candidate).toList typed.toList := by
  rw [proximity, toList_normalize]

theorem scored_score (candidate typed : String) :
    Scored (normalize candidate) typed (score candidate typed) where
  nonneg := by
    unfold score
    positivity
  eq_zero_iff := by
    have hzero := @score_eq_half_iff candidate typed 0
    rw [Nat.cast_zero, zero_div] at hzero
    rw [hzero, proximity_eq, proximityChars_eq_zero_iff, String.toList_inj]
  of_length_le h := by
    unfold score distance
    rw [proximity_eq, proximityChars_of_length_le h]
    push_cast
    ring
  of_length_lt h := by
    have hscore : (proximityChars (normalize candidate).toList typed.toList : ℚ) +
        2 * (normalize candidate).toList.length =
          2 * distanceChars typed.toList (normalize candidate).toList + 2 * typed.toList.length + 2 +
            if typed.toList <+: (normalize candidate).toList then 0 else 1 := by
      exact_mod_cast proximityChars_of_length_lt h
    unfold score distance
    rw [proximity_eq, ← String.length_toList, ← String.length_toList]
    by_cases hstart : typed.toList <+: (normalize candidate).toList
    · rw [if_pos hstart] at hscore ⊢
      linarith
    · rw [if_neg hstart] at hscore ⊢
      linarith
  eq_one_iff h := by
    have hone := @score_eq_half_iff candidate typed 2
    rw [Nat.cast_two, div_self two_ne_zero] at hone
    rw [hone, proximity_eq]
    exact proximityChars_eq_two_iff h
  eq_three_halves_iff h := by
    have hthree := @score_eq_half_iff candidate typed 3
    rw [Nat.cast_ofNat] at hthree
    rw [hthree, proximity_eq]
    exact proximityChars_eq_three_iff h
  five_halves_le h hsub := by
    have hfive : (5 : ℚ) ≤ proximity candidate typed := by
      rw [proximity_eq]
      exact_mod_cast five_le_proximityChars h hsub
    unfold score
    linarith

/-! ## Places in the default ranking -/

/-- The elements of one sort stand before those of another one. -/
def PlacedBefore {α : Type} (p q : α → Prop) (l : List α) : Prop :=
  ∀ (i j : Nat) (a b : α), l[i]? = some a → l[j]? = some b → p a → q b → i < j

/-- Candidates that are close enough stand before those with a greater score. -/
theorem placedBefore_rank {options : RankOptions} {typed : String} {cs : List Candidate}
    {p q : Candidate → Prop} (hne : normalize typed ≠ "")
    (hclose : ∀ c, p c → isClose options (normalize typed) c = true)
    (hlt : ∀ c d, p c → q d →
      proximity c.text (normalize typed) < proximity d.text (normalize typed)) :
    PlacedBefore p q (rank options typed cs) := by
  intro i j c d hi hj hc hd
  have hmem : c ∈ cs := mem_of_mem_rank (List.mem_of_getElem? hi)
  have hsorted := rank_pairwise hne hmem (hclose c hc)
  rcases Nat.lt_trichotomy i j with hij | rfl | hji
  · exact hij
  · rw [hi, Option.some.injEq] at hj
    subst hj
    exact absurd (hlt c c hc hd) (Nat.lt_irrefl _)
  · obtain ⟨hi', rfl⟩ := List.getElem?_eq_some_iff.mp hi
    obtain ⟨hj', rfl⟩ := List.getElem?_eq_some_iff.mp hj
    have hback := List.pairwise_iff_getElem.mp hsorted j i hj' hi' hji
    have hscores := hlt _ _ hc hd
    rw [mayPrecede_iff] at hback
    omega

/-- A candidate whose normal form is the typed text. -/
def IsExact (typed : String) (c : Candidate) : Prop := normalize c.text = typed

/-- A candidate with more characters than the typed text. -/
def IsLonger (typed : String) (c : Candidate) : Prop := typed.length < (normalize c.text).length

/-- A candidate that starts with the typed text. -/
def Starts (typed : String) (c : Candidate) : Prop := typed.toList <+: (normalize c.text).toList

/-- What the default ranking makes of longer candidates, completions and exact matches. -/
structure RankedByDefault (typed : String) (cs : List Candidate) : Prop where
  as_given : normalize typed = "" → rank {} typed cs = cs
  /-- A longer candidate is close enough iff the typed text is a subsequence of it. -/
  isClose_iff : ∀ c, IsLonger (normalize typed) c →
    (isClose {} (normalize typed) c = true ↔
      (normalize typed).toList.Sublist (normalize c.text).toList)
  completions_kept : ∀ c, IsLonger (normalize typed) c → Starts (normalize typed) c →
    (rank {} typed cs).count c = cs.count c
  completions_first : PlacedBefore
    (fun c => IsLonger (normalize typed) c ∧ Starts (normalize typed) c)
    (fun c => IsLonger (normalize typed) c ∧ ¬ Starts (normalize typed) c) (rank {} typed cs)
  exact_kept : ∀ c, IsExact (normalize typed) c → (rank {} typed cs).count c = cs.count c
  exact_first : normalize typed ≠ "" → PlacedBefore (IsExact (normalize typed))
    (fun c => ¬ IsExact (normalize typed) c) (rank {} typed cs)

section Default
variable {typed : String} {c : Candidate}

/-- The default bound is two. -/
theorem isClose_default_iff : isClose {} typed c = true ↔ proximity c.text typed ≤ 4 := by
  have htwo : Binary64.ofNat 2 = .finite false (2 ^ 52) (-51) := by decide
  have hbound : (Binary64.ofNat 2).AtLeast (score c.text typed) ↔ score c.text typed ≤ 2 := by
    rw [htwo, Binary64.AtLeast]
    norm_num
  have hfour : score c.text typed ≤ 2 ↔ (proximity c.text typed : ℚ) ≤ 4 := by
    unfold score
    rw [div_le_iff₀ two_pos]
    norm_num
  rw [isClose_iff, hbound, hfour]
  exact_mod_cast Iff.rfl

theorem proximity_eq_zero_iff : proximity c.text typed = 0 ↔ IsExact typed c := by
  rw [proximity_eq, proximityChars_eq_zero_iff, String.toList_inj, IsExact]

theorem proximity_of_starts (hlonger : IsLonger typed c) (h : Starts typed c) :
    proximity c.text typed = 2 := by
  rw [proximity_eq]
  exact proximityChars_of_isPrefix hlonger h

theorem three_le_proximity (hlonger : IsLonger typed c) (h : ¬ Starts typed c) :
    3 ≤ proximity c.text typed := by
  rw [proximity_eq]
  by_cases hsub : typed.toList.Sublist (normalize c.text).toList
  · rw [proximityChars_of_sublist hlonger h hsub]
  · have hfive := five_le_proximityChars hlonger hsub
    omega

theorem isClose_default_iff_sublist (hlonger : IsLonger typed c) :
    isClose {} typed c = true ↔ typed.toList.Sublist (normalize c.text).toList := by
  rw [isClose_default_iff, proximity_eq]
  constructor
  · intro hle
    by_contra hsub
    have hfive := five_le_proximityChars hlonger hsub
    omega
  · intro hsub
    by_cases hstart : typed.toList <+: (normalize c.text).toList
    · rw [proximityChars_of_isPrefix hlonger hstart]
      decide
    · rw [proximityChars_of_sublist hlonger hstart hsub]
      decide

theorem isClose_of_starts (hlonger : IsLonger typed c) (h : Starts typed c) :
    isClose {} typed c = true :=
  (isClose_default_iff_sublist hlonger).mpr h.sublist

theorem isClose_of_isExact (h : IsExact typed c) : isClose {} typed c = true := by
  rw [isClose_default_iff, proximity_eq_zero_iff.mpr h]
  decide

end Default

theorem rankedByDefault (typed : String) (cs : List Candidate) : RankedByDefault typed cs where
  as_given h := rank_of_eq_empty h
  isClose_iff c hlonger := isClose_default_iff_sublist hlonger
  completions_kept c hlonger hstarts := count_rank_of_isClose (isClose_of_starts hlonger hstarts)
  completions_first := by
    by_cases hne : normalize typed = ""
    · -- every candidate starts with an empty text
      intro i j c d _ _ _ hd
      rw [hne] at hd
      exact absurd List.nil_prefix hd.2
    · apply placedBefore_rank hne
      · intro c hc
        exact isClose_of_starts hc.1 hc.2
      · intro c d hc hd
        rw [proximity_of_starts hc.1 hc.2]
        exact three_le_proximity hd.1 hd.2
  exact_kept c hc := count_rank_of_isClose (isClose_of_isExact hc)
  exact_first hne := by
    apply placedBefore_rank hne
    · intro c hc
      exact isClose_of_isExact hc
    · intro c d hc hd
      rw [proximity_eq_zero_iff.mpr hc]
      exact Nat.pos_of_ne_zero fun h => hd (proximity_eq_zero_iff.mp h)

/-- What scores say, and what the default ranking makes of that. -/
theorem scored_and_rankedByDefault :
    (∀ candidate typed, Scored (normalize candidate) typed (score candidate typed)) ∧
      ∀ typed cs, RankedByDefault typed cs :=
  ⟨scored_score, rankedByDefault⟩

/-- Where nothing is typed, an exact match can stand behind other candidates. -/
theorem exact_match_not_first :
    ¬ PlacedBefore (IsExact (normalize "")) (fun c => ¬ IsExact (normalize "") c)
      (rank {} "" [{ text := "a" }, { text := "!" }]) := by
  intro h
  have hlast : rank {} "" [{ text := "a" }, { text := "!" }] = [{ text := "a" }, { text := "!" }] :=
    rank_of_eq_empty (by decide)
  rw [hlast] at h
  have hlt := h 1 0 { text := "!" } { text := "a" } rfl rfl
    (by unfold IsExact; decide) (by unfold IsExact; decide)
  omega

end SchemaHint.Fuzzy
