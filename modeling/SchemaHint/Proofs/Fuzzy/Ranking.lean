import Mathlib.Algebra.Order.Field.Power
import Mathlib.Algebra.Order.Field.Rat
import Mathlib.Data.List.Nodup
import Mathlib.Data.Prod.Lex
import Mathlib.Tactic.Linarith
import Mathlib.Tactic.Positivity
import Mathlib.Tactic.Ring
import SchemaHint.Fuzzy.Rank

/-!
# What a ranking keeps, and in which order

A ranking is told by the positions of the candidates, so that equal candidates stay apart.

* `Binary64.AtLeast`, `Binary64.halvesLe_iff` : comparison with a floating point number is comparison
  with its value;
* `score`, `Kept`, `rankKey` : the exact score, the positions that are kept, and what they are sorted
  by;
* `takeInTurn` : taking values out of their slots, each of which can be emptied once;
* `Ranked` : what the result of a ranking is;
* `numbered_pairwise` : sorting keeps the order of what compares equal;
* `ranked_iff_rank_eq` : the ranking gives the one result that is `Ranked`;
* `rank_of_sorted` : what a ranking leaves as it is; `rank_rank` : a ranking among it.
-/

namespace SchemaHint

set_option autoImplicit false

/-! ## Comparison with a bound -/

/-- Whether a number is at least a rational one; `nan` is not. -/
def Binary64.AtLeast : Binary64 → ℚ → Prop
  | .nan, _ => False
  | .infinite negative, _ => negative = false
  | .finite negative m e, q => q ≤ (if negative then -1 else 1) * m * 2 ^ e

theorem Binary64.scaleTwo_le_iff (halves m : Nat) (e : Int) :
    halves * (scaleTwo m 1 (e + 1)).2 ≤ (scaleTwo m 1 (e + 1)).1 ↔
      (halves : ℚ) / 2 ≤ m * 2 ^ e := by
  have hpow : (2 : ℚ) ^ e * (2 * 2 ^ (-(e + 1)).toNat) = 2 ^ (e + 1).toNat := by
    have hsub : e + 1 + ((-(e + 1)).toNat : Int) = ((e + 1).toNat : Int) := by omega
    rw [← zpow_natCast, ← zpow_natCast, ← mul_assoc, ← zpow_add_one₀ (by norm_num),
      ← zpow_add₀ (by norm_num), hsub]
  have hpos : (0 : ℚ) < 2 * 2 ^ (-(e + 1)).toNat := by positivity
  have hleft : (halves : ℚ) / 2 * (2 * 2 ^ (-(e + 1)).toNat) = halves * 2 ^ (-(e + 1)).toNat := by
    ring
  have hright : (m : ℚ) * 2 ^ e * (2 * 2 ^ (-(e + 1)).toNat) = m * 2 ^ (e + 1).toNat := by
    rw [mul_assoc, hpow]
  have hcast : halves * (scaleTwo m 1 (e + 1)).2 ≤ (scaleTwo m 1 (e + 1)).1 ↔
      (halves : ℚ) * 2 ^ (-(e + 1)).toNat ≤ m * 2 ^ (e + 1).toNat := by
    rw [scaleTwo, Nat.one_mul]
    exact_mod_cast Iff.rfl
  rw [hcast, ← hleft, ← hright, mul_le_mul_iff_left₀ hpos]

theorem Binary64.halvesLe_iff (x : Binary64) (halves : Nat) :
    x.halvesLe halves = true ↔ x.AtLeast (halves / 2) := by
  cases x with
  | nan => simp [halvesLe, AtLeast]
  | infinite negative => simp [halvesLe, AtLeast]
  | finite negative m e =>
    have hpower : (0 : ℚ) < 2 ^ e := by positivity
    have hhalves : (0 : ℚ) ≤ halves / 2 := by positivity
    unfold halvesLe AtLeast
    cases negative with
    | false => simpa using scaleTwo_le_iff halves m e
    | true =>
      by_cases hm : m = 0
      · subst hm
        simpa using scaleTwo_le_iff halves 0 e
      · have hneg : (0 : ℚ) < m * 2 ^ e := by
          have : 0 < m := Nat.pos_of_ne_zero hm
          positivity
        simp [hm]
        linarith

namespace Fuzzy

/-! ## Results of rankings -/

/-- The exact score of a candidate's text against a typed text in normal form. -/
def score (candidate typed : String) : ℚ := proximity candidate typed / 2

/-- A position whose candidate has a score within the bound. -/
def Kept (options : RankOptions) (typed : String) (cs : List Candidate) (i : Nat) : Prop :=
  ∃ c, cs[i]? = some c ∧ options.maxProximity.AtLeast (score c.text typed)

/-- What candidates are sorted by: the score, then the length of the text, then the position. -/
def rankKey (typed : String) (c : Candidate) (i : Nat) : ℚ ×ₗ ℕ ×ₗ ℕ :=
  toLex (score c.text typed, toLex (c.text.length, i))

/-- A position that stands before another one in a ranking. -/
def Precedes (typed : String) (cs : List Candidate) (i j : Nat) : Prop :=
  ∃ c d, cs[i]? = some c ∧ cs[j]? = some d ∧ rankKey typed c i < rankKey typed d j

/-- Takes the values at the given positions out of their slots, one after the other. This fails at a
position that has no slot, and at a slot that is empty already. -/
def takeInTurn {α : Type} : List (Option α) → List Nat → Option (List α)
  | _, [] => some []
  | slots, i :: is =>
    match slots[i]? with
    | some (some x) => (takeInTurn (slots.set i none) is).map (x :: ·)
    | _ => none

/-- The results of a ranking. -/
inductive Ranked (options : RankOptions) (typed : String) (cs : List Candidate) :
    List Candidate → Prop
  /-- Without a word character in the typed text nothing is left out or moved. -/
  | asGiven (h : normalize typed = "") : Ranked options typed cs cs
  /-- All candidates, if none is close enough and the options say so. -/
  | fallenBack (h : normalize typed ≠ "") (hnone : ∀ i, ¬ Kept options (normalize typed) cs i)
      (hoption : options.fallBack = true) : Ranked options typed cs cs
  /-- No candidates, if none is close enough and the options say so. -/
  | nothing (h : normalize typed ≠ "") (hnone : ∀ i, ¬ Kept options (normalize typed) cs i)
      (hoption : options.fallBack = false) : Ranked options typed cs []
  /-- Otherwise what stands at the positions that are kept, in the order of the keys. -/
  | inOrder (h : normalize typed ≠ "") (hsome : ∃ i, Kept options (normalize typed) cs i)
      (order : List Nat) (hkept : ∀ i, i ∈ order ↔ Kept options (normalize typed) cs i)
      (hsorted : order.Pairwise (Precedes (normalize typed) cs)) (result : List Candidate)
      (htaken : takeInTurn (cs.map some) order = some result) : Ranked options typed cs result

/-! ## Slots -/

theorem takeInTurn_eq_some {α : Type} (order : List (α × Nat)) (slots : List (Option α))
    (hnodup : (order.map Prod.snd).Nodup) (hslots : ∀ p ∈ order, slots[p.2]? = some (some p.1)) :
    takeInTurn slots (order.map Prod.snd) = some (order.map Prod.fst) := by
  induction order generalizing slots with
  | nil => rfl
  | cons p order ih =>
    rw [List.map_cons, List.nodup_cons] at hnodup
    rw [List.forall_mem_cons] at hslots
    -- emptying the slot of `p` leaves the slots of the others alone
    have hrest : ∀ q ∈ order, (slots.set p.2 none)[q.2]? = some (some q.1) := by
      intro q hq
      have hne : p.2 ≠ q.2 := by
        intro heq
        exact hnodup.1 (heq ▸ List.mem_map_of_mem hq)
      rw [List.getElem?_set_ne hne]
      exact hslots.2 q hq
    rw [List.map_cons, takeInTurn, hslots.1]
    dsimp only
    rw [ih (slots.set p.2 none) hnodup.2 hrest]
    rfl

/-! ## Comparison of candidates -/

theorem mayPrecede_iff {typed : String} {a b : Candidate} :
    mayPrecede typed a b = true ↔
      proximity a.text typed < proximity b.text typed ∨
        proximity a.text typed = proximity b.text typed ∧ a.text.length ≤ b.text.length := by
  unfold mayPrecede sortKey
  rw [Bool.or_eq_true, Bool.and_eq_true, decide_eq_true_iff, decide_eq_true_iff, decide_eq_true_iff]

theorem mayPrecede_trans (typed : String) (a b c : Candidate) (hab : mayPrecede typed a b = true)
    (hbc : mayPrecede typed b c = true) : mayPrecede typed a c = true := by
  rw [mayPrecede_iff] at *
  omega

theorem mayPrecede_total (typed : String) (a b : Candidate) :
    (mayPrecede typed a b || mayPrecede typed b a) = true := by
  rw [Bool.or_eq_true, mayPrecede_iff, mayPrecede_iff]
  omega

theorem score_lt_iff {typed : String} {a b : Candidate} :
    score a.text typed < score b.text typed ↔ proximity a.text typed < proximity b.text typed := by
  unfold score
  rw [div_lt_div_iff_of_pos_right (by norm_num)]
  exact Nat.cast_lt

theorem score_eq_half_iff {candidate typed : String} {n : Nat} :
    score candidate typed = n / 2 ↔ proximity candidate typed = n := by
  unfold score
  rw [div_left_inj' (by norm_num)]
  exact Nat.cast_inj

/-- Keys are compared as candidates are, and by the position where these compare equal. -/
theorem rankKey_lt_iff {typed : String} {a b : Candidate} {i j : Nat} :
    rankKey typed a i < rankKey typed b j ↔
      mayPrecede typed a b = true ∧ (mayPrecede typed b a = true → i < j) := by
  have heq : score a.text typed = score b.text typed ↔
      proximity a.text typed = proximity b.text typed := score_eq_half_iff
  rw [rankKey, rankKey, Prod.Lex.toLex_lt_toLex, Prod.Lex.toLex_lt_toLex, score_lt_iff, heq,
    mayPrecede_iff, mayPrecede_iff]
  omega

/-! ## Sorting -/

/-- Sorting does not move values that compare equal past each other. -/
theorem filter_mergeSort_of_tied {α : Type} {le : α → α → Bool} {tied : α → Bool}
    (htrans : ∀ a b c, le a b = true → le b c = true → le a c = true)
    (htotal : ∀ a b, (le a b || le b a) = true)
    (htied : ∀ a b, tied a = true → tied b = true → le a b = true) (l : List α) :
    (l.mergeSort le).filter tied = l.filter tied := by
  have hle : (l.filter tied).Pairwise fun a b => le a b = true := by
    rw [List.pairwise_filter]
    exact List.pairwise_of_forall htied
  have hsub := (List.sublist_mergeSort htrans htotal hle List.filter_sublist).filter tied
  simp only [List.filter_filter, Bool.and_self] at hsub
  refine (hsub.eq_of_length_le ?_).symm
  exact ((List.mergeSort_perm l le).filter tied).length_eq.le

section Numbered
variable {options : RankOptions} {typed : String} {cs : List Candidate}

/-- The close candidates with their positions, the best first. -/
def numbered (options : RankOptions) (typed : String) (cs : List Candidate) :
    List (Candidate × Nat) :=
  (cs.zipIdx.filter fun p => isClose options typed p.1).mergeSort fun p q =>
    mayPrecede typed p.1 q.1

theorem isClose_iff {c : Candidate} :
    isClose options typed c = true ↔ options.maxProximity.AtLeast (score c.text typed) :=
  options.maxProximity.halvesLe_iff _

theorem mem_numbered_iff {p : Candidate × Nat} :
    p ∈ numbered options typed cs ↔ cs[p.2]? = some p.1 ∧ isClose options typed p.1 = true := by
  rw [numbered, List.mem_mergeSort, List.mem_filter, List.mem_zipIdx_iff_getElem?]

/-- The positions that are kept. -/
theorem mem_positions_iff {i : Nat} :
    i ∈ (numbered options typed cs).map Prod.snd ↔ Kept options typed cs i := by
  simp only [List.mem_map, mem_numbered_iff, isClose_iff, Kept]
  constructor
  · rintro ⟨p, hp, rfl⟩
    exact ⟨p.1, hp⟩
  · rintro ⟨c, hc⟩
    exact ⟨(c, i), hc, rfl⟩

theorem map_fst_numbered :
    (numbered options typed cs).map Prod.fst =
      (cs.filter (isClose options typed)).mergeSort (mayPrecede typed) := by
  have hclose : (cs.zipIdx.filter fun p => isClose options typed p.1).map Prod.fst =
      cs.filter (isClose options typed) := by
    conv_rhs => rw [← List.zipIdx_map_fst 0 cs, List.filter_map]
    rfl
  rw [numbered, ← hclose]
  exact List.map_mergeSort fun _ _ _ _ => rfl

theorem mayPrecede_fst_trans (typed : String) (p q r : Candidate × Nat)
    (hpq : mayPrecede typed p.1 q.1 = true) (hqr : mayPrecede typed q.1 r.1 = true) :
    mayPrecede typed p.1 r.1 = true :=
  mayPrecede_trans typed _ _ _ hpq hqr

theorem mayPrecede_fst_total (typed : String) (p q : Candidate × Nat) :
    (mayPrecede typed p.1 q.1 || mayPrecede typed q.1 p.1) = true :=
  mayPrecede_total typed _ _

theorem numbered_sorted :
    (numbered options typed cs).Pairwise fun p q => mayPrecede typed p.1 q.1 = true :=
  List.pairwise_mergeSort (mayPrecede_fst_trans typed) (mayPrecede_fst_total typed) _

/-- What compares equal stays in the order of the positions. -/
theorem numbered_stable {p q : Candidate × Nat} (hpq : [p, q].Sublist (numbered options typed cs))
    (h : mayPrecede typed p.1 q.1 = true) (h' : mayPrecede typed q.1 p.1 = true) : p.2 < q.2 := by
  let tied : Candidate × Nat → Bool := fun r =>
    mayPrecede typed p.1 r.1 && mayPrecede typed r.1 p.1
  have htied : ∀ r r', tied r = true → tied r' = true → mayPrecede typed r.1 r'.1 = true := by
    intro r r' hr hr'
    exact mayPrecede_trans typed _ _ _ (Bool.and_eq_true_iff.mp hr).2 (Bool.and_eq_true_iff.mp hr').1
  have hpositions : cs.zipIdx.Pairwise fun r r' => r.2 < r'.2 := by
    rw [← List.pairwise_map, List.zipIdx_map_snd]
    exact List.pairwise_lt_range'
  have hfilter := (hpositions.filter fun r => isClose options typed r.1).filter tied
  rw [← filter_mergeSort_of_tied (mayPrecede_fst_trans typed) (mayPrecede_fst_total typed) htied,
    List.pairwise_filter] at hfilter
  have hself : mayPrecede typed p.1 p.1 = true := mayPrecede_trans typed _ _ _ h h'
  refine List.pairwise_iff_forall_sublist.mp hfilter hpq ?_ ?_
  · exact Bool.and_eq_true_iff.mpr ⟨hself, hself⟩
  · exact Bool.and_eq_true_iff.mpr ⟨h, h'⟩

theorem numbered_pairwise :
    (numbered options typed cs).Pairwise fun p q =>
      rankKey typed p.1 p.2 < rankKey typed q.1 q.2 := by
  rw [List.pairwise_iff_forall_sublist]
  intro p q hpq
  have hle := List.pairwise_iff_forall_sublist.mp numbered_sorted hpq
  rw [rankKey_lt_iff]
  exact ⟨hle, numbered_stable hpq hle⟩

theorem positions_pairwise :
    ((numbered options typed cs).map Prod.snd).Pairwise (Precedes typed cs) := by
  rw [List.pairwise_map]
  refine numbered_pairwise.imp_of_mem ?_
  intro p q hp hq hlt
  exact ⟨p.1, q.1, (mem_numbered_iff.mp hp).1, (mem_numbered_iff.mp hq).1, hlt⟩

theorem Precedes.asymm {i j : Nat} (hij : Precedes typed cs i j) : ¬ Precedes typed cs j i := by
  rintro ⟨d, c, hd, hc, hji⟩
  obtain ⟨c', d', hc', hd', hij⟩ := hij
  rw [hc, Option.some.injEq] at hc'
  rw [hd, Option.some.injEq] at hd'
  subst hc' hd'
  exact lt_asymm hij hji

theorem nodup_of_pairwise {order : List Nat} (h : order.Pairwise (Precedes typed cs)) :
    order.Nodup := by
  refine h.imp ?_
  rintro i j hij rfl
  exact hij.asymm hij

/-- The keys leave one order. -/
theorem eq_positions {order : List Nat} (hkept : ∀ i, i ∈ order ↔ Kept options typed cs i)
    (hsorted : order.Pairwise (Precedes typed cs)) :
    order = (numbered options typed cs).map Prod.snd := by
  have hperm : order.Perm ((numbered options typed cs).map Prod.snd) := by
    rw [List.perm_ext_iff_of_nodup (nodup_of_pairwise hsorted) (nodup_of_pairwise positions_pairwise)]
    intro i
    rw [hkept, mem_positions_iff]
  refine hperm.eq_of_pairwise ?_ hsorted positions_pairwise
  intro i j _ _ hij hji
  exact absurd hji hij.asymm

theorem takeInTurn_positions :
    takeInTurn (cs.map some) ((numbered options typed cs).map Prod.snd) =
      some ((cs.filter (isClose options typed)).mergeSort (mayPrecede typed)) := by
  rw [← map_fst_numbered]
  apply takeInTurn_eq_some _ _ (nodup_of_pairwise positions_pairwise)
  intro p hp
  rw [List.getElem?_map, (mem_numbered_iff.mp hp).1]
  rfl

theorem filter_isClose_eq_nil_iff :
    cs.filter (isClose options typed) = [] ↔ ∀ i, ¬ Kept options typed cs i := by
  have hnil : cs.filter (isClose options typed) = [] ↔ (numbered options typed cs).map Prod.snd = [] := by
    have hlength : ((numbered options typed cs).map Prod.snd).length =
        (cs.filter (isClose options typed)).length := by
      rw [List.length_map, ← @List.length_map _ _ _ Prod.fst, map_fst_numbered, List.length_mergeSort]
    rw [← List.length_eq_zero_iff, ← hlength, List.length_eq_zero_iff]
  rw [hnil, List.eq_nil_iff_forall_not_mem]
  simp only [mem_positions_iff]

end Numbered

/-! ## The ranking -/

section Rank
variable {options : RankOptions} {typed : String} {cs : List Candidate}

theorem rank_of_eq_empty (h : normalize typed = "") : rank options typed cs = cs := by
  rw [rank, h]
  rfl

theorem rank_of_none (h : normalize typed ≠ "")
    (hnone : ∀ i, ¬ Kept options (normalize typed) cs i) :
    rank options typed cs = if options.fallBack then cs else [] := by
  have hempty : (normalize typed).isEmpty = false := by simpa using h
  simp [rank, hempty, filter_isClose_eq_nil_iff.mpr hnone]

theorem rank_of_some (h : normalize typed ≠ "") (hsome : ∃ i, Kept options (normalize typed) cs i) :
    rank options typed cs =
      (cs.filter (isClose options (normalize typed))).mergeSort (mayPrecede (normalize typed)) := by
  have hempty : (normalize typed).isEmpty = false := by simpa using h
  have hne : (cs.filter (isClose options (normalize typed))).isEmpty = false := by
    rw [List.isEmpty_eq_false_iff, ne_eq, filter_isClose_eq_nil_iff, not_forall]
    simpa only [not_not] using hsome
  simp only [rank, hempty, hne, Bool.false_eq_true, if_false]

theorem exists_kept_of_mem {c : Candidate} (hc : c ∈ cs)
    (hclose : isClose options typed c = true) : ∃ i, Kept options typed cs i := by
  obtain ⟨i, hi⟩ := List.mem_iff_getElem?.mp hc
  exact ⟨i, c, hi, isClose_iff.mp hclose⟩

theorem mem_of_mem_rank {c : Candidate} (hc : c ∈ rank options typed cs) : c ∈ cs := by
  by_cases h : normalize typed = ""
  · rwa [rank_of_eq_empty h] at hc
  by_cases hsome : ∃ i, Kept options (normalize typed) cs i
  · rw [rank_of_some h hsome, List.mem_mergeSort] at hc
    exact List.mem_of_mem_filter hc
  · rw [rank_of_none h (not_exists.mp hsome)] at hc
    split at hc
    · exact hc
    · cases hc

/-- A candidate that is close enough is as often in the result as it was given. -/
theorem count_rank_of_isClose {c : Candidate}
    (hclose : isClose options (normalize typed) c = true) :
    (rank options typed cs).count c = cs.count c := by
  by_cases h : normalize typed = ""
  · rw [rank_of_eq_empty h]
  by_cases hc : c ∈ cs
  · rw [rank_of_some h (exists_kept_of_mem hc hclose), (List.mergeSort_perm _ _).count_eq,
      List.count_filter hclose]
  · rw [List.count_eq_zero_of_not_mem hc, List.count_eq_zero_of_not_mem (hc ∘ mem_of_mem_rank)]

theorem rank_pairwise {c : Candidate} (h : normalize typed ≠ "") (hc : c ∈ cs)
    (hclose : isClose options (normalize typed) c = true) :
    (rank options typed cs).Pairwise fun a b => mayPrecede (normalize typed) a b = true := by
  rw [rank_of_some h (exists_kept_of_mem hc hclose)]
  exact List.pairwise_mergeSort (mayPrecede_trans _) (mayPrecede_total _) _

/-- The ranking gives the one result that is ranked. -/
theorem ranked_iff {l : List Candidate} : Ranked options typed cs l ↔ rank options typed cs = l := by
  constructor
  · intro hranked
    cases hranked with
    | asGiven h => exact rank_of_eq_empty h
    | fallenBack h hnone hoption => rw [rank_of_none h hnone, if_pos hoption]
    | nothing h hnone hoption => rw [rank_of_none h hnone, hoption]; rfl
    | inOrder h hsome order hkept hsorted result htaken =>
      rw [eq_positions hkept hsorted, takeInTurn_positions] at htaken
      rw [rank_of_some h hsome]
      exact Option.some.inj htaken
  · rintro rfl
    by_cases h : normalize typed = ""
    · rw [rank_of_eq_empty h]
      exact .asGiven h
    by_cases hsome : ∃ i, Kept options (normalize typed) cs i
    · refine .inOrder h hsome _ (fun i => mem_positions_iff) positions_pairwise _ ?_
      rw [rank_of_some h hsome]
      exact takeInTurn_positions
    · have hnone : ∀ i, ¬ Kept options (normalize typed) cs i := not_exists.mp hsome
      rw [rank_of_none h hnone]
      cases hoption : options.fallBack with
      | true => exact .fallenBack h hnone hoption
      | false => exact .nothing h hnone hoption

/-- The ranking gives the one result that is ranked, and a bound that is not a number keeps no
position. -/
theorem ranked_iff_rank_eq (options : RankOptions) (typed : String) (cs : List Candidate) :
    (∀ l, Ranked options typed cs l ↔ rank options typed cs = l) ∧
      ∀ i, ¬ Kept { options with maxProximity := .nan } (normalize typed) cs i := by
  refine ⟨fun l => ranked_iff, ?_⟩
  rintro i ⟨c, -, hnan⟩
  exact hnan

/-! ## Ranking a ranking -/

/-- Candidates that are all close enough and stand in order are left as they are. -/
theorem rank_of_sorted {l : List Candidate}
    (hclose : ∀ c ∈ l, isClose options (normalize typed) c = true)
    (hsorted : l.Pairwise fun a b => mayPrecede (normalize typed) a b = true) :
    rank options typed l = l := by
  have hfilter : l.filter (isClose options (normalize typed)) = l := List.filter_eq_self.mpr hclose
  by_cases h : normalize typed = ""
  · exact rank_of_eq_empty h
  by_cases hsome : ∃ i, Kept options (normalize typed) l i
  · rw [rank_of_some h hsome, hfilter]
    exact List.mergeSort_of_pairwise hsorted
  · have hnone : ∀ i, ¬ Kept options (normalize typed) l i := not_exists.mp hsome
    have hnil : l = [] := by
      rw [← hfilter]
      exact filter_isClose_eq_nil_iff.mpr hnone
    subst hnil
    rw [rank_of_none h hnone, ite_self]

/-- A ranking that is ranked again, by the same typed text and options, stays as it is. -/
theorem rank_rank (options : RankOptions) (typed : String) (cs : List Candidate) :
    rank options typed (rank options typed cs) = rank options typed cs := by
  by_cases h : normalize typed = ""
  · exact rank_of_eq_empty h
  by_cases hsome : ∃ i, Kept options (normalize typed) cs i
  · rw [rank_of_some h hsome]
    apply rank_of_sorted
    · intro c hc
      exact List.of_mem_filter (List.mem_mergeSort.mp hc)
    · exact List.pairwise_mergeSort (mayPrecede_trans _) (mayPrecede_total _) _
  · -- nothing is close enough: the second run falls back, or gives nothing, as the first one did
    have hrank := rank_of_none h (not_exists.mp hsome)
    cases hoption : options.fallBack with
    | true =>
      have hall : rank options typed cs = cs := by rw [hrank, if_pos hoption]
      rw [hall, hall]
    | false =>
      have hnothing : rank options typed cs = [] := by rw [hrank, hoption]; rfl
      rw [hnothing]
      exact rank_of_sorted (fun c hc => absurd hc List.not_mem_nil) .nil

end Rank

end Fuzzy

end SchemaHint
