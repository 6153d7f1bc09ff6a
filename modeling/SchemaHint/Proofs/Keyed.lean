import Mathlib.Data.List.Induction
import Mathlib.Data.List.Nodup
import SchemaHint.Keyed

/-!
# Keyed lists: lookup, insertion and runs of `add`

* `Keyed.get?_eq_some_iff`, `Keyed.get?_eq_none_iff` : lookup is membership in `entries`;
* `Keyed.entries_insert`, `Keyed.entries_ofList` : a new key goes last, so different keys keep the
  order in which they came;
* `Keyed.get?_ofList` : of several values under one key the last one stays;
* `Keyed.SameEntries` : the same entries in another order;
* `Keyed.foldlM_add_eq_ok_iff` : when a run of checked `add`s succeeds, and with what entries;
* `Keyed.IndexedBy` : every value stands under its own name.
-/

namespace SchemaHint

set_option autoImplicit false

/-- A sequence of two steps succeeds iff both do. -/
theorem bind_eq_ok_iff {ε α β : Type} {x : Except ε α} {f : α → Except ε β} {b : β} :
    (x >>= f) = .ok b ↔ ∃ a, x = .ok a ∧ f a = .ok b := by
  cases x <;> simp [bind, Except.bind]

theorem pure_eq_ok_iff {ε α : Type} {a b : α} : (pure a : Except ε α) = .ok b ↔ a = b := by
  simp [pure, Except.pure]

/-- A check in front of a step. -/
theorem check_eq_ok_iff {ε α β : Type} {c : Prop} [Decidable c] {e : ε} {f : β → Except ε α}
    {x : Except ε α} {a : α} : (if c then throw e >>= f else x) = .ok a ↔ ¬ c ∧ x = .ok a := by
  by_cases hc : c
  · simp [hc, bind, Except.bind, throw, throwThe, MonadExceptOf.throw]
  · simp [hc]

namespace Keyed

variable {α : Type}

/-! ## Lookup -/

theorem mem_keys_iff {m : Keyed α} {key : String} : key ∈ m.keys ↔ ∃ v, (key, v) ∈ m.entries := by
  simp [keys]

theorem mem_values_iff {m : Keyed α} {v : α} : v ∈ m.values ↔ ∃ key, (key, v) ∈ m.entries := by
  simp [values]

theorem get?_eq_none_iff {m : Keyed α} {key : String} : m.get? key = none ↔ key ∉ m.keys := by
  rw [get?, List.lookup_eq_none_iff, mem_keys_iff]
  constructor
  · rintro h ⟨v, hv⟩
    simpa using h _ hv
  · rintro h ⟨k, v⟩ hp
    rw [bne_iff_ne]
    rintro rfl
    exact h ⟨v, hp⟩

theorem lookup_eq_some_of_mem {es : List (String × α)} {key : String} {v : α}
    (hnd : (es.map Prod.fst).Nodup) (hv : (key, v) ∈ es) : es.lookup key = some v := by
  induction es with
  | nil => cases hv
  | cons e es ih =>
      rw [List.map_cons, List.nodup_cons] at hnd
      rcases List.mem_cons.mp hv with rfl | hv
      · exact List.lookup_cons_self
      · have hne : key ≠ e.1 := by
          rintro rfl
          exact hnd.1 (List.mem_map.mpr ⟨_, hv, rfl⟩)
        rw [List.lookup_cons, beq_eq_false_iff_ne.mpr hne]
        exact ih hnd.2 hv

theorem get?_eq_some_iff {m : Keyed α} {key : String} {v : α} :
    m.get? key = some v ↔ (key, v) ∈ m.entries := by
  constructor
  · intro h
    rw [get?, List.lookup_eq_some_iff] at h
    obtain ⟨before, after, hsplit, -⟩ := h
    rw [hsplit]
    exact List.mem_append_right _ List.mem_cons_self
  · exact lookup_eq_some_of_mem m.nodup_keys

/-! ## Insertion -/

theorem entries_insert {m : Keyed α} {key : String} (h : key ∉ m.keys) (v : α) :
    (m.insert key v).entries = m.entries ++ [(key, v)] := by
  rw [insert, dif_neg h]

theorem entries_insert_of_mem {m : Keyed α} {key : String} (h : key ∈ m.keys) (v : α) :
    (m.insert key v).entries = replaceIn key v m.entries := by
  rw [insert, dif_pos h]

theorem mem_replaceIn {key k : String} {v w : α} {es : List (String × α)}
    (hkey : key ∈ es.map Prod.fst) :
    (k, w) ∈ replaceIn key v es ↔ (k = key ∧ w = v) ∨ (k ≠ key ∧ (k, w) ∈ es) := by
  rw [replaceIn, List.mem_map]
  constructor
  · rintro ⟨⟨k', w'⟩, he, heq⟩
    by_cases hk : k' = key
    · rw [if_pos hk, Prod.mk.injEq] at heq
      obtain ⟨rfl, rfl⟩ := heq
      exact Or.inl ⟨hk, rfl⟩
    · rw [if_neg hk, Prod.mk.injEq] at heq
      obtain ⟨rfl, rfl⟩ := heq
      exact Or.inr ⟨hk, he⟩
  · rintro (⟨rfl, rfl⟩ | ⟨hk, he⟩)
    · obtain ⟨e, he, rfl⟩ := List.mem_map.mp hkey
      exact ⟨e, he, if_pos rfl⟩
    · exact ⟨(k, w), he, if_neg hk⟩

theorem mem_entries_insert {m : Keyed α} {key k : String} {v w : α} :
    (k, w) ∈ (m.insert key v).entries ↔ (k = key ∧ w = v) ∨ (k ≠ key ∧ (k, w) ∈ m.entries) := by
  by_cases h : key ∈ m.keys
  · rw [entries_insert_of_mem h, mem_replaceIn h]
  · have hne : (k, w) ∈ m.entries → k ≠ key := by
      rintro hk rfl
      exact h (mem_keys_iff.mpr ⟨w, hk⟩)
    rw [entries_insert h, List.mem_append, List.mem_singleton, Prod.mk.injEq, or_comm,
      and_iff_right_of_imp hne]

theorem get?_insert (m : Keyed α) (key : String) (v : α) (k : String) :
    (m.insert key v).get? k = if k = key then some v else m.get? k := by
  apply Option.ext
  intro w
  rw [get?_eq_some_iff, mem_entries_insert]
  by_cases hk : k = key
  · simp [hk, eq_comm]
  · simp [hk, get?_eq_some_iff]

theorem keys_insert (m : Keyed α) (key : String) (v : α) (k : String) :
    k ∈ (m.insert key v).keys ↔ k = key ∨ k ∈ m.keys := by
  by_cases h : key ∈ m.keys
  · rw [keys, entries_insert_of_mem h, map_fst_replaceIn]
    exact ⟨Or.inr, fun hk => hk.elim (fun he => he ▸ h) id⟩
  · rw [keys, entries_insert h, List.map_append, List.mem_append, or_comm]
    simp [keys]

theorem add_eq_ok_iff {ε : Type} {m m' : Keyed α} {key : String} {v : α} {clash : α → ε} :
    m.add key v clash = .ok m' ↔ key ∉ m.keys ∧ m' = m.insert key v := by
  rw [add, ← get?_eq_none_iff]
  cases m.get? key with
  | some old => simp
  | none => simp [eq_comm]

/-! ## Lists of entries -/

theorem ofList_append_singleton (es : List (String × α)) (e : String × α) :
    ofList (es ++ [e]) = (ofList es).insert e.1 e.2 := by
  rw [ofList, List.foldl_append]
  rfl

theorem mem_keys_ofList {es : List (String × α)} {key : String} :
    key ∈ (ofList es).keys ↔ key ∈ es.map Prod.fst := by
  induction es using List.reverseRecOn with
  | nil => rfl
  | append_singleton es e ih =>
      rw [ofList_append_singleton, keys_insert, ih, List.map_append, List.mem_append, or_comm]
      simp

/-- Entries under different keys keep their order. -/
theorem entries_ofList {es : List (String × α)} (h : (es.map Prod.fst).Nodup) :
    (ofList es).entries = es := by
  induction es using List.reverseRecOn with
  | nil => rfl
  | append_singleton es e ih =>
      rw [List.map_append, List.nodup_append] at h
      have hkey : e.1 ∉ (ofList es).keys := by
        rw [mem_keys_ofList]
        intro he
        exact h.2.2 e.1 he e.1 (by simp) rfl
      rw [ofList_append_singleton, entries_insert hkey, ih h.1]

/-- Entries that follow those of a list, under different keys. -/
theorem append_entries_iff {es new : List (String × α)} {m : Keyed α}
    (hes : (es.map Prod.fst).Nodup) :
    (((ofList es).keys ++ new.map Prod.fst).Nodup ∧ m.entries = (ofList es).entries ++ new) ↔
      ((es ++ new).map Prod.fst).Nodup ∧ m = ofList (es ++ new) := by
  rw [keys, entries_ofList hes, ← List.map_append, and_congr_right_iff]
  intro h
  rw [Keyed.ext_iff, entries_ofList h]

/-- Of several values under one key the last one stays. -/
theorem get?_ofList (es : List (String × α)) (key : String) :
    (ofList es).get? key = es.reverse.lookup key := by
  induction es using List.reverseRecOn with
  | nil => rfl
  | append_singleton es e ih =>
      rw [ofList_append_singleton, get?_insert, ih, List.reverse_append, List.reverse_singleton,
        List.singleton_append]
      by_cases hk : key = e.1
      · rw [if_pos hk, hk, List.lookup_cons_self]
      · rw [if_neg hk, List.lookup_cons, beq_eq_false_iff_ne.mpr hk]

/-- Every key stands where it came first. -/
theorem keys_ofList (es : List (String × α)) : (ofList es).keys = (es.map Prod.fst).eraseDups := by
  induction es using List.reverseRecOn with
  | nil => rfl
  | append_singleton es e ih =>
      rw [ofList_append_singleton, List.map_append, List.eraseDups_append, ← ih]
      by_cases hkey : e.1 ∈ (ofList es).keys
      · have hold : e.1 ∈ es.map Prod.fst := mem_keys_ofList.mp hkey
        rw [keys, entries_insert_of_mem hkey, map_fst_replaceIn]
        simp [keys, List.removeAll, hold]
      · have hnew : e.1 ∉ es.map Prod.fst := fun h => hkey (mem_keys_ofList.mpr h)
        rw [keys, entries_insert hkey]
        simp [keys, List.removeAll, hnew, List.eraseDups_cons]

/-- The entries that no later entry of the same key replaces. -/
theorem mem_entries_ofList {es : List (String × α)} {key : String} {v : α} :
    (key, v) ∈ (ofList es).entries ↔
      ∃ before after, es = before ++ (key, v) :: after ∧ key ∉ after.map Prod.fst := by
  rw [← get?_eq_some_iff, get?_ofList, List.lookup_eq_some_iff]
  constructor
  · rintro ⟨l₁, l₂, hsplit, hkey⟩
    refine ⟨l₂.reverse, l₁.reverse, ?_, ?_⟩
    · rw [← List.reverse_reverse es, hsplit]
      simp
    · rw [List.map_reverse, List.mem_reverse, List.mem_map]
      rintro ⟨e, he, rfl⟩
      simpa using hkey e he
  · rintro ⟨before, after, rfl, hkey⟩
    refine ⟨after.reverse, before.reverse, by simp, ?_⟩
    intro e he
    rw [bne_iff_ne]
    rintro rfl
    exact hkey (List.mem_map_of_mem (List.mem_reverse.mp he))

/-! ## Entries in another order -/

/-- The same entries, in any order. -/
def SameEntries (m m' : Keyed α) : Prop := m.entries.Perm m'.entries

theorem sameEntries_ofList {es es' : List (String × α)} (h : es.Perm es')
    (hnd : (es.map Prod.fst).Nodup) : (ofList es).SameEntries (ofList es') := by
  rw [SameEntries, entries_ofList hnd, entries_ofList ((h.map _).nodup_iff.mp hnd)]
  exact h

theorem SameEntries.keys {m m' : Keyed α} (h : m.SameEntries m') :
    m.keys.Perm m'.keys :=
  h.map _

theorem SameEntries.get? {m m' : Keyed α} (h : m.SameEntries m') (key : String) :
    m.get? key = m'.get? key := by
  apply Option.ext
  intro v
  rw [get?_eq_some_iff, get?_eq_some_iff, List.Perm.mem_iff h]

/-! ## Runs of `add` -/

section Runs
variable {δ ε : Type} {allowed : δ → Prop} {key : δ → String} {value : δ → α}
  {step : Keyed α → δ → Except ε (Keyed α)}

/-- A run of steps, each of which adds an allowed element under a new key, succeeds iff all
elements are allowed and all keys are different; the new entries then follow the old ones. -/
theorem foldlM_add_eq_ok_iff
    (hstep : ∀ m d m', step m d = .ok m' ↔
      allowed d ∧ key d ∉ m.keys ∧ m' = m.insert (key d) (value d))
    (defs : List δ) (m m' : Keyed α) :
    defs.foldlM step m = .ok m' ↔ (∀ d ∈ defs, allowed d) ∧ (m.keys ++ defs.map key).Nodup ∧
      m'.entries = m.entries ++ defs.map fun d => (key d, value d) := by
  induction defs generalizing m with
  | nil =>
      rw [List.foldlM_nil, pure_eq_ok_iff, Keyed.ext_iff]
      have hnd : m.keys.Nodup := m.nodup_keys
      simp [hnd, eq_comm]
  | cons d defs ih =>
      rw [List.foldlM_cons, bind_eq_ok_iff, List.forall_mem_cons, List.map_cons, List.map_cons]
      constructor
      · rintro ⟨m₁, h₁, h⟩
        obtain ⟨hd, hkey, rfl⟩ := (hstep m d m₁).mp h₁
        obtain ⟨hdefs, hnd, hm'⟩ := (ih _).mp h
        refine ⟨⟨hd, hdefs⟩, ?_, ?_⟩
        · simpa [keys, entries_insert hkey] using hnd
        · simpa [entries_insert hkey] using hm'
      · rintro ⟨⟨hd, hdefs⟩, hnd, hm'⟩
        have hkey : key d ∉ m.keys := fun hk =>
          (List.nodup_append.mp hnd).2.2 _ hk _ List.mem_cons_self rfl
        refine ⟨m.insert (key d) (value d), (hstep _ _ _).mpr ⟨hd, hkey, rfl⟩,
          (ih _).mpr ⟨hdefs, ?_, ?_⟩⟩
        · simpa [keys, entries_insert hkey] using hnd
        · simpa [entries_insert hkey] using hm'

/-- The same where every element is allowed. -/
theorem foldlM_addNew_eq_ok_iff
    (hstep : ∀ m d m', step m d = .ok m' ↔ key d ∉ m.keys ∧ m' = m.insert (key d) (value d))
    (defs : List δ) (m m' : Keyed α) :
    defs.foldlM step m = .ok m' ↔ (m.keys ++ defs.map key).Nodup ∧
      m'.entries = m.entries ++ defs.map fun d => (key d, value d) := by
  have hrun := @foldlM_add_eq_ok_iff _ _ _ (fun _ => True) key value step
    (fun m d m' => by rw [hstep, true_and]) defs m m'
  rw [hrun, and_iff_right fun _ _ => trivial]

end Runs

/-! ## Values under their names -/

/-- The keys are the names of the values, which are pairwise different. -/
def IndexedBy (name : α → String) (m : Keyed α) : Prop :=
  m.keys = m.values.map name ∧ (m.values.map name).Nodup

theorem indexedBy_iff {name : α → String} {m : Keyed α} :
    m.IndexedBy name ↔ ∀ e ∈ m.entries, e.1 = name e.2 := by
  have hkeys : m.keys = m.values.map name ↔ ∀ e ∈ m.entries, e.1 = name e.2 := by
    rw [keys, values, List.map_map, List.map_inj_left]
    rfl
  rw [IndexedBy, hkeys, and_iff_left_iff_imp]
  intro h
  rw [← hkeys.mpr h]
  exact m.nodup_keys

theorem IndexedBy.get?_eq_some_iff {name : α → String} {m : Keyed α} (h : m.IndexedBy name)
    {key : String} {v : α} : m.get? key = some v ↔ v ∈ m.values ∧ name v = key := by
  rw [Keyed.get?_eq_some_iff, mem_values_iff]
  constructor
  · intro he
    exact ⟨⟨key, he⟩, (indexedBy_iff.mp h _ he).symm⟩
  · rintro ⟨⟨k, hk⟩, rfl⟩
    have hname : k = name v := indexedBy_iff.mp h _ hk
    rwa [← hname]

/-- Searching the values for a name is looking the name up. -/
theorem IndexedBy.find?_values {name : α → String} {m : Keyed α} (h : m.IndexedBy name)
    (key : String) : m.values.find? (fun v => name v = key) = m.get? key := by
  apply Option.ext
  intro v
  rw [h.get?_eq_some_iff]
  constructor
  · intro hv
    exact ⟨List.mem_of_find?_eq_some hv, by simpa using List.find?_some hv⟩
  · rintro ⟨hv, hname⟩
    have hsome : (m.values.find? fun v => name v = key).isSome = true := by
      rw [List.find?_isSome]
      exact ⟨v, hv, decide_eq_true hname⟩
    obtain ⟨w, hw⟩ := Option.isSome_iff_exists.mp hsome
    have hwname : name w = key := by simpa using List.find?_some hw
    have heq : w = v :=
      List.inj_on_of_nodup_map h.2 (List.mem_of_find?_eq_some hw) hv (hwname.trans hname.symm)
    rw [← heq]
    exact hw

theorem indexedBy_ofList (name : α → String) (vs : List α) :
    (ofList (vs.map fun v => (name v, v))).IndexedBy name := by
  rw [indexedBy_iff]
  rintro ⟨key, v⟩ he
  obtain ⟨before, after, hsplit, -⟩ := mem_entries_ofList.mp he
  have hmem : (key, v) ∈ vs.map fun v => (name v, v) := by
    rw [hsplit]
    exact List.mem_append_right _ List.mem_cons_self
  obtain ⟨w, -, hw⟩ := List.mem_map.mp hmem
  obtain ⟨rfl, rfl⟩ := Prod.mk.inj hw
  rfl

end Keyed

end SchemaHint
