import SchemaHint.Chain.State
import SchemaHint.Proofs.Text

/-!
# The text of a grammar state

A state is written without escapes, so its text can be read in another way than it was meant.

* `Kind.parse_eq_ok_iff` : kinds are known by their names;
* `State.parseChars_eq_ok_iff` : the texts that are read as a given state;
* `State.reread` : what is read where a state is written;
* `State.Separable`, `State.parseChars_padded` : a state whose parts are told apart is read as
  `State.reread` says, whatever blanks stand around its text;
* `State.Read`, `State.read_of_parseChars` : what holds of every state that comes from a text;
* `State.Legible`, `State.legible_iff` : the states that are read as they are.
-/

namespace SchemaHint.Chain

set_option autoImplicit false

open Text (EndsFull isBlank trimEnd)

/-! ## Names of kinds -/

namespace Kind

theorem isAlpha_of_mem_name {k : Kind} {c : Char} (h : c ∈ k.name.toList) : c.isAlpha = true := by
  have hall : ∀ k ∈ all, k.name.toList.all Char.isAlpha = true := by
    decide +kernel
  have hk : k ∈ all := by
    cases k <;> decide
  exact List.all_eq_true.mp (hall k hk) c h

theorem name_ne_nil (k : Kind) : k.name.toList ≠ [] := by
  cases k <;> decide +kernel

theorem parse_eq_ok_iff {t : String} {k : Kind} : Kind.parse t = .ok k ↔ t = k.name := by
  constructor
  · intro h
    unfold Kind.parse at h
    split at h
    · rename_i k' hk'
      cases h
      have hname : k.name = t := by simpa using List.find?_some hk'
      exact hname.symm
    · cases h
  · intro h
    rw [h]
    cases k <;> rfl

end Kind

namespace State

variable {s : State}

/-! ## Parts of a text -/

theorem mem_partChars_iff {mark c : Char} {part : Option (List Char)} :
    c ∈ partChars mark part ↔ ∃ cs ∈ part, c = mark ∨ c ∈ cs := by
  cases part with
  | none => simp [partChars]
  | some cs => simp [partChars]

/-- Cutting at a mark and writing a part after it are inverse to each other. -/
theorem cut_eq_iff {mark : Char} {cs front : List Char} {part : Option (List Char)} :
    Text.cut mark cs = (front, part) ↔ mark ∉ front ∧ cs = front ++ partChars mark part := by
  constructor
  · intro h
    by_cases hmem : mark ∈ cs
    · obtain ⟨front', rest, rfl, hfront⟩ := List.eq_append_cons_of_mem hmem
      rw [Text.cut_append_cons hfront] at h
      obtain ⟨rfl, rfl⟩ := Prod.mk.inj h
      exact ⟨hfront, rfl⟩
    · rw [Text.cut_of_not_mem hmem] at h
      obtain ⟨rfl, rfl⟩ := Prod.mk.inj h
      exact ⟨hmem, (List.append_nil cs).symm⟩
  · intro h
    obtain ⟨hfront, rfl⟩ := h
    cases part with
    | none =>
        rw [partChars, List.append_nil]
        exact Text.cut_of_not_mem hfront
    | some rest => exact Text.cut_append_cons hfront

/-- The texts that are read as a given state. -/
theorem parseChars_eq_ok_iff {cs : List Char} :
    parseChars cs = .ok s ↔ ∃ step name typeName,
      Text.trim cs = s.kind.name.toList ++ partChars '#' step ++ partChars ':' name ++
        partChars '@' typeName ∧
      ':' ∉ s.kind.name.toList ++ partChars '#' step ∧
      '@' ∉ s.kind.name.toList ++ partChars '#' step ++ partChars ':' name ∧
      step? step = some s.step ∧ s.name = partOf? name ∧ s.typeName = partOf? typeName := by
  constructor
  · intro h
    -- the parts are cut off from the end, each at the first of its marks
    rcases hcut₁ : Text.cut '@' (Text.trim cs) with ⟨front₁, typeName⟩
    rcases hcut₂ : Text.cut ':' front₁ with ⟨front₂, name⟩
    rcases hcut₃ : Text.cut '#' front₂ with ⟨kind, step⟩
    simp only [parseChars, hcut₁, hcut₂, hcut₃] at h
    cases hstep : step? step with
    | none =>
        rw [hstep] at h
        cases h
    | some n =>
        rw [hstep] at h
        dsimp only at h
        cases hkind : Kind.parse (String.ofList kind) with
        | error e =>
            rw [hkind] at h
            cases h
        | ok k =>
            rw [hkind] at h
            cases h
            obtain ⟨hmark₁, htrim⟩ := cut_eq_iff.mp hcut₁
            obtain ⟨hmark₂, hfront₁⟩ := cut_eq_iff.mp hcut₂
            obtain ⟨-, hfront₂⟩ := cut_eq_iff.mp hcut₃
            have hname : k.name.toList = kind := by
              rw [← Kind.parse_eq_ok_iff.mp hkind, String.toList_ofList]
            rw [hfront₂] at hmark₂ hfront₁
            rw [hfront₁] at hmark₁ htrim
            refine ⟨step, name, typeName, ?_, ?_, ?_, hstep, rfl, rfl⟩
            · rwa [hname]
            · rwa [hname]
            · rwa [hname]
  · rintro ⟨step, name, typeName, htrim, hmark₂, hmark₁, hstep, hname, htype⟩
    have hmark₃ : '#' ∉ s.kind.name.toList := by
      intro hmem
      exact absurd (Kind.isAlpha_of_mem_name hmem) (by decide)
    have hcut₁ := cut_eq_iff.mpr ⟨hmark₁, htrim⟩
    have hcut₂ := cut_eq_iff.mpr ⟨hmark₂, @rfl _ (_ ++ partChars ':' name)⟩
    have hcut₃ := cut_eq_iff.mpr ⟨hmark₃, @rfl _ (_ ++ partChars '#' step)⟩
    have hkind : Kind.parse (String.ofList s.kind.name.toList) = .ok s.kind := by
      rw [Kind.parse_eq_ok_iff, String.ofList_toList]
    simp only [parseChars, hcut₁, hcut₂, hcut₃, hstep, hkind, ← hname, ← htype]

/-! ## What is written -/

/-- The text of the step, which is left out when it is zero. -/
def stepChars (s : State) : Option (List Char) :=
  if s.step = 0 then none else some (Text.digits s.step)

/-- The text of a state up to its name. -/
def head (s : State) : List Char := s.kind.name.toList ++ partChars '#' s.stepChars

theorem chars_eq (s : State) :
    s.chars = s.head ++ partChars ':' (s.name.map String.toList) ++
      partChars '@' (s.typeName.map String.toList) := rfl

theorem step?_stepChars (h : s.step < Text.wordLimit) : step? s.stepChars = some s.step := by
  unfold stepChars
  split
  · rename_i hstep
    rw [step?, hstep]
  · exact Text.word?_digits h

theorem lt_of_step? {step : Option (List Char)} {n : Nat} (h : step? step = some n) :
    n < Text.wordLimit := by
  cases step with
  | none =>
      cases h
      decide
  | some cs => exact Text.lt_of_word? h

/-- A letter, a digit or the mark of a step. -/
def IsPlain (c : Char) : Prop := c.isAlphanum = true ∨ c = '#'

instance (c : Char) : Decidable (IsPlain c) := inferInstanceAs (Decidable (_ ∨ _))

theorem IsPlain.isBlank_eq_false {c : Char} (h : IsPlain c) : isBlank c = false := by
  rcases h with h | rfl
  · exact Text.isBlank_of_isAlphanum h
  · decide

theorem isPlain_of_mem_head {c : Char} (h : c ∈ s.head) : IsPlain c := by
  rw [head, List.mem_append, mem_partChars_iff] at h
  rcases h with h | ⟨cs, hcs, rfl | hc⟩
  · left
    rw [Char.isAlphanum, Kind.isAlpha_of_mem_name h, Bool.true_or]
  · right
    rfl
  · left
    have hdigits : cs = Text.digits s.step := by
      unfold stepChars at hcs
      split at hcs
      · cases hcs
      · exact (Option.some.inj hcs).symm
    rw [hdigits] at hc
    rw [Char.isAlphanum, Text.isDigit_of_mem_digits hc, Bool.or_true]

theorem not_mem_head {mark : Char} (h : ¬ IsPlain mark) : mark ∉ s.head :=
  fun hmem => h (isPlain_of_mem_head hmem)

theorem endsFull_head (s : State) : EndsFull s.head := by
  intro c hc
  exact (isPlain_of_mem_head (List.mem_of_getLast? hc)).isBlank_eq_false

/-- The text of a state starts with its kind, so not with a blank. -/
theorem exists_head?_chars (s : State) : ∃ c, s.chars.head? = some c ∧ isBlank c = false := by
  obtain ⟨c, cs, hname⟩ := List.exists_cons_of_ne_nil s.kind.name_ne_nil
  have hc : c ∈ s.head := by
    rw [head, hname]
    exact List.mem_cons_self
  refine ⟨c, ?_, (isPlain_of_mem_head hc).isBlank_eq_false⟩
  rw [chars, hname]
  rfl

/-! ## What is read -/

/-- The name and the type name as they are read: the blanks at the end of the text are dropped. -/
def partsRead (s : State) : Option (List Char) × Option (List Char) :=
  match s.typeName with
  | none => (s.name.map fun n => trimEnd n.toList, none)
  | some t => (s.name.map String.toList, some (trimEnd t.toList))

/-- The state that is read where a state is written: blanks at the end of its text are dropped, and
so is a part of which nothing is left. -/
def reread (s : State) : State :=
  { s with name := partOf? s.partsRead.1, typeName := partOf? s.partsRead.2 }

/-- The marks in the text of a state are those between its parts, and its step is a word. -/
structure Separable (s : State) : Prop where
  step_lt : s.step < Text.wordLimit
  name_marks : ∀ n ∈ s.name, '@' ∉ n.toList ∧ '>' ∉ n.toList
  typeName_marks : ∀ t ∈ s.typeName, '>' ∉ t.toList

theorem trimEnd_chars (s : State) :
    trimEnd s.chars = s.head ++ partChars ':' s.partsRead.1 ++ partChars '@' s.partsRead.2 := by
  -- only the last part that is there can lose blanks; the head ends in none
  rw [chars_eq, partsRead]
  cases s.typeName with
  | some t => exact Text.trimEnd_append_cons (by decide) _ t.toList
  | none =>
      rw [Option.map_none, partChars, List.append_nil, List.append_nil]
      cases s.name with
      | some n => exact Text.trimEnd_append_cons (by decide) _ n.toList
      | none =>
          rw [Option.map_none, Option.map_none, partChars, List.append_nil,
            Text.trimEnd_eq_self_iff]
          exact s.endsFull_head

theorem mem_of_mem_partsRead {c : Char} {cs : List Char} (hcs : cs ∈ s.partsRead.1) (hc : c ∈ cs) :
    ∃ n ∈ s.name, c ∈ n.toList := by
  unfold partsRead at hcs
  split at hcs
  · obtain ⟨n, hn, rfl⟩ := Option.map_eq_some_iff.mp hcs
    exact ⟨n, hn, Text.mem_of_mem_trimEnd hc⟩
  · obtain ⟨n, hn, rfl⟩ := Option.map_eq_some_iff.mp hcs
    exact ⟨n, hn, hc⟩

/-- One state: its text is read as `reread` says, whatever blanks stand around it. -/
theorem parseChars_padded (h : s.Separable) {before after : List Char}
    (hbefore : ∀ c ∈ before, isBlank c = true) (hafter : ∀ c ∈ after, isBlank c = true) :
    parseChars (before ++ s.chars ++ after) = .ok s.reread := by
  have hfirst : ∀ c ∈ s.chars.head?, isBlank c = false := by
    obtain ⟨c, hhead, hc⟩ := s.exists_head?_chars
    rw [hhead]
    intro d hd
    cases hd
    exact hc
  have hname : '@' ∉ s.head ++ partChars ':' s.partsRead.1 := by
    rw [List.mem_append, mem_partChars_iff]
    rintro (hmem | ⟨cs, hcs, heq | hc⟩)
    · exact not_mem_head (by decide) hmem
    · cases heq
    · obtain ⟨n, hn, hmem⟩ := mem_of_mem_partsRead hcs hc
      exact (h.name_marks n hn).1 hmem
  rw [parseChars_eq_ok_iff]
  refine ⟨s.stepChars, s.partsRead.1, s.partsRead.2, ?_, not_mem_head (by decide), hname,
    step?_stepChars h.step_lt, rfl, rfl⟩
  rw [Text.trim_padded hbefore hafter hfirst, trimEnd_chars]
  rfl

/-! ## States that are read as they are -/

theorem partOf?_eq_some_iff {part : Option (List Char)} {x : String} :
    partOf? part = some x ↔ part = some x.toList ∧ x ≠ "" := by
  cases part with
  | none => simp [partOf?]
  | some cs =>
      rw [partOf?, Option.some.injEq]
      constructor
      · intro h
        split at h
        · cases h
        · rename_i hne
          cases h
          rw [String.toList_ofList]
          exact ⟨rfl, by simpa using hne⟩
      · intro h
        obtain ⟨rfl, hne⟩ := h
        rw [if_neg (by simpa using hne), String.ofList_toList]

theorem partOf?_map_toList_eq_self_iff {x : Option String} :
    partOf? (x.map String.toList) = x ↔ ∀ n ∈ x, n ≠ "" := by
  cases x with
  | none => simp [partOf?]
  | some n =>
      rw [partOf?_eq_some_iff]
      simp

theorem partOf?_trimEnd_eq_some_iff {x : String} :
    partOf? (some (trimEnd x.toList)) = some x ↔ x ≠ "" ∧ EndsFull x.toList := by
  rw [partOf?_eq_some_iff, Option.some.injEq, Text.trimEnd_eq_self_iff, and_comm]

theorem reread_eq_self_iff : s.reread = s ↔
    (∀ n ∈ s.name, n ≠ "") ∧ (∀ t ∈ s.typeName, t ≠ "") ∧
      ∀ x ∈ s.typeName.or s.name, EndsFull x.toList := by
  have hparts : s.reread = s ↔
      partOf? s.partsRead.1 = s.name ∧ partOf? s.partsRead.2 = s.typeName := by
    cases s
    simp [reread]
  rw [hparts, partsRead]
  cases s.typeName with
  | some t =>
      rw [partOf?_map_toList_eq_self_iff, partOf?_trimEnd_eq_some_iff]
      simp
  | none =>
      cases s.name with
      | none => simp [partOf?]
      | some n =>
          rw [Option.map_some, partOf?_trimEnd_eq_some_iff]
          simp [partOf?]

/-- What holds of every state that is read from a text between two `>`. -/
structure Read (s : State) : Prop extends s.Separable where
  name_ne : ∀ n ∈ s.name, n ≠ ""
  typeName_ne : ∀ t ∈ s.typeName, t ≠ ""
  typeName_full : ∀ t ∈ s.typeName, EndsFull t.toList

theorem read_of_parseChars {cs : List Char} (hcs : '>' ∉ cs) (h : parseChars cs = .ok s) :
    s.Read := by
  obtain ⟨step, name, typeName, htrim, -, hmark, hstep, hname, htype⟩ := parseChars_eq_ok_iff.mp h
  have hmem : ∀ c ∈ partChars ':' name ++ partChars '@' typeName, c ∈ cs := by
    intro c hc
    apply Text.mem_of_mem_trim
    rw [htrim, List.append_assoc]
    exact List.mem_append_right _ hc
  have hnames : ∀ n ∈ s.name, name = some n.toList ∧ n ≠ "" := by
    intro n hn
    rw [hname] at hn
    exact partOf?_eq_some_iff.mp hn
  have htypes : ∀ t ∈ s.typeName, typeName = some t.toList ∧ t ≠ "" := by
    intro t ht
    rw [htype] at ht
    exact partOf?_eq_some_iff.mp ht
  refine ⟨⟨lt_of_step? hstep, ?_, ?_⟩, fun n hn => (hnames n hn).2, fun t ht => (htypes t ht).2, ?_⟩
  · intro n hn
    have hpart : ∀ c ∈ n.toList, c ∈ partChars ':' name := by
      intro c hc
      exact mem_partChars_iff.mpr ⟨n.toList, (hnames n hn).1, Or.inr hc⟩
    exact ⟨fun hc => hmark (List.mem_append_right _ (hpart _ hc)),
      fun hc => hcs (hmem _ (List.mem_append_left _ (hpart _ hc)))⟩
  · intro t ht hc
    have hpart : '>' ∈ partChars '@' typeName :=
      mem_partChars_iff.mpr ⟨t.toList, (htypes t ht).1, Or.inr hc⟩
    exact hcs (hmem _ (List.mem_append_right _ hpart))
  · -- the type name is the end of a text without blanks at its end
    intro t ht
    have hfull : EndsFull (Text.trim cs) := Text.endsFull_trimEnd _
    rw [htrim, (htypes t ht).1, partChars, List.append_cons] at hfull
    exact hfull.of_append (by simpa using (htypes t ht).2)

theorem Read.reread_eq_self_iff (h : s.Read) :
    s.reread = s ↔ (s.typeName = none → ∀ n ∈ s.name, EndsFull n.toList) := by
  have hfull := h.typeName_full
  rw [State.reread_eq_self_iff, and_iff_right h.name_ne, and_iff_right h.typeName_ne]
  cases htype : s.typeName with
  | none => simp
  | some t =>
      rw [htype] at hfull
      simpa using hfull t rfl

theorem mem_name_reread {x : String} (hx : x ∈ s.reread.name) :
    x ≠ "" ∧ (∀ c ∈ x.toList, ∃ n ∈ s.name, c ∈ n.toList) ∧
      (s.typeName = none → EndsFull x.toList) := by
  obtain ⟨hpart, hne⟩ := partOf?_eq_some_iff.mp hx
  refine ⟨hne, fun c hc => mem_of_mem_partsRead hpart hc, fun htype => ?_⟩
  rw [partsRead, htype] at hpart
  obtain ⟨n, -, hn⟩ := Option.map_eq_some_iff.mp hpart
  rw [← hn]
  exact Text.endsFull_trimEnd n.toList

theorem Read.typeName_reread (h : s.Read) : s.reread.typeName = s.typeName := by
  show partOf? s.partsRead.2 = s.typeName
  rw [partsRead]
  cases htype : s.typeName with
  | none => rfl
  | some t => exact partOf?_trimEnd_eq_some_iff.mpr ⟨h.typeName_ne t htype, h.typeName_full t htype⟩

theorem Read.reread (h : s.Read) : s.reread.Read := by
  refine ⟨⟨h.step_lt, ?_, ?_⟩, fun x hx => (mem_name_reread hx).1, ?_, ?_⟩
  · intro x hx
    obtain ⟨-, hmem, -⟩ := mem_name_reread hx
    constructor
    · intro hc
      obtain ⟨n, hn, hc⟩ := hmem _ hc
      exact (h.name_marks n hn).1 hc
    · intro hc
      obtain ⟨n, hn, hc⟩ := hmem _ hc
      exact (h.name_marks n hn).2 hc
  · rw [h.typeName_reread]
    exact h.typeName_marks
  · rw [h.typeName_reread]
    exact h.typeName_ne
  · rw [h.typeName_reread]
    exact h.typeName_full

/-- What is read a second time is read as it is. -/
theorem Read.reread_reread (h : s.Read) : s.reread.reread = s.reread := by
  rw [h.reread.reread_eq_self_iff, h.typeName_reread]
  intro htype x hx
  exact (mem_name_reread hx).2.2 htype

/-- A state whose text tells its parts apart and loses none of them. -/
structure Legible (s : State) : Prop where
  step_lt : s.step < Text.wordLimit
  name : ∀ n ∈ s.name, n ≠ "" ∧ '@' ∉ n.toList ∧ '>' ∉ n.toList
  typeName : ∀ t ∈ s.typeName, t ≠ "" ∧ '>' ∉ t.toList
  /-- The last part that is there does not end in a blank. -/
  last : ∀ x ∈ s.typeName.or s.name, EndsFull x.toList

theorem legible_iff : s.Legible ↔ s.Separable ∧ s.reread = s := by
  rw [reread_eq_self_iff]
  constructor
  · intro h
    exact ⟨⟨h.step_lt, fun n hn => (h.name n hn).2, fun t ht => (h.typeName t ht).2⟩,
      fun n hn => (h.name n hn).1, fun t ht => (h.typeName t ht).1, h.last⟩
  · rintro ⟨h, hname, htype, hlast⟩
    exact ⟨h.step_lt, fun n hn => ⟨hname n hn, h.name_marks n hn⟩,
      fun t ht => ⟨htype t ht, h.typeName_marks t ht⟩, hlast⟩

theorem Separable.not_mem_chars (h : s.Separable) : '>' ∉ s.chars := by
  rw [chars_eq, List.mem_append, List.mem_append, mem_partChars_iff, mem_partChars_iff]
  rintro ((hmem | ⟨cs, hcs, heq | hc⟩) | ⟨cs, hcs, heq | hc⟩)
  · exact not_mem_head (by decide) hmem
  · cases heq
  · obtain ⟨n, hn, rfl⟩ := Option.map_eq_some_iff.mp hcs
    exact (h.name_marks n hn).2 hc
  · cases heq
  · obtain ⟨t, ht, rfl⟩ := Option.map_eq_some_iff.mp hcs
    exact h.typeName_marks t ht hc

end State

end SchemaHint.Chain
