import Mathlib.Data.Nat.Digits.Defs
import SchemaHint.Proofs.Chain.RoundTrip

/-!
# The grammar of chain texts

What a text has to look like to be read as a chain, and what is told of a text that does not, said
without the functions that take texts apart.

* `Text.Divides`, `Text.Trims`, `Text.WordNumeral` : the texts between separators, a text without the
  blanks around it, and the numerals of 64-bit words;
* `State.Parts`, `State.Spelled` : the parts of a state's text, and the state that they spell;
* `Fault` : what is wrong with a segment that spells no state;
* `parseSegments_eq_ok_iff`, `parseSegments_eq_error_iff` : segments are read one after the other, up
  to the first with a fault;
* `parse_eq_ok_iff`, `parse_eq_error_iff`, `parse_iff_grammar` : a text is read as the grammar says,
  and the leftmost fault is told.
-/

namespace SchemaHint

set_option autoImplicit false

/-! ## Texts taken apart -/

namespace Text

variable {sep : Char} {cs t : List Char}

/-- The texts between the occurrences of a separator. -/
structure Divides (sep : Char) (cs : List Char) (parts : List (List Char)) : Prop where
  ne_nil : parts ≠ []
  joined : List.intercalate [sep] parts = cs
  free : ∀ part ∈ parts, sep ∉ part

theorem divides_iff {parts : List (List Char)} : Divides sep cs parts ↔ pieces sep cs = parts := by
  rw [pieces_eq_splitOn]
  constructor
  · rintro ⟨hne, rfl, hfree⟩
    exact List.splitOn_intercalate sep hfree hne
  · rintro rfl
    rw [← pieces_eq_splitOn]
    refine ⟨pieces_ne_nil sep cs, ?_, fun part hpart => not_mem_of_mem_pieces hpart⟩
    rw [pieces_eq_splitOn]
    exact List.intercalate_splitOn sep

/-- A text is another one without the blanks at its two ends. -/
structure Trims (cs t : List Char) : Prop where
  padded : ∃ before after, cs = before ++ t ++ after ∧ (∀ c ∈ before, isBlank c = true) ∧
    ∀ c ∈ after, isBlank c = true
  starts_full : ∀ c ∈ t.head?, isBlank c = false
  ends_full : ∀ c ∈ t.getLast?, isBlank c = false

theorem exists_padding_trim (cs : List Char) :
    ∃ before after, cs = before ++ trim cs ++ after ∧ (∀ c ∈ before, isBlank c = true) ∧
      ∀ c ∈ after, isBlank c = true := by
  refine ⟨cs.takeWhile isBlank, (trimStart cs).rtakeWhile isBlank, ?_, ?_, ?_⟩
  · rw [trim, trimEnd_eq_rdropWhile, List.append_assoc, List.rdropWhile_append_rtakeWhile, trimStart,
      List.takeWhile_append_dropWhile]
  · exact fun c hc => List.mem_takeWhile_imp hc
  · exact fun c hc => List.mem_rtakeWhile_imp hc

theorem head?_trim (cs : List Char) : ∀ c ∈ (trim cs).head?, isBlank c = false := by
  intro c hc
  obtain ⟨rest, hrest⟩ := List.rdropWhile_prefix isBlank (trimStart cs)
  have hhead : (cs.dropWhile isBlank).head? = some c := by
    show (trimStart cs).head? = some c
    rw [← hrest, List.head?_append, ← trimEnd_eq_rdropWhile]
    show (trim cs).head?.or rest.head? = some c
    rw [Option.mem_def.mp hc, Option.some_or]
  have hnot := List.head?_dropWhile_not isBlank cs
  rw [hhead] at hnot
  exact hnot

theorem trims_iff : Trims cs t ↔ trim cs = t := by
  constructor
  · rintro ⟨⟨before, after, rfl, hbefore, hafter⟩, hstart, hend⟩
    rw [trim_padded hbefore hafter hstart, trimEnd_eq_self_iff]
    exact hend
  · rintro rfl
    exact ⟨exists_padding_trim cs, head?_trim cs, endsFull_trimEnd (trimStart cs)⟩

/-- A numeral of a 64-bit word: decimal digits, at least one, that may follow one plus sign. -/
inductive WordNumeral : List Char → Nat → Prop
  | intro {sign ds : List Char} (hsign : sign = [] ∨ sign = ['+']) (hne : ds ≠ [])
      (hdigits : ∀ d ∈ ds, '0' ≤ d ∧ d ≤ '9')
      (hlt : Nat.ofDigits 10 (ds.reverse.map fun d => d.toNat - '0'.toNat) < 2 ^ 64) :
      WordNumeral (sign ++ ds) (Nat.ofDigits 10 (ds.reverse.map fun d => d.toNat - '0'.toNat))

theorem valueOfDigits_eq (ds : List Char) :
    valueOfDigits ds = Nat.ofDigits 10 (ds.reverse.map fun d => d.toNat - '0'.toNat) := by
  rw [Nat.ofDigits_eq_foldr, List.foldr_map, List.foldr_reverse, valueOfDigits]
  congr 1
  funext n d
  rw [Nat.cast_id, Nat.add_comm]

theorem isDigit_iff {c : Char} : c.isDigit = true ↔ '0' ≤ c ∧ c ≤ '9' := by
  rw [Char.isDigit_iff_toNat]
  exact Iff.rfl

theorem natural?_eq_some_iff {n : Nat} :
    natural? cs = some n ↔ cs ≠ [] ∧ (∀ d ∈ cs, '0' ≤ d ∧ d ≤ '9') ∧ valueOfDigits cs = n := by
  have hall : cs.all Char.isDigit = true ↔ ∀ d ∈ cs, '0' ≤ d ∧ d ≤ '9' := by
    rw [List.all_eq_true]
    exact forall₂_congr fun d _ => isDigit_iff
  rw [natural?, ← hall]
  cases cs with
  | nil => simp
  | cons c cs =>
      rw [if_neg (by simp)]
      split
      · rename_i h
        simp [h]
      · rename_i h
        simp [h]

/-- Digits are what is left of a numeral once a plus sign before them has been dropped. -/
theorem dropPlus_eq_iff {ds : List Char} (h : '+' ∉ ds) :
    dropPlus cs = ds ↔ ∃ sign, (sign = [] ∨ sign = ['+']) ∧ cs = sign ++ ds := by
  constructor
  · unfold dropPlus
    split
    · rintro rfl
      exact ⟨['+'], Or.inr rfl, rfl⟩
    · rintro rfl
      exact ⟨[], Or.inl rfl, rfl⟩
  · rintro ⟨sign, rfl | rfl, rfl⟩
    · exact dropPlus_of_not_mem h
    · rfl

theorem word?_eq_some_iff {n : Nat} : word? cs = some n ↔ WordNumeral cs n := by
  have hlimit : wordLimit = 2 ^ 64 := by decide
  have hplus : ∀ {ds : List Char}, (∀ d ∈ ds, '0' ≤ d ∧ d ≤ '9') → '+' ∉ ds :=
    fun hdigits hmem => absurd (hdigits '+' hmem).1 (by decide)
  rw [word?, Option.filter_eq_some_iff, natural?_eq_some_iff, decide_eq_true_iff, hlimit]
  constructor
  · rintro ⟨⟨hne, hdigits, rfl⟩, hlt⟩
    obtain ⟨sign, hsign, hcs⟩ := (dropPlus_eq_iff (hplus hdigits)).mp rfl
    rw [valueOfDigits_eq] at hlt ⊢
    generalize dropPlus cs = ds at *
    subst hcs
    exact .intro hsign hne hdigits hlt
  · rintro ⟨hsign, hne, hdigits, hlt⟩
    rw [(dropPlus_eq_iff (hplus hdigits)).mpr ⟨_, hsign, rfl⟩, valueOfDigits_eq]
    exact ⟨⟨hne, hdigits, rfl⟩, hlt⟩

end Text

namespace Chain

open Text (Divides Trims WordNumeral isBlank)

/-! ## Segments -/

namespace State

variable {s : State} {segment t : List Char}

/-- The texts that stand before and after the marks in the text of a state. -/
structure Parts where
  kind : List Char
  step : Option (List Char)
  name : Option (List Char)
  typeName : Option (List Char)

/-- A text is taken apart at its marks: the type name follows the first `@`, the name the first `:`
before that, and the step the first `#` before both. -/
structure Parts.Of (p : Parts) (t : List Char) : Prop where
  text : t = p.kind ++ partChars '#' p.step ++ partChars ':' p.name ++ partChars '@' p.typeName
  before_type : '@' ∉ p.kind ++ partChars '#' p.step ++ partChars ':' p.name
  before_name : ':' ∉ p.kind ++ partChars '#' p.step
  before_step : '#' ∉ p.kind

/-- The step that a part spells, which is zero if there is none. -/
inductive StepSpelled : Option (List Char) → Nat → Prop
  | absent : StepSpelled none 0
  | written {cs : List Char} {n : Nat} (h : WordNumeral cs n) : StepSpelled (some cs) n

/-- The name or type name that a part spells: an empty part is as good as none. -/
inductive NameSpelled : Option (List Char) → Option String → Prop
  | absent : NameSpelled none none
  | empty : NameSpelled (some []) none
  | written {cs : List Char} (h : cs ≠ []) : NameSpelled (some cs) (some (String.ofList cs))

/-- A segment spells a state: without the blanks around it, it is the name of the kind with the
parts of the state after it. -/
inductive Spelled (segment : List Char) (s : State) : Prop
  | intro {t : List Char} {p : Parts} (htrim : Trims segment t) (hparts : p.Of t)
      (hkind : p.kind = s.kind.name.toList) (hstep : StepSpelled p.step s.step)
      (hname : NameSpelled p.name s.name) (htype : NameSpelled p.typeName s.typeName)

theorem stepSpelled_iff {step : Option (List Char)} {n : Nat} :
    StepSpelled step n ↔ step? step = some n := by
  cases step with
  | none =>
      rw [step?, Option.some.injEq, eq_comm]
      constructor
      · rintro ⟨⟩
        rfl
      · rintro rfl
        exact .absent
  | some cs =>
      rw [step?, Text.word?_eq_some_iff]
      constructor
      · rintro ⟨⟩
        assumption
      · exact .written

theorem nameSpelled_iff {part : Option (List Char)} {name : Option String} :
    NameSpelled part name ↔ name = partOf? part := by
  constructor
  · rintro (_ | _ | h)
    · rfl
    · rfl
    · rw [partOf?, if_neg (by simpa using h)]
  · rintro rfl
    cases part with
    | none => exact .absent
    | some cs =>
        cases cs with
        | nil => exact .empty
        | cons c cs => exact .written (List.cons_ne_nil c cs)

theorem spelled_iff : Spelled segment s ↔ parseChars segment = .ok s := by
  rw [parseChars_eq_ok_iff]
  constructor
  · rintro ⟨htrim, hparts, hkind, hstep, hname, htype⟩
    obtain rfl := Text.trims_iff.mp htrim
    rw [← hkind]
    exact ⟨_, _, _, hparts.text, hparts.before_name, hparts.before_type, stepSpelled_iff.mp hstep,
      nameSpelled_iff.mp hname, nameSpelled_iff.mp htype⟩
  · rintro ⟨step, name, typeName, htext, hbefore₂, hbefore₁, hstep, hname, htype⟩
    have hbefore₃ : '#' ∉ s.kind.name.toList := by
      intro hmem
      exact absurd (Kind.isAlpha_of_mem_name hmem) (by decide)
    have hparts : Parts.Of ⟨s.kind.name.toList, step, name, typeName⟩ (Text.trim segment) :=
      ⟨htext, hbefore₁, hbefore₂, hbefore₃⟩
    exact .intro (Text.trims_iff.mpr rfl) hparts rfl (stepSpelled_iff.mpr hstep)
      (nameSpelled_iff.mpr hname) (nameSpelled_iff.mpr htype)

theorem Spelled.exists_not_blank (h : Spelled segment s) : ∃ c ∈ segment, isBlank c = false := by
  obtain ⟨htrim, hparts, hkind, -, -, -⟩ := h
  obtain rfl := Text.trims_iff.mp htrim
  obtain ⟨c, cs, hcons⟩ := List.exists_cons_of_ne_nil s.kind.name_ne_nil
  have halpha : c.isAlpha = true := Kind.isAlpha_of_mem_name (hcons ▸ List.mem_cons_self)
  refine ⟨c, Text.mem_of_mem_trim ?_, Text.isBlank_of_isAlphanum ?_⟩
  · rw [hparts.text, hkind, hcons]
    simp
  · rw [Char.isAlphanum, halpha, Bool.true_or]

/-- Every text can be taken apart. -/
theorem exists_parts (t : List Char) : ∃ p : Parts, p.Of t := by
  rcases hcut₁ : Text.cut '@' t with ⟨front₁, typeName⟩
  rcases hcut₂ : Text.cut ':' front₁ with ⟨front₂, name⟩
  rcases hcut₃ : Text.cut '#' front₂ with ⟨kind, step⟩
  obtain ⟨hmark₁, rfl⟩ := cut_eq_iff.mp hcut₁
  obtain ⟨hmark₂, rfl⟩ := cut_eq_iff.mp hcut₂
  obtain ⟨hmark₃, rfl⟩ := cut_eq_iff.mp hcut₃
  exact ⟨⟨kind, step, name, typeName⟩, rfl, hmark₁, hmark₂, hmark₃⟩

/-- What becomes of a text with the given parts. -/
theorem parseChars_of_parts {p : Parts} (h : p.Of (Text.trim segment)) :
    parseChars segment =
      match step? p.step with
      | none => .error (.invalidStep (String.ofList (Text.trim segment)))
      | some n =>
        match Kind.parse (String.ofList p.kind) with
        | .error e => .error e
        | .ok k => .ok ⟨k, n, partOf? p.name, partOf? p.typeName⟩ := by
  have hcut₁ := cut_eq_iff.mpr ⟨h.before_type, h.text⟩
  have hcut₂ := cut_eq_iff.mpr ⟨h.before_name, @rfl _ (_ ++ partChars ':' p.name)⟩
  have hcut₃ := cut_eq_iff.mpr ⟨h.before_step, @rfl _ (_ ++ partChars '#' p.step)⟩
  cases hstep : step? p.step with
  | none => simp only [parseChars, hcut₁, hcut₂, hcut₃, hstep]
  | some n =>
      cases hkind : Kind.parse (String.ofList p.kind) with
      | error e => simp only [parseChars, hcut₁, hcut₂, hcut₃, hstep, hkind]
      | ok k => simp only [parseChars, hcut₁, hcut₂, hcut₃, hstep, hkind]

end State

theorem Kind.parse_eq_error_iff {t : String} {e : ParseError} :
    Kind.parse t = .error e ↔ (∀ k : Kind, k.name ≠ t) ∧ e = .unknownKind t := by
  have hunknown : ∀ e, Kind.parse t = .error e → e = .unknownKind t := by
    intro e h
    unfold Kind.parse at h
    split at h
    · cases h
    · exact (Except.error.inj h).symm
  constructor
  · intro h
    refine ⟨fun k hk => ?_, hunknown e h⟩
    rw [Kind.parse_eq_ok_iff.mpr hk.symm] at h
    cases h
  · rintro ⟨hnone, rfl⟩
    cases h : Kind.parse t with
    | ok k => exact absurd (Kind.parse_eq_ok_iff.mp h).symm (hnone k)
    | error e => rw [hunknown e h]

/-- What is wrong with the segment at an index: it is blank, or its step is no word, or else it starts
with no name of a kind. -/
inductive Fault (index : Nat) (segment : List Char) : ParseError → Prop
  | blank (h : ∀ c ∈ segment, isBlank c = true) : Fault index segment (.emptySegment index)
  | badStep {t cs : List Char} {p : State.Parts} (hfull : ∃ c ∈ segment, isBlank c = false)
      (htrim : Trims segment t) (hparts : p.Of t) (hstep : p.step = some cs)
      (hbad : ∀ n, ¬ WordNumeral cs n) : Fault index segment (.invalidStep (String.ofList t))
  | badKind {t : List Char} {p : State.Parts} {n : Nat} (hfull : ∃ c ∈ segment, isBlank c = false)
      (htrim : Trims segment t) (hparts : p.Of t) (hstep : State.StepSpelled p.step n)
      (hbad : ∀ k : Kind, k.name.toList ≠ p.kind) :
      Fault index segment (.unknownKind (String.ofList p.kind))

theorem step?_eq_none_iff {step : Option (List Char)} :
    State.step? step = none ↔ ∃ cs, step = some cs ∧ ∀ n, ¬ WordNumeral cs n := by
  cases step with
  | none => simp [State.step?]
  | some cs =>
      simp only [State.step?, Option.eq_none_iff_forall_ne_some, ne_eq, Text.word?_eq_some_iff,
        Option.some.injEq, exists_eq_left']

theorem isBlankText_eq_false_iff {cs : List Char} :
    Text.isBlankText cs = false ↔ ∃ c ∈ cs, isBlank c = false := by
  simp [Text.isBlankText]

section Segments
variable {index : Nat} {segment : List Char} {segments : List (List Char)} {e : ParseError}

theorem fault_of_parseChars_eq_error (hfull : ∃ c ∈ segment, isBlank c = false)
    (h : State.parseChars segment = .error e) : Fault index segment e := by
  obtain ⟨p, hp⟩ := State.exists_parts (Text.trim segment)
  rw [State.parseChars_of_parts hp] at h
  cases hstep : State.step? p.step with
  | none =>
      rw [hstep] at h
      cases h
      obtain ⟨cs, hcs, hbad⟩ := step?_eq_none_iff.mp hstep
      exact .badStep hfull (Text.trims_iff.mpr rfl) hp hcs hbad
  | some n =>
      rw [hstep] at h
      dsimp only at h
      cases hkind : Kind.parse (String.ofList p.kind) with
      | ok k =>
          rw [hkind] at h
          cases h
      | error e =>
          rw [hkind] at h
          cases h
          obtain ⟨hbad, rfl⟩ := Kind.parse_eq_error_iff.mp hkind
          refine .badKind hfull (Text.trims_iff.mpr rfl) hp (State.stepSpelled_iff.mpr hstep) ?_
          intro k hk
          exact hbad k (by rw [← hk, String.ofList_toList])

/-- A segment spells a state or has a fault. -/
theorem spelled_or_fault (index : Nat) (segment : List Char) :
    (∃ s, State.Spelled segment s) ∨ ∃ e, Fault index segment e := by
  cases hblank : Text.isBlankText segment with
  | true => exact Or.inr ⟨_, .blank (List.all_eq_true.mp hblank)⟩
  | false =>
      cases h : State.parseChars segment with
      | ok s => exact Or.inl ⟨s, State.spelled_iff.mpr h⟩
      | error e =>
          exact Or.inr ⟨e, fault_of_parseChars_eq_error (isBlankText_eq_false_iff.mp hblank) h⟩

/-! ### The first of several segments -/

theorem parseSegments_cons_of_spelled {s : State} (h : State.Spelled segment s) :
    parseSegments index (segment :: segments) =
      (parseSegments (index + 1) segments).map (s :: ·) := by
  rw [parseSegments, isBlankText_eq_false_iff.mpr h.exists_not_blank, State.spelled_iff.mp h]
  cases parseSegments (index + 1) segments with
  | ok c => rfl
  | error e => rfl

theorem parseSegments_cons_of_fault (h : Fault index segment e) :
    parseSegments index (segment :: segments) = .error e := by
  cases h with
  | blank h => exact if_pos (List.all_eq_true.mpr h)
  | badStep hfull htrim hparts hstep hbad =>
      obtain rfl := Text.trims_iff.mp htrim
      rw [parseSegments, isBlankText_eq_false_iff.mpr hfull, State.parseChars_of_parts hparts,
        step?_eq_none_iff.mpr ⟨_, hstep, hbad⟩]
      rfl
  | @badKind _ p n hfull htrim hparts hstep hbad =>
      obtain rfl := Text.trims_iff.mp htrim
      have hkind : Kind.parse (String.ofList p.kind) =
          .error (.unknownKind (String.ofList p.kind)) := by
        refine Kind.parse_eq_error_iff.mpr ⟨fun k hk => hbad k ?_, rfl⟩
        rw [hk, String.toList_ofList]
      rw [parseSegments, isBlankText_eq_false_iff.mpr hfull, State.parseChars_of_parts hparts,
        State.stepSpelled_iff.mp hstep, hkind]
      rfl

end Segments

/-! ## Chains -/

/-- Segments are read if each of them spells a state. -/
theorem parseSegments_eq_ok_iff {index : Nat} {segments : List (List Char)} {c : Chain} :
    parseSegments index segments = .ok c ↔ List.Forall₂ State.Spelled segments c := by
  constructor
  · intro h
    induction segments generalizing index c with
    | nil =>
        cases h
        exact .nil
    | cons segment segments ih =>
        rcases spelled_or_fault index segment with ⟨s, hs⟩ | ⟨e, he⟩
        · rw [parseSegments_cons_of_spelled hs] at h
          cases hc : parseSegments (index + 1) segments with
          | error e =>
              rw [hc] at h
              cases h
          | ok c =>
              rw [hc] at h
              cases h
              exact .cons hs (ih hc)
        · rw [parseSegments_cons_of_fault he] at h
          cases h
  · intro h
    induction h generalizing index with
    | nil => rfl
    | cons hs _ ih =>
        rw [parseSegments_cons_of_spelled hs, ih]
        rfl

/-- Segments are not read if one of them has a fault, and the first such fault is told. -/
theorem parseSegments_eq_error_iff {index : Nat} {segments : List (List Char)} {e : ParseError} :
    parseSegments index segments = .error e ↔
      ∃ front segment rest, segments = front ++ segment :: rest ∧
        (∀ p ∈ front, ∃ s, State.Spelled p s) ∧ Fault (index + front.length) segment e := by
  constructor
  · intro h
    induction segments generalizing index with
    | nil => cases h
    | cons segment segments ih =>
        rcases spelled_or_fault index segment with ⟨s, hs⟩ | ⟨e', he⟩
        · rw [parseSegments_cons_of_spelled hs] at h
          cases hc : parseSegments (index + 1) segments with
          | ok c =>
              rw [hc] at h
              cases h
          | error e' =>
              rw [hc] at h
              cases h
              obtain ⟨front, bad, rest, rfl, hfront, hbad⟩ := ih hc
              refine ⟨segment :: front, bad, rest, rfl, ?_, ?_⟩
              · exact List.forall_mem_cons.mpr ⟨⟨s, hs⟩, hfront⟩
              · rwa [List.length_cons, Nat.add_comm front.length, ← Nat.add_assoc]
        · rw [parseSegments_cons_of_fault he] at h
          cases h
          exact ⟨[], segment, segments, rfl, List.forall_mem_nil _, he⟩
  · rintro ⟨front, segment, rest, rfl, hfront, hbad⟩
    induction front generalizing index with
    | nil => exact parseSegments_cons_of_fault hbad
    | cons p front ih =>
        obtain ⟨⟨s, hs⟩, hfront⟩ := List.forall_mem_cons.mp hfront
        rw [List.length_cons, Nat.add_comm front.length, ← Nat.add_assoc] at hbad
        rw [List.cons_append, parseSegments_cons_of_spelled hs, ih hfront hbad]
        rfl

theorem parse_of_blank {t : String} (h : ∀ c ∈ t.toList, isBlank c = true) :
    Chain.parse t = .error .emptyChain :=
  if_pos (List.all_eq_true.mpr h)

theorem parse_of_not_blank {t : String} (h : ∃ c ∈ t.toList, isBlank c = false) :
    Chain.parse t = parseSegments 0 (Text.pieces '>' t.toList) := by
  rw [Chain.parse, parseChars, isBlankText_eq_false_iff.mpr h]
  rfl

theorem parse_eq_ok_iff {t : String} {c : Chain} :
    Chain.parse t = .ok c ↔ (∃ ch ∈ t.toList, isBlank ch = false) ∧
      ∃ segments, Divides '>' t.toList segments ∧ List.Forall₂ State.Spelled segments c := by
  constructor
  · intro h
    cases hblank : Text.isBlankText t.toList with
    | true =>
        rw [parse_of_blank (List.all_eq_true.mp hblank)] at h
        cases h
    | false =>
        have hfull := isBlankText_eq_false_iff.mp hblank
        rw [parse_of_not_blank hfull] at h
        exact ⟨hfull, _, Text.divides_iff.mpr rfl, parseSegments_eq_ok_iff.mp h⟩
  · rintro ⟨hfull, segments, hdivides, hspelled⟩
    obtain rfl := Text.divides_iff.mp hdivides
    rw [parse_of_not_blank hfull]
    exact parseSegments_eq_ok_iff.mpr hspelled

theorem parse_eq_error_iff {t : String} {e : ParseError} :
    Chain.parse t = .error e ↔ ((∀ c ∈ t.toList, isBlank c = true) ∧ e = .emptyChain) ∨
      ((∃ c ∈ t.toList, isBlank c = false) ∧
        ∃ front segment rest, Divides '>' t.toList (front ++ segment :: rest) ∧
          (∀ p ∈ front, ∃ s, State.Spelled p s) ∧ Fault front.length segment e) := by
  constructor
  · intro h
    cases hblank : Text.isBlankText t.toList with
    | true =>
        have hall := List.all_eq_true.mp hblank
        rw [parse_of_blank hall] at h
        cases h
        exact Or.inl ⟨hall, rfl⟩
    | false =>
        have hfull := isBlankText_eq_false_iff.mp hblank
        rw [parse_of_not_blank hfull] at h
        obtain ⟨front, segment, rest, hpieces, hfront, hfault⟩ := parseSegments_eq_error_iff.mp h
        rw [Nat.zero_add] at hfault
        exact Or.inr ⟨hfull, front, segment, rest, Text.divides_iff.mpr hpieces, hfront, hfault⟩
  · rintro (⟨hall, rfl⟩ | ⟨hfull, front, segment, rest, hdivides, hfront, hfault⟩)
    · exact parse_of_blank hall
    · rw [parse_of_not_blank hfull, Text.divides_iff.mp hdivides]
      rw [← Nat.zero_add front.length] at hfault
      exact parseSegments_eq_error_iff.mpr ⟨front, segment, rest, rfl, hfront, hfault⟩

/-- A text is a chain if it is not blank and each of the segments between its `>` spells a state; of
a text that is not blank, the leftmost segment with a fault is told. -/
theorem parse_iff_grammar (t : String) :
    (Chain.parse t = .error .emptyChain ↔ ∀ c ∈ t.toList, isBlank c = true) ∧
      (∀ c, Chain.parse t = .ok c ↔ (∃ ch ∈ t.toList, isBlank ch = false) ∧
        ∃ segments, Divides '>' t.toList segments ∧ List.Forall₂ State.Spelled segments c) ∧
      (∀ e, Chain.parse t = .error e ↔ ((∀ c ∈ t.toList, isBlank c = true) ∧ e = .emptyChain) ∨
        ((∃ c ∈ t.toList, isBlank c = false) ∧
          ∃ front segment rest, Divides '>' t.toList (front ++ segment :: rest) ∧
            (∀ p ∈ front, ∃ s, State.Spelled p s) ∧ Fault front.length segment e)) := by
  refine ⟨⟨fun h => ?_, parse_of_blank⟩, fun c => parse_eq_ok_iff, fun e => parse_eq_error_iff⟩
  rcases parse_eq_error_iff.mp h with ⟨hall, -⟩ | ⟨-, front, segment, rest, -, -, hfault⟩
  · exact hall
  · cases hfault

-- the step of the second segment is told, and not the unknown kind after it
example : Chain.parse "Query > Field#18446744073709551616:a > Nothing" =
    .error (.invalidStep "Field#18446744073709551616:a") := by
  decide +kernel

end Chain

end SchemaHint
