import SchemaHint.Chain.Basic
import SchemaHint.Proofs.Chain.StateText

/-!
# Reading the text of a chain back

* `parseSegments_padded` : the text of one state in front of other segments (a step);
* `parse_text` : the text of a chain of separable states (a run over them);
* `read_of_parse` : what holds of every chain that comes from a text;
* `parse_text_eq_ok_iff` : which chains are read back as they are;
* `parse_text_of_parse` : what becomes of the chains that come from a text.
-/

namespace SchemaHint.Chain

set_option autoImplicit false

open Text (EndsFull isBlank)

/-! ## The text of a chain -/

theorem chars_cons_cons (s s' : State) (c : Chain) :
    chars (s :: s' :: c) = s.chars ++ [' '] ++ '>' :: ([' '] ++ chars (s' :: c)) := by
  simp [chars, Text.join, List.intercalate]

section Padded
variable {s : State} {before after : List Char} (hbefore : ∀ c ∈ before, isBlank c = true)
  (hafter : ∀ c ∈ after, isBlank c = true)
include hbefore hafter

theorem not_mem_padded (h : s.Separable) : '>' ∉ before ++ s.chars ++ after := by
  rw [List.mem_append, List.mem_append]
  rintro ((hmem | hmem) | hmem)
  · exact absurd (hbefore _ hmem) (by decide)
  · exact h.not_mem_chars hmem
  · exact absurd (hafter _ hmem) (by decide)

/-- The text of a state in front of other segments. -/
theorem parseSegments_padded (h : s.Separable) {index : Nat} {segments : List (List Char)}
    {c : Chain} (hc : parseSegments (index + 1) segments = .ok c) :
    parseSegments index ((before ++ s.chars ++ after) :: segments) = .ok (s.reread :: c) := by
  have hblank : Text.isBlankText (before ++ s.chars ++ after) = false := by
    obtain ⟨c, hhead, hc⟩ := s.exists_head?_chars
    apply Text.isBlankText_eq_false hc
    exact List.mem_append_left _ (List.mem_append_right _ (List.mem_of_head? hhead))
  rw [parseSegments, hblank, State.parseChars_padded h hbefore hafter, hc]
  rfl

end Padded

/-- The pieces of a chain's text are read as its states are, one after the other; blanks may stand
before the text. -/
theorem parseSegments_pieces {s : State} {c : Chain} (h : ∀ s' ∈ s :: c, s'.Separable)
    {before : List Char} (hbefore : ∀ c ∈ before, isBlank c = true) (index : Nat) :
    parseSegments index (Text.pieces '>' (before ++ chars (s :: c))) =
      .ok ((s :: c).map State.reread) := by
  -- the blank after a `>` stands before the text of the next state, hence `before`
  induction c generalizing s before index with
  | nil =>
      have hs : s.Separable := h s List.mem_cons_self
      have hnone : ∀ c ∈ ([] : List Char), isBlank c = true := List.forall_mem_nil _
      have htext : before ++ chars [s] = before ++ s.chars ++ [] := by
        simp [chars, Text.join, List.intercalate]
      rw [htext, Text.pieces_of_not_mem (not_mem_padded hbefore hnone hs)]
      exact parseSegments_padded hbefore hnone hs rfl
  | cons s' c ih =>
      have hs : s.Separable := h s List.mem_cons_self
      have hspace : ∀ c ∈ [' '], isBlank c = true := List.forall_mem_singleton.mpr rfl
      have htext : before ++ chars (s :: s' :: c) =
          (before ++ s.chars ++ [' ']) ++ '>' :: ([' '] ++ chars (s' :: c)) := by
        rw [chars_cons_cons]
        simp
      rw [htext, Text.pieces_append_cons (not_mem_padded hbefore hspace hs)]
      apply parseSegments_padded hbefore hspace hs
      exact ih (fun t ht => h t (List.mem_cons_of_mem s ht)) hspace (index + 1)

/-- A chain of separable states: its text is read as its states are. -/
theorem parse_text {c : Chain} (hne : c ≠ []) (h : ∀ s ∈ c, s.Separable) :
    Chain.parse (text c) = .ok (c.map State.reread) := by
  obtain ⟨s, c, rfl⟩ := List.exists_cons_of_ne_nil hne
  have hblank : Text.isBlankText (chars (s :: c)) = false := by
    obtain ⟨ch, hhead, hch⟩ := s.exists_head?_chars
    apply Text.isBlankText_eq_false hch
    have hmem : ch ∈ s.chars := List.mem_of_head? hhead
    cases c with
    | nil => simpa [chars, Text.join, List.intercalate] using hmem
    | cons s' c =>
        rw [chars_cons_cons, List.append_assoc]
        exact List.mem_append_left _ hmem
  rw [Chain.parse, text, String.toList_ofList, parseChars, hblank]
  exact @parseSegments_pieces s c h [] (List.forall_mem_nil _) 0

/-! ## Chains that come from a text -/

theorem read_of_parseSegments {index : Nat} {segments : List (List Char)} {c : Chain}
    (hsegments : ∀ p ∈ segments, '>' ∉ p) (h : parseSegments index segments = .ok c) :
    c.length = segments.length ∧ ∀ s ∈ c, s.Read := by
  induction segments generalizing index c with
  | nil =>
      cases h
      exact ⟨rfl, by simp⟩
  | cons p ps ih =>
      rw [parseSegments] at h
      split at h
      · cases h
      · cases hs : State.parseChars p with
        | error e =>
            rw [hs] at h
            cases h
        | ok s =>
            rw [hs] at h
            dsimp only at h
            cases hc : parseSegments (index + 1) ps with
            | error e =>
                rw [hc] at h
                cases h
            | ok states =>
                rw [hc] at h
                cases h
                rw [List.forall_mem_cons] at hsegments
                obtain ⟨hlength, hread⟩ := ih hsegments.2 hc
                rw [List.length_cons, List.length_cons, hlength, List.forall_mem_cons]
                exact ⟨rfl, State.read_of_parseChars hsegments.1 hs, hread⟩

/-- What holds of every chain that comes from a text. -/
theorem read_of_parse {t : String} {c : Chain} (h : Chain.parse t = .ok c) :
    c ≠ [] ∧ ∀ s ∈ c, s.Read := by
  rw [Chain.parse, parseChars] at h
  split at h
  · cases h
  · obtain ⟨hlength, hread⟩ := read_of_parseSegments (fun p hp => Text.not_mem_of_mem_pieces hp) h
    refine ⟨?_, hread⟩
    intro hc
    rw [hc] at hlength
    exact Text.pieces_ne_nil _ _ (List.eq_nil_of_length_eq_zero hlength.symm)

/-! ## Round trips -/

theorem map_reread_eq_self_iff {c : Chain} :
    c.map State.reread = c ↔ ∀ s ∈ c, s.reread = s := by
  have hid := @List.map_inj_left _ _ c State.reread id
  rwa [List.map_id] at hid

/-- The chains that are read back as they are. -/
theorem parse_text_eq_ok_iff (c : Chain) :
    Chain.parse c.text = .ok c ↔ c ≠ [] ∧ ∀ s ∈ c, s.Legible := by
  simp only [State.legible_iff]
  constructor
  · intro h
    obtain ⟨hne, hread⟩ := read_of_parse h
    have hseparable : ∀ s ∈ c, s.Separable := fun s hs => (hread s hs).toSeparable
    rw [parse_text hne hseparable, Except.ok.injEq, map_reread_eq_self_iff] at h
    exact ⟨hne, fun s hs => ⟨hseparable s hs, h s hs⟩⟩
  · rintro ⟨hne, hlegible⟩
    rw [parse_text hne fun s hs => (hlegible s hs).1, Except.ok.injEq, map_reread_eq_self_iff]
    exact fun s hs => (hlegible s hs).2

/-- Marks and blanks within a name or a type name are kept. -/
example :
    Chain.parse (text [⟨.query, 0, none, none⟩, ⟨.field, 3, some " a:b# c", some "T@:# x"⟩]) =
      .ok [⟨.query, 0, none, none⟩, ⟨.field, 3, some " a:b# c", some "T@:# x"⟩] := by
  decide +kernel

/-- A chain that comes from a text is read again, without the blanks that its names end in where no
type name follows; the chain read then is read as it is. -/
theorem parse_text_of_parse {t : String} {c : Chain} (h : Chain.parse t = .ok c) :
    Chain.parse c.text = .ok (c.map State.reread) ∧
      (Chain.parse c.text = .ok c ↔
        ∀ s ∈ c, s.typeName = none → ∀ n ∈ s.name, EndsFull n.toList) ∧
      Chain.parse (text (c.map State.reread)) = .ok (c.map State.reread) := by
  obtain ⟨hne, hread⟩ := read_of_parse h
  have htext : Chain.parse c.text = .ok (c.map State.reread) :=
    parse_text hne fun s hs => (hread s hs).toSeparable
  refine ⟨htext, ?_, ?_⟩
  · rw [htext, Except.ok.injEq, map_reread_eq_self_iff]
    exact forall₂_congr fun s hs => (hread s hs).reread_eq_self_iff
  · rw [parse_text (by simpa using hne), Except.ok.injEq, map_reread_eq_self_iff]
    · rw [List.forall_mem_map]
      exact fun s hs => (hread s hs).reread_reread
    · rw [List.forall_mem_map]
      exact fun s hs => (hread s hs).reread.toSeparable

/-- An empty type name is dropped, and the blank before its mark then ends the name. -/
theorem parse_text_of_parse_blank_before_mark :
    Chain.parse "Field:hero @" = .ok [⟨.field, 0, some "hero ", none⟩] ∧
      Chain.parse (text [⟨.field, 0, some "hero ", none⟩]) =
        .ok [⟨.field, 0, some "hero", none⟩] ∧
      Chain.parse (text [⟨.field, 0, some "hero", none⟩]) =
        .ok [⟨.field, 0, some "hero", none⟩] := by
  have hread : Chain.parse "Field:hero @" = .ok [⟨.field, 0, some "hero ", none⟩] := by
    decide +kernel
  obtain ⟨htext, -, hstable⟩ := parse_text_of_parse hread
  have hreread : State.reread ⟨.field, 0, some "hero ", none⟩ = ⟨.field, 0, some "hero", none⟩ := by
    decide +kernel
  rw [List.map_singleton, hreread] at htext hstable
  exact ⟨hread, htext, hstable⟩

end SchemaHint.Chain
