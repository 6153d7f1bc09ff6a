import Mathlib.Data.List.DropRight
import SchemaHint.Text.Blank
import SchemaHint.Text.Numeral
import SchemaHint.Text.Split

/-!
# Texts: cutting, trimming and numerals

* `cut_of_not_mem`, `cut_append_cons` : what stands before the first separator, and what follows it;
* `pieces_of_not_mem`, `pieces_append_cons`, `not_mem_of_mem_pieces` : the pieces between
  separators;
* `trimEnd_append_cons`, `trim_padded`, `trimEnd_eq_self_iff` : which blanks `trim` drops;
* `natural?_digits` : the digits of a number are read back;
* `word?_digits`, `lt_of_word?` : so are those of a 64-bit word, and nothing else is read.
-/

namespace SchemaHint.Text

set_option autoImplicit false

variable {sep c : Char} {cs cs' rest : List Char}

/-! ## Cutting -/

theorem cut_of_not_mem (h : sep ∉ cs) : cut sep cs = (cs, none) := by
  induction cs with
  | nil => rfl
  | cons c cs ih =>
      rw [List.mem_cons, not_or] at h
      rw [cut, if_neg (Ne.symm h.1), ih h.2]

theorem cut_append_cons (h : sep ∉ cs) : cut sep (cs ++ sep :: rest) = (cs, some rest) := by
  induction cs with
  | nil => rw [List.nil_append, cut, if_pos rfl]
  | cons c cs ih =>
      rw [List.mem_cons, not_or] at h
      rw [List.cons_append, cut, if_neg (Ne.symm h.1), ih h.2]

/-! ## Pieces -/

theorem pieces_ne_nil (sep : Char) (cs : List Char) : pieces sep cs ≠ [] := by
  cases cs with
  | nil => simp [pieces]
  | cons c cs =>
      rw [pieces]
      split
      · simp
      · split <;> simp

theorem pieces_eq_splitOn (sep : Char) (cs : List Char) : pieces sep cs = cs.splitOn sep := by
  induction cs with
  | nil => rfl
  | cons c cs ih =>
      rw [pieces, List.splitOn_cons_eq_if_modifyHead, ← ih]
      by_cases hc : c = sep
      · rw [if_pos hc, if_pos (by simpa using hc)]
      · rw [if_neg hc, if_neg (by simpa using hc)]
        cases hp : pieces sep cs with
        | nil => exact absurd hp (pieces_ne_nil sep cs)
        | cons p ps => rfl

theorem pieces_of_not_mem (h : sep ∉ cs) : pieces sep cs = [cs] := by
  rw [pieces_eq_splitOn, List.splitOn_eq_singleton h]

theorem pieces_append_cons (h : sep ∉ cs) :
    pieces sep (cs ++ sep :: rest) = cs :: pieces sep rest := by
  rw [pieces_eq_splitOn, pieces_eq_splitOn, List.splitOn_append_cons_self_of_not_mem h]

theorem not_mem_of_mem_pieces {piece : List Char} (h : piece ∈ pieces sep cs) : sep ∉ piece := by
  induction cs generalizing piece with
  | nil =>
      rw [pieces, List.mem_singleton] at h
      simp [h]
  | cons c cs ih =>
      rw [pieces] at h
      split at h
      · rcases List.mem_cons.mp h with rfl | h
        · simp
        · exact ih h
      · rename_i hc
        cases hp : pieces sep cs with
        | nil => exact absurd hp (pieces_ne_nil sep cs)
        | cons p ps =>
            rw [hp] at h
            rcases List.mem_cons.mp h with rfl | h
            · have hfirst : sep ∉ p := ih (hp ▸ List.mem_cons_self)
              rw [List.mem_cons, not_or]
              exact ⟨Ne.symm hc, hfirst⟩
            · exact ih (hp ▸ List.mem_cons_of_mem p h)

/-! ## Trimming -/

theorem trimEnd_eq_rdropWhile (cs : List Char) : trimEnd cs = cs.rdropWhile isBlank := rfl

/-- A character that is no blank keeps the blanks before it. -/
theorem trimEnd_append_cons (h : isBlank c = false) (cs rest : List Char) :
    trimEnd (cs ++ c :: rest) = cs ++ c :: trimEnd rest := by
  induction rest using List.reverseRecOn with
  | nil =>
      show (cs ++ [c]).rdropWhile isBlank = cs ++ c :: trimEnd []
      rw [List.rdropWhile_concat_neg _ _ _ (by simp [h])]
      rfl
  | append_singleton rest d ih =>
      have hassoc : cs ++ c :: (rest ++ [d]) = (cs ++ c :: rest) ++ [d] := by simp
      rw [hassoc, trimEnd_eq_rdropWhile, trimEnd_eq_rdropWhile, List.rdropWhile_concat,
        List.rdropWhile_concat]
      split
      · exact ih
      · simp

/-- The text does not end in a blank. -/
def EndsFull (cs : List Char) : Prop := ∀ c ∈ cs.getLast?, isBlank c = false

theorem trimEnd_eq_self_iff : trimEnd cs = cs ↔ EndsFull cs := by
  rw [trimEnd_eq_rdropWhile, List.rdropWhile_eq_self_iff, EndsFull]
  constructor
  · intro h c hc
    obtain ⟨hne, rfl⟩ := List.mem_getLast?_eq_getLast hc
    simpa using h hne
  · intro h hne
    rw [h _ (List.getLast_mem_getLast? hne)]
    simp

theorem endsFull_trimEnd (cs : List Char) : EndsFull (trimEnd cs) := by
  rw [← trimEnd_eq_self_iff]
  exact List.rdropWhile_idempotent isBlank cs

theorem EndsFull.of_append (h : EndsFull (cs ++ cs')) (hne : cs' ≠ []) : EndsFull cs' := by
  intro c hc
  apply h c
  rwa [List.getLast?_append_of_ne_nil _ hne]

theorem mem_of_mem_trimEnd (h : c ∈ trimEnd cs) : c ∈ cs :=
  (List.rdropWhile_prefix isBlank cs).subset h

theorem mem_of_mem_trim (h : c ∈ trim cs) : c ∈ cs :=
  (List.dropWhile_suffix isBlank).subset (mem_of_mem_trimEnd h)

/-- Blanks around a text do not matter. -/
theorem trim_padded {before after : List Char} (hbefore : ∀ c ∈ before, isBlank c = true)
    (hafter : ∀ c ∈ after, isBlank c = true) (h : ∀ c ∈ cs.head?, isBlank c = false) :
    trim (before ++ cs ++ after) = trimEnd cs := by
  have hafter' : ∀ c ∈ after.reverse, isBlank c = true := by
    intro c hc
    exact hafter c (List.mem_reverse.mp hc)
  have hend : trimEnd (cs ++ after) = trimEnd cs := by
    rw [trimEnd, List.reverse_append, List.dropWhile_append_of_pos hafter']
    rfl
  rw [trim, trimStart, List.append_assoc, List.dropWhile_append_of_pos hbefore]
  cases cs with
  | nil =>
      have hnil : after.dropWhile isBlank = [] := List.dropWhile_eq_nil_iff.mpr hafter
      rw [List.nil_append, hnil]
  | cons c cs => rw [List.cons_append, List.dropWhile_cons_of_neg (by simp [h c rfl]),
      ← List.cons_append, hend]

theorem isBlank_of_isAlphanum (h : c.isAlphanum = true) : isBlank c = false := by
  have hrange : ((65 ≤ c.toNat ∧ c.toNat ≤ 90) ∨ (97 ≤ c.toNat ∧ c.toNat ≤ 122)) ∨
      (48 ≤ c.toNat ∧ c.toNat ≤ 57) := by
    rcases (Bool.or_eq_true _ _).mp h with hletter | hdigit
    · rcases (Bool.or_eq_true _ _).mp hletter with hupper | hlower
      · exact Or.inl (Or.inl (of_decide_eq_true hupper))
      · obtain ⟨hfrom, hto⟩ := (Bool.and_eq_true _ _).mp hlower
        exact Or.inl (Or.inr ⟨of_decide_eq_true hfrom, of_decide_eq_true hto⟩)
    · exact Or.inr (Char.isDigit_iff_toNat.mp hdigit)
  simp only [isBlank, Bool.or_eq_false_iff, Bool.and_eq_false_imp, decide_eq_true_eq,
    decide_eq_false_iff_not, beq_eq_false_iff_ne]
  omega

theorem isBlankText_eq_false (h : isBlank c = false) (hc : c ∈ cs) : isBlankText cs = false := by
  rw [isBlankText, List.all_eq_false]
  exact ⟨c, hc, by simp [h]⟩

/-! ## Numerals -/

theorem isDigit_of_mem_digits {n : Nat} (h : c ∈ digits n) : c.isDigit = true :=
  Nat.isDigit_of_mem_toDigits (by decide) (by decide) h

theorem not_mem_digits {n : Nat} (h : c.isDigit = false) : c ∉ digits n := by
  intro hc
  rw [isDigit_of_mem_digits hc] at h
  cases h

theorem valueOfDigits_digits (n : Nat) : valueOfDigits (digits n) = n :=
  Nat.ofDigitChars_ten_toDigits

theorem dropPlus_of_not_mem (h : '+' ∉ cs) : dropPlus cs = cs := by
  unfold dropPlus
  split
  · simp at h
  · rfl

/-- The digits of a number are read back. -/
theorem natural?_digits (n : Nat) : natural? (digits n) = some n := by
  have hempty : (digits n).isEmpty = false := by simp [digits]
  have hall : (digits n).all Char.isDigit = true := by
    rw [List.all_eq_true]
    intro c hc
    exact isDigit_of_mem_digits hc
  rw [natural?, if_neg (by simp [hempty]), if_pos hall, valueOfDigits_digits]

/-- The digits of a word are read back. -/
theorem word?_digits {n : Nat} (h : n < wordLimit) : word? (digits n) = some n := by
  have hplus : '+' ∉ digits n := not_mem_digits (by decide)
  rw [word?, dropPlus_of_not_mem hplus, natural?_digits]
  simp [h]

theorem lt_of_word? {n : Nat} (h : word? cs = some n) : n < wordLimit := by
  rw [word?, Option.filter_eq_some_iff] at h
  simpa using h.2

end SchemaHint.Text
