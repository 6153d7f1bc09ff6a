import SchemaHint.Proofs.Text
import SchemaHint.Sdl.Value

/-!
# Which tokens written texts are read as

* `tokensOf` : the tokens of a text, without their positions;
* `Spells` : a text is read as the given tokens, whatever follows it, or is never read;
* `Spells.append`, `Spells.join` : texts that are put together spell their tokens one after the
  other, and one that is never read makes the whole unreadable;
* `spells_name`, `spells_int`, `spells_quoted` : what names, integers and quoted texts spell.
-/

namespace SchemaHint.Sdl

set_option autoImplicit false

/-! ## Tokens of a text -/

/-- The token of a piece. -/
def Piece.token? : Piece → Option Token
  | .token t _ => some t
  | _ => none

/-- The tokens of a text. -/
def tokensOf (cs : List Char) : Option (List Token) :=
  (scan cs).map (List.filterMap Piece.token?)

theorem map_token_locate (p : Position) (pieces : List Piece) :
    (locate p pieces).map Located.token = pieces.filterMap Piece.token? := by
  induction pieces generalizing p with
  | nil => rfl
  | cons piece pieces ih => cases piece <;> simp [locate, Piece.token?, List.filterMap_cons, ih]

theorem tokenize_eq_some_iff {cs : List Char} {tokens : List Located} :
    tokenize cs = some tokens ↔
      ∃ pieces, scan cs = some pieces ∧ tokens = locate startPosition pieces ∧
        nestsWithin 0 tokens = true := by
  unfold tokenize
  cases scan cs with
  | none => simp
  | some pieces =>
    by_cases hnests : nestsWithin 0 (locate startPosition pieces) = true
    · simp only [if_pos hnests, Option.some.injEq, exists_eq_left']
      constructor
      · rintro rfl
        exact ⟨rfl, hnests⟩
      · rintro ⟨rfl, -⟩
        rfl
    · simp only [if_neg hnests, Option.some.injEq, exists_eq_left']
      constructor
      · intro h
        cases h
      · rintro ⟨rfl, h⟩
        exact absurd h hnests

theorem tokensOf_of_tokenize {cs : List Char} {tokens : List Located}
    (h : tokenize cs = some tokens) : tokensOf cs = some (tokens.map Located.token) := by
  obtain ⟨pieces, hscan, rfl, -⟩ := tokenize_eq_some_iff.mp h
  rw [tokensOf, hscan, map_token_locate]
  rfl

theorem tokenize_of_tokensOf {cs : List Char} {ts : List Token} (h : tokensOf cs = some ts)
    (hnests : ∀ tokens : List Located, tokens.map Located.token = ts →
      nestsWithin 0 tokens = true) :
    ∃ tokens, tokenize cs = some tokens ∧ tokens.map Located.token = ts := by
  obtain ⟨pieces, hscan, hpieces⟩ := Option.map_eq_some_iff.mp h
  have hts : (locate startPosition pieces).map Located.token = ts := by
    rw [map_token_locate, hpieces]
  exact ⟨_, tokenize_eq_some_iff.mpr ⟨pieces, hscan, rfl, hnests _ hts⟩, hts⟩

section Cons
variable {c : Char} {cs rest : List Char} {piece : Piece}

theorem tokensOf_cons (h : next? c cs = some (piece, rest)) (hle : rest.length ≤ cs.length) :
    tokensOf (c :: cs) = (tokensOf rest).map (piece.token?.toList ++ ·) := by
  rw [tokensOf, scan, h]
  dsimp only
  rw [dif_pos hle, tokensOf, Option.map_map, Option.map_map]
  congr 1
  funext pieces
  cases piece <;> rfl

theorem tokensOf_cons_eq_none (h : next? c cs = none) : tokensOf (c :: cs) = none := by
  rw [tokensOf, scan, h]
  rfl

theorem tokensOf_ignored (h : isIgnored c = true) (cs : List Char) :
    tokensOf (c :: cs) = tokensOf cs := by
  have hnext : next? c cs = some (.ignored c, cs) := by
    unfold next?
    rw [if_pos h]
  rw [tokensOf_cons hnext le_rfl]
  exact Option.map_id_apply

theorem next?_punct {p : Punctuator} (h : Punctuator.ofChar? c = some p) (cs : List Char) :
    next? c cs = some (.token (.punct p) [c], cs) := by
  unfold Punctuator.ofChar? at h
  split at h <;> cases h <;> rfl

theorem tokensOf_punct {p : Punctuator} (h : Punctuator.ofChar? c = some p) (cs : List Char) :
    tokensOf (c :: cs) = (tokensOf cs).map (.punct p :: ·) :=
  tokensOf_cons (next?_punct h cs) le_rfl

end Cons

/-! ## Spelling -/

/-- The tokens of two texts in a row, if both can be read. -/
def bothTokens (a b : Option (List Token)) : Option (List Token) :=
  a.bind fun ts => b.map (ts ++ ·)

/-- The tokens of all texts in a row, if each can be read. -/
def joinTokens (tss : List (Option (List Token))) : Option (List Token) :=
  tss.foldr bothTokens (some [])

theorem bothTokens_eq_some_iff {a b : Option (List Token)} {ts : List Token} :
    bothTokens a b = some ts ↔ ∃ x y, a = some x ∧ b = some y ∧ ts = x ++ y := by
  cases a <;> cases b <;> simp [bothTokens, eq_comm]

theorem bothTokens_eq_none_iff {a b : Option (List Token)} :
    bothTokens a b = none ↔ a = none ∨ b = none := by
  cases a <;> cases b <;> simp [bothTokens]

theorem joinTokens_eq_none_iff {tss : List (Option (List Token))} :
    joinTokens tss = none ↔ none ∈ tss := by
  induction tss with
  | nil => simp [joinTokens]
  | cons ts tss ih =>
    rw [joinTokens, List.foldr_cons, bothTokens_eq_none_iff, List.mem_cons, ← ih, joinTokens, eq_comm]

theorem bothTokens_assoc (a b c : Option (List Token)) :
    bothTokens (bothTokens a b) c = bothTokens a (bothTokens b c) := by
  cases a <;> cases b <;> cases c <;> simp [bothTokens]

theorem bothTokens_nil_left (b : Option (List Token)) : bothTokens (some []) b = b := by
  cases b <;> rfl

theorem bothTokens_nil_right (a : Option (List Token)) : bothTokens a (some []) = a := by
  cases a <;> simp [bothTokens]

/-- The text is empty or starts with a character at which names and numbers end. -/
def Breaks (cs : List Char) : Prop := ∀ c ∈ cs.head?, endsNumber c = true

theorem Breaks.nil : Breaks [] := by
  intro c hc
  cases hc

theorem Breaks.cons {c : Char} (h : endsNumber c = true) (cs : List Char) : Breaks (c :: cs) := by
  intro x hx
  cases hx
  exact h

theorem Breaks.append {cs rest : List Char} (h : Breaks cs) (hrest : Breaks rest) :
    Breaks (cs ++ rest) := by
  cases cs with
  | nil => exact hrest
  | cons c cs => exact h

/-- The text is read as the given tokens before any text that breaks it off; with no tokens given, it
is never read. -/
def Spells (cs : List Char) (ts : Option (List Token)) : Prop :=
  ∀ rest, Breaks rest → tokensOf (cs ++ rest) = bothTokens ts (tokensOf rest)

namespace Spells

variable {c : Char} {cs cs' : List Char} {ts ts' : Option (List Token)}

theorem tokensOf_eq (h : Spells cs ts) : tokensOf cs = ts := by
  have hend := h [] Breaks.nil
  have hnil : tokensOf [] = some [] := by rw [tokensOf, scan]; rfl
  rwa [List.append_nil, hnil, bothTokens_nil_right] at hend

theorem nil : Spells [] (some []) := by
  intro rest _
  rw [List.nil_append, bothTokens_nil_left]

theorem append (h : Spells cs ts) (h' : Spells cs' ts') (hbreaks : Breaks cs') :
    Spells (cs ++ cs') (bothTokens ts ts') := by
  intro rest hrest
  rw [List.append_assoc, h _ (hbreaks.append hrest), h' _ hrest, bothTokens_assoc]

theorem ignored_cons (hc : isIgnored c = true) (h : Spells cs ts) : Spells (c :: cs) ts := by
  intro rest hrest
  rw [List.cons_append, tokensOf_ignored hc, h rest hrest]

theorem punct_cons {p : Punctuator} (hc : Punctuator.ofChar? c = some p) (h : Spells cs ts) :
    Spells (c :: cs) (bothTokens (some [.punct p]) ts) := by
  intro rest hrest
  rw [List.cons_append, tokensOf_punct hc, h rest hrest, bothTokens_assoc]
  rfl

/-- The tokens of texts with commas and spaces between them. -/
theorem join {texts : List (List Char)} {tss : List (Option (List Token))}
    (h : List.Forall₂ Spells texts tss) :
    Spells (Text.join [',', ' '] texts) (joinTokens tss) := by
  induction h with
  | nil => exact nil
  | @cons text ts texts tss hhead htail ih =>
    cases htail with
    | nil =>
      simp only [Text.join, List.intercalate_singleton, joinTokens, List.foldr_cons, List.foldr_nil,
        bothTokens_nil_right]
      exact hhead
    | cons =>
      rw [Text.join, List.intercalate_cons_cons, List.append_assoc]
      exact hhead.append (ignored_cons (by decide) (ignored_cons (by decide) ih))
        (Breaks.cons (by decide) _)

end Spells

/-! ## Classes of characters -/

section Classes
variable {c : Char}

/-- The characters at which numbers end. -/
theorem mem_of_endsNumber (h : endsNumber c = true) :
    c ∈ [' ', '\n', '\r', '\t', ',', '#', '(', ')', '[', ']', '\x7b', '\x7d', '!', '$', ':', '=',
      '@', '|', '&'] := by
  simp only [endsNumber, Bool.or_eq_true, decide_eq_true_eq] at h
  rcases h with (((((h | h) | h) | h) | h) | h) | h
  case inr =>
    unfold Punctuator.ofChar? at h
    split at h
    all_goals first | decide | cases h
  all_goals
    subst h
    decide

theorem isNameChar_of_endsNumber (h : endsNumber c = true) : isNameChar c = false := by
  have hnone : [' ', '\n', '\r', '\t', ',', '#', '(', ')', '[', ']', '\x7b', '\x7d', '!', '$', ':',
      '=', '@', '|', '&'].any isNameChar = false := by decide
  exact Bool.eq_false_iff.mpr (List.any_eq_false.mp hnone c (mem_of_endsNumber h))

theorem endsNumber_of_isDigit (h : c.isDigit = true) : endsNumber c = false := by
  by_contra hends
  have hname := isNameChar_of_endsNumber (Bool.not_eq_false _ ▸ hends)
  simp [isNameChar, Char.isAlphanum, h] at hname

theorem mem_of_isIgnored (h : isIgnored c = true) :
    c ∈ [' ', ',', '\t', '\n', '\r', '\uFEFF'] := by
  simp only [isIgnored, Bool.or_eq_true, decide_eq_true_eq] at h
  simp only [List.mem_cons, List.not_mem_nil, or_false]
  tauto

/-- No character is ignored that a class without the ignored ones holds. -/
theorem isIgnored_eq_false {p : Char → Bool}
    (hp : [' ', ',', '\t', '\n', '\r', '\uFEFF'].any p = false) (h : p c = true) :
    isIgnored c = false := by
  by_contra hignored
  exact List.any_eq_false.mp hp c (mem_of_isIgnored (Bool.not_eq_false _ ▸ hignored)) h

theorem isNameStart_of_isDigit (h : c.isDigit = true) : isNameStart c = false := by
  have hdigits : ∀ k < 10, isNameStart (Char.ofNat (48 + k)) = false := by decide
  obtain ⟨hlow, hhigh⟩ : 48 ≤ c.toNat ∧ c.toNat ≤ 57 := Char.isDigit_iff_toNat.mp h
  have hc := hdigits (c.toNat - 48) (by omega)
  rwa [Nat.add_sub_cancel' hlow, Char.ofNat_toNat] at hc

end Classes

/-- A row of characters of a class, before one that is not in it, is taken off whole. -/
theorem span_append {p : Char → Bool} {cs rest : List Char} (hcs : ∀ c ∈ cs, p c = true)
    (hrest : ∀ c ∈ rest.head?, p c = false) :
    (cs ++ rest).takeWhile p = cs ∧ (cs ++ rest).dropWhile p = rest := by
  rw [List.takeWhile_append_of_pos hcs, List.dropWhile_append_of_pos hcs]
  cases rest with
  | nil => simp
  | cons c rest => simp [hrest c rfl]

/-! ## Names -/

/-- A text that is read as a name. -/
def IsName (name : String) : Prop :=
  ∃ c cs, name.toList = c :: cs ∧ isNameStart c = true ∧ ∀ x ∈ cs, isNameChar x = true

theorem next?_name {c : Char} {cs rest : List Char} (hc : isNameStart c = true)
    (hcs : ∀ x ∈ cs, isNameChar x = true) (hrest : Breaks rest) :
    next? c (cs ++ rest) = some (.token (.name (String.ofList (c :: cs))) (c :: cs), rest) := by
  have hignored : isIgnored c = false := isIgnored_eq_false (by decide) hc
  have hcomment : c ≠ '#' := by
    rintro rfl
    exact absurd hc (by decide)
  obtain ⟨htake, hdrop⟩ := span_append hcs fun x hx => isNameChar_of_endsNumber (hrest x hx)
  unfold next?
  rw [if_neg (by simp [hignored]), if_neg hcomment, if_pos hc, htake, hdrop]

theorem spells_name {name : String} (h : IsName name) :
    Spells name.toList (some [.name name]) := by
  obtain ⟨c, cs, hname, hc, hcs⟩ := h
  intro rest hrest
  have hofList : String.ofList (c :: cs) = name := by rw [← hname, String.ofList_toList]
  rw [hname, List.cons_append, tokensOf_cons (next?_name hc hcs hrest) (by simp), hofList]
  rfl

/-! ## Integers -/

theorem head?_digits_ne_zero {n : Nat} (h : 0 < n) : (Text.digits n).head? ≠ some '0' := by
  induction n using Nat.strongRecOn with
  | ind n ih =>
    rw [Text.digits, Nat.toDigits_eq_if (by decide)]
    split
    · next hlt =>
      have hdigit : ∀ n < 10, 0 < n → some (Nat.digitChar n) ≠ some '0' := by decide
      exact hdigit n hlt h
    · have hne : Nat.toDigits 10 (n / 10) ≠ [] := Nat.toDigits_ne_nil
      rw [List.head?_append_of_ne_nil _ hne]
      exact ih (n / 10) (by omega) (by omega)

theorem isPlainDigits_digits (n : Nat) : isPlainDigits (Text.digits n) = true := by
  have hdigit : ∀ c ∈ Text.digits n, c.isDigit = true := fun c hc => Text.isDigit_of_mem_digits hc
  cases hds : Text.digits n with
  | nil => exact absurd hds Nat.toDigits_ne_nil
  | cons c cs =>
    rw [hds, List.forall_mem_cons] at hdigit
    cases cs with
    | nil => exact hdigit.1
    | cons d cs =>
      have hpos : 0 < n := by
        apply Nat.pos_of_ne_zero
        rintro rfl
        cases hds
      have hzero : c ≠ '0' := by
        rintro rfl
        exact head?_digits_ne_zero hpos (by rw [hds]; rfl)
      rw [isPlainDigits, hdigit.1, List.all_eq_true.mpr hdigit.2]
      · simp [hzero]
      · simp

/-- A sign that is a minus or nothing, and digits. -/
theorem intChars_eq (n : Int) :
    Value.intChars n = (if n < 0 then ['-'] else []) ++ Text.digits n.natAbs := by
  unfold Value.intChars
  split <;> rfl

theorem mem_intChars {n : Int} {c : Char} (h : c ∈ Value.intChars n) :
    c = '-' ∨ c.isDigit = true := by
  rw [intChars_eq, List.mem_append] at h
  rcases h with h | h
  · split at h
    · exact Or.inl (List.mem_singleton.mp h)
    · cases h
  · exact Or.inr (Text.isDigit_of_mem_digits h)

theorem takeSign_intChars (n : Int) :
    Binary64.takeSign (Value.intChars n) = (decide (n < 0), Text.digits n.natAbs) := by
  unfold Value.intChars
  split
  · next hneg => simp [Binary64.takeSign, hneg]
  · next hneg =>
    have hminus : ∀ cs, Text.digits n.natAbs ≠ '-' :: cs := by
      intro cs hcs
      exact Text.not_mem_digits (c := '-') (by decide) (hcs ▸ List.mem_cons_self)
    have hplus : ∀ cs, Text.digits n.natAbs ≠ '+' :: cs := by
      intro cs hcs
      exact Text.not_mem_digits (c := '+') (by decide) (hcs ▸ List.mem_cons_self)
    rw [Binary64.takeSign.eq_3 _ hminus hplus]
    simp [hneg]

theorem isPlainInteger_intChars (n : Int) : isPlainInteger (Value.intChars n) = true := by
  unfold Value.intChars
  split
  · exact isPlainDigits_digits _
  · have hminus : ∀ cs, Text.digits n.natAbs ≠ '-' :: cs := by
      intro cs hcs
      exact Text.not_mem_digits (c := '-') (by decide) (hcs ▸ List.mem_cons_self)
    rw [isPlainInteger.eq_2 _ hminus]
    exact isPlainDigits_digits _

theorem integer?_intChars (n : Int) : Binary64.integer? (Value.intChars n) = some n := by
  unfold Binary64.integer?
  rw [takeSign_intChars]
  dsimp only
  rw [Text.natural?_digits]
  show some (if decide (n < 0) = true then -(n.natAbs : Int) else n.natAbs) = some n
  rw [Option.some.injEq]
  by_cases hneg : n < 0
  · rw [if_pos (decide_eq_true hneg)]
    omega
  · rw [if_neg (by simpa using hneg)]
    omega

theorem number?_intChars {n : Int} (h : isInt64 n = true) :
    number? (Value.intChars n) = some (.int n) := by
  have hmarks : ¬ (Value.intChars n).any (fun c => c = '.' || isExponentMark c) = true := by
    rw [List.any_eq_true]
    rintro ⟨c, hc, hmark⟩
    simp only [isExponentMark, Bool.or_eq_true, decide_eq_true_eq] at hmark
    rcases mem_intChars hc with rfl | hdigit
    · exact absurd hmark (by decide)
    · rcases hmark with rfl | rfl | rfl <;> exact absurd hdigit (by decide)
  rw [number?, if_neg hmarks, if_pos (isPlainInteger_intChars n), integer?_intChars,
    Option.filter_some_pos h, Option.map_some]

theorem endsNumber_of_mem_intChars {n : Int} {c : Char} (h : c ∈ Value.intChars n) :
    endsNumber c = false := by
  rcases mem_intChars h with rfl | hdigit
  · decide
  · exact endsNumber_of_isDigit hdigit

theorem intChars_ne_nil (n : Int) : Value.intChars n ≠ [] := by
  rw [intChars_eq]
  exact List.append_ne_nil_of_right_ne_nil _ Nat.toDigits_ne_nil

theorem next?_number {c : Char} {cs rest : List Char} {t : Token}
    (hc : (c.isDigit || c = '-') = true) (hcs : ∀ x ∈ cs, endsNumber x = false)
    (hnumber : number? (c :: cs) = some t) (hrest : Breaks rest) :
    next? c (cs ++ rest) = some (.token t (c :: cs), rest) := by
  have hignored : isIgnored c = false := isIgnored_eq_false (p := fun c => c.isDigit || c = '-')
    (by decide) hc
  have hcomment : c ≠ '#' := by
    rintro rfl
    exact absurd hc (by decide)
  have hname : isNameStart c = false := by
    rw [Bool.or_eq_true] at hc
    rcases hc with hdigit | hminus
    · exact isNameStart_of_isDigit hdigit
    · rw [of_decide_eq_true hminus]
      decide
  have hspan : ∀ x ∈ rest.head?, (!endsNumber x) = false := by
    intro x hx
    rw [hrest x hx]
    rfl
  obtain ⟨htake, hdrop⟩ := @span_append (fun x => !endsNumber x) cs rest
    (fun x hx => by rw [hcs x hx]; rfl) hspan
  unfold next?
  rw [if_neg (by simp [hignored]), if_neg hcomment, if_neg (by simp [hname]), if_pos hc]
  dsimp only
  rw [htake, hdrop, hnumber, Option.map_some]

theorem spells_int {n : Int} (h : isInt64 n = true) :
    Spells (Value.intChars n) (some [.int n]) := by
  intro rest hrest
  have hnumber := number?_intChars h
  have hends := fun c => @endsNumber_of_mem_intChars n c
  have hstart := fun c => @mem_intChars n c
  cases hcs : Value.intChars n with
  | nil => exact absurd hcs (intChars_ne_nil n)
  | cons c cs =>
    rw [hcs] at hnumber hends hstart
    have hc : (c.isDigit || c = '-') = true := by
      rcases hstart c List.mem_cons_self with rfl | hdigit
      · rfl
      · rw [hdigit, Bool.true_or]
    have hnext := next?_number hc (fun x hx => hends x (List.mem_cons_of_mem c hx)) hnumber hrest
    rw [List.cons_append, tokensOf_cons hnext (by simp)]
    rfl

/-! ## Quoted texts -/

/-- A character that is read back from the form in which it is quoted. -/
def isLegible (c : Char) : Bool := c = '\t' || c = '\n' || c = '\r' || Text.isVisible c

/-- A character that the search for the end of a string passes over. -/
def IsInner (c : Char) : Prop := c ≠ '"' ∧ c ≠ '\n' ∧ c ≠ '\\'

instance (c : Char) : Decidable (IsInner c) := inferInstanceAs (Decidable (_ ∧ _ ∧ _))

theorem isInner_of_mem_hexDigits {n : Nat} {c : Char} (h : c ∈ Text.hexDigits n) : IsInner c := by
  have hdigit : ∀ k < 16, IsInner (Nat.digitChar k) := by decide
  induction n using Nat.strongRecOn with
  | ind n ih =>
    rw [Text.hexDigits, Nat.toDigits_eq_if (by decide)] at h
    split at h
    · next hlt =>
      rw [List.mem_singleton.mp h]
      exact hdigit n hlt
    · rcases List.mem_append.mp h with h | h
      · exact ih (n / 16) (by omega) h
      · rw [List.mem_singleton.mp h]
        exact hdigit (n % 16) (Nat.mod_lt n (by decide))

theorem stringBody?_append {inner : List Char} (h : ∀ c ∈ inner, IsInner c) (cs : List Char) :
    stringBody? (inner ++ cs) = (stringBody? cs).map fun r => (inner ++ r.1, r.2) := by
  induction inner with
  | nil => exact (Option.map_id_apply).symm
  | cons c inner ih =>
    rw [List.forall_mem_cons] at h
    obtain ⟨⟨hquote, hline, hback⟩, hinner⟩ := h
    rw [List.cons_append, stringBody?.eq_6 _ _ hquote hline (fun _ h => absurd h hback)
      (fun _ h => absurd h hback), ih hinner, Option.map_map]
    rfl

/-- A backslash takes the next character with it. -/
theorem stringBody?_backslash (c : Char) (h : c ≠ '\n') (cs : List Char) :
    stringBody? ('\\' :: c :: cs) = (stringBody? cs).map fun r => ('\\' :: c :: r.1, r.2) := by
  by_cases hquote : c = '"'
  · subst hquote
    rfl
  by_cases hback : c = '\\'
  · subst hback
    rfl
  rw [stringBody?.eq_6 _ _ (by decide) (by decide) (by simp [hquote]) (by simp [hback]),
    ← List.singleton_append, stringBody?_append (by simp [IsInner, hquote, h, hback]),
    Option.map_map]
  rfl

/-- The characters that have escapes of their own. -/
def escapedChars : List Char := ['"', '\\', '\n', '\r', '\t', '\x00']

/-- The characters with escapes of their own are read back, but for NUL. -/
theorem escape_of_mem :
    ∀ c ∈ escapedChars, ∃ x, x ≠ '\n' ∧ Text.escape c = ['\\', x] ∧
      ∀ cs, unescape? ('\\' :: x :: cs) =
        if isLegible c then (unescape? cs).map (c :: ·) else none := by
  simp only [escapedChars, List.forall_mem_cons]
  refine ⟨⟨'"', ?_⟩, ⟨'\\', ?_⟩, ⟨'n', ?_⟩, ⟨'r', ?_⟩, ⟨'t', ?_⟩, ⟨'0', ?_⟩,
    fun c hc => absurd hc List.not_mem_nil⟩
  all_goals
    refine ⟨by decide, rfl, fun cs => ?_⟩
    cases h : unescape? cs <;> simp [unescape?, h, isLegible, Text.isVisible]

theorem escape_of_not_mem {c : Char} (h : c ∉ escapedChars) :
    Text.escape c = if isLegible c then [c]
      else '\\' :: 'u' :: ('\x7b' :: Text.hexDigits c.toNat ++ ['\x7d']) := by
  simp only [escapedChars, List.mem_cons, List.not_mem_nil, or_false, not_or] at h
  obtain ⟨hquote, hback, hline, hreturn, htab, hnul⟩ := h
  simp [Text.escape, isLegible, hquote, hback, hline, hreturn, htab, hnul]

theorem isInner_of_not_mem {c : Char} (h : c ∉ escapedChars) : IsInner c := by
  simp only [escapedChars, List.mem_cons, not_or] at h
  exact ⟨h.1, h.2.2.1, h.2.1⟩

theorem stringBody?_escape (c : Char) (cs : List Char) :
    stringBody? (Text.escape c ++ cs) =
      (stringBody? cs).map fun r => (Text.escape c ++ r.1, r.2) := by
  by_cases hc : c ∈ escapedChars
  · obtain ⟨x, hx, hescape, -⟩ := escape_of_mem c hc
    rw [hescape]
    exact stringBody?_backslash x hx cs
  rw [escape_of_not_mem hc]
  split
  · exact stringBody?_append (List.forall_mem_singleton.mpr (isInner_of_not_mem hc)) cs
  · have hinner : ∀ x ∈ '\x7b' :: Text.hexDigits c.toNat ++ ['\x7d'], IsInner x := by
      rw [List.cons_append, List.forall_mem_cons, List.forall_mem_append, List.forall_mem_singleton]
      exact ⟨by decide, fun x hx => isInner_of_mem_hexDigits hx, by decide⟩
    have hbody := stringBody?_backslash 'u' (by decide)
      (('\x7b' :: Text.hexDigits c.toNat ++ ['\x7d']) ++ cs)
    rw [stringBody?_append hinner, Option.map_map] at hbody
    exact hbody

/-- The search for the closing quote passes over all that is quoted. -/
theorem stringBody?_escapes (s rest : List Char) :
    stringBody? (s.flatMap Text.escape ++ '"' :: rest) = some (s.flatMap Text.escape, rest) := by
  induction s with
  | nil => rfl
  | cons c s ih =>
    rw [List.flatMap_cons, List.append_assoc, stringBody?_escape, ih]
    rfl

/-- No four characters after `u` are read as a code point if the first is a brace. -/
theorem unescape?_brace (cs : List Char) : unescape? ('\\' :: 'u' :: '\x7b' :: cs) = none := by
  match cs with
  | [] | [_] | [_, _] | _ :: _ :: _ :: _ => rfl

theorem unescape?_escape (c : Char) (cs : List Char) :
    unescape? (Text.escape c ++ cs) =
      if isLegible c then (unescape? cs).map (c :: ·) else none := by
  by_cases hc : c ∈ escapedChars
  · obtain ⟨x, -, hescape, hread⟩ := escape_of_mem c hc
    rw [hescape]
    exact hread cs
  have hback : c ≠ '\\' := (isInner_of_not_mem hc).2.2
  rw [escape_of_not_mem hc]
  split
  · exact unescape?.eq_13 c cs (fun _ _ _ _ _ h => absurd h hback) (fun _ _ h => absurd h hback)
      (fun h => absurd h hback)
  · exact unescape?_brace _

theorem unescape?_escapes (s : List Char) :
    unescape? (s.flatMap Text.escape) = if s.all isLegible then some s else none := by
  induction s with
  | nil => rfl
  | cons c s ih =>
    rw [List.flatMap_cons, unescape?_escape, ih, List.all_cons]
    cases isLegible c <;> cases s.all isLegible <;> rfl

theorem exists_escape_eq_cons (c : Char) : ∃ x cs, Text.escape c = x :: cs ∧ x ≠ '"' := by
  by_cases hc : c ∈ escapedChars
  · obtain ⟨x, -, hescape, -⟩ := escape_of_mem c hc
    exact ⟨'\\', [x], hescape, by decide⟩
  rw [escape_of_not_mem hc]
  split
  · exact ⟨c, [], rfl, (isInner_of_not_mem hc).1⟩
  · exact ⟨'\\', _, rfl, by decide⟩

/-- A quoted text never starts like a block string. -/
theorem nextString?_escapes (s : List Char) {rest : List Char} (hrest : Breaks rest) :
    nextString? (s.flatMap Text.escape ++ '"' :: rest) =
      if s.all isLegible then
        some (.token (.string (String.ofList s)) (Text.quotedChars s), rest)
      else none := by
  have hplain : ∀ cs, s.flatMap Text.escape ++ '"' :: rest ≠ '"' :: '"' :: cs := by
    intro cs hcs
    cases s with
    | nil =>
      have htail : rest = '"' :: cs := List.tail_eq_of_cons_eq hcs
      exact absurd (hrest '"' (htail ▸ rfl)) (by decide)
    | cons c s =>
      obtain ⟨x, xs, hescape, hx⟩ := exists_escape_eq_cons c
      rw [List.flatMap_cons, hescape] at hcs
      exact hx (List.head_eq_of_cons_eq hcs)
  rw [nextString?.eq_2 _ hplain, stringBody?_escapes]
  simp only [Option.bind_eq_bind, Option.bind_some]
  rw [unescape?_escapes]
  split <;> rfl

/-- A quoted text is read back if all its characters are legible, and is not read otherwise. -/
theorem spells_quoted (s : String) :
    Spells (Text.quotedChars s.toList)
      (if s.toList.all isLegible then some [.string s] else none) := by
  intro rest hrest
  have hcs : Text.quotedChars s.toList ++ rest =
      '"' :: (s.toList.flatMap Text.escape ++ '"' :: rest) := by
    simp [Text.quotedChars]
  have hnext : next? '"' (s.toList.flatMap Text.escape ++ '"' :: rest) =
      nextString? (s.toList.flatMap Text.escape ++ '"' :: rest) := rfl
  rw [nextString?_escapes _ hrest] at hnext
  rw [hcs]
  split
  · next hall =>
    rw [if_pos hall] at hnext
    have hle : rest.length ≤ (s.toList.flatMap Text.escape ++ '"' :: rest).length := by
      rw [List.length_append, List.length_cons]
      omega
    rw [tokensOf_cons hnext hle, String.ofList_toList]
    rfl
  · next hall =>
    rw [if_neg hall] at hnext
    exact tokensOf_cons_eq_none hnext

end SchemaHint.Sdl
