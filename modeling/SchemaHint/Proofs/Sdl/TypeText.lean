import SchemaHint.Proofs.Sdl.ReadValues
import SchemaHint.Sdl.TypeExpr

/-!
# Texts of type expressions are read back

* `TypeExpr.Fits` : the type expressions of the grammar, written with a number of brackets;
* `TypeExpr.Fits.spells` : the tokens of the text of such an expression;
* `TypeExpr.Fits.read_append` : from these tokens the expression is read, whatever follows them;
* `TypeExpr.fits_of_read` : only such expressions are read, wherever in a text they stand;
* `TypeExpr.parse?_chars_iff` : they are the expressions that are read back from their text.
-/

namespace SchemaHint.Sdl.TypeExpr

set_option autoImplicit false

/-! ## Expressions of the grammar -/

/-- Whether an expression ends in a mark. -/
def isMarked : TypeExpr → Bool
  | .nonNull _ => true
  | _ => false

/-- A type expression that can be written while there is room for the given number of brackets: a
name or a list of such expressions, with one mark or without. -/
inductive Fits : Nat → TypeExpr → Prop
  | named {room : Nat} {name : String} (h : IsName name) : Fits room (.named name)
  | list {room : Nat} {item : TypeExpr} (h : Fits room item) : Fits (room + 1) (.list item)
  | nonNull {room : Nat} {t : TypeExpr} (h : Fits room t) (hmark : t.isMarked = false) :
      Fits room (.nonNull t)

/-! ## Tokens of the text -/

/-- The tokens of the text of an expression. -/
def tokens : TypeExpr → List Token
  | .named name => [.name name]
  | .list item => .punct .openBracket :: (item.tokens ++ [.punct .closeBracket])
  | .nonNull t => t.tokens ++ [.punct .bang]

theorem Fits.spells {room : Nat} {t : TypeExpr} (h : Fits room t) :
    Spells t.chars (some t.tokens) := by
  induction h with
  | named hname => exact spells_name hname
  | list _ ih => exact Value.spells_enclosed rfl rfl ih
  | nonNull _ _ ih => exact ih.append (.punct_cons rfl .nil) (Breaks.cons (by decide) [])

/-- The tokens of a list: brackets around those of the items. -/
theorem exists_enclosed {item : TypeExpr} {ts : List Located}
    (h : ts.map Located.token = (list item).tokens) :
    ∃ start finish body, ts = ⟨start, .punct .openBracket⟩ :: (body ++
      [⟨finish, .punct .closeBracket⟩]) ∧ body.map Located.token = item.tokens := by
  obtain ⟨start, finish, body, hts, hbody⟩ :=
    @Value.exists_enclosed .openBracket .closeBracket (some item.tokens) ts (congrArg some h.symm)
  exact ⟨start, finish, body, hts, (Option.some.inj hbody).symm⟩

/-- The tokens of a marked expression: those of the expression before those of the mark. -/
theorem exists_marked {t : TypeExpr} {ts : List Located}
    (h : ts.map Located.token = (nonNull t).tokens) :
    ∃ body position, ts = body ++ [⟨position, .punct .bang⟩] ∧
      body.map Located.token = t.tokens := by
  obtain ⟨body, _, rfl, hbody, hlast⟩ := List.map_eq_append_iff.mp h
  obtain ⟨⟨position, _⟩, rfl, rfl⟩ := List.map_eq_singleton_iff.mp hlast
  exact ⟨body, position, rfl, hbody⟩

/-! ## Reading the tokens -/

/-- What the reader makes of an expression when it has come to the end of its tokens: it looks for a
mark, unless it has seen one. -/
def ended (t : TypeExpr) (rest : List Located) : TypeExpr × List Located :=
  if t.isMarked then (t, rest) else t.readMark rest

theorem ended_closeBracket (t : TypeExpr) (position : Position) (rest : List Located) :
    t.ended (⟨position, .punct .closeBracket⟩ :: rest) =
      (t, ⟨position, .punct .closeBracket⟩ :: rest) := by
  unfold ended
  split <;> rfl

/-- An expression of the grammar is read from its tokens, before whatever follows. -/
theorem Fits.read_append {room : Nat} {t : TypeExpr} (h : Fits room t) {ts : List Located}
    (hts : ts.map Located.token = t.tokens) (rest : List Located) :
    read (ts ++ rest) = some (t.ended rest) := by
  induction h generalizing ts rest with
  | named hname =>
    obtain ⟨⟨position, _⟩, rfl, rfl⟩ := List.map_eq_singleton_iff.mp hts
    rfl
  | @list room item _ ih =>
    obtain ⟨start, finish, body, rfl, hbody⟩ := exists_enclosed hts
    rw [List.cons_append, List.append_assoc, List.singleton_append, read, ih hbody,
      ended_closeBracket]
    rfl
  | @nonNull room t _ hmark ih =>
    obtain ⟨body, position, rfl, hbody⟩ := exists_marked hts
    -- the mark that follows the tokens of `t` is the one that its reader looks for
    rw [List.append_assoc, List.singleton_append, ih hbody, ended, if_neg (by simp [hmark])]
    rfl

/-! ## Brackets -/

/-- The tokens of an expression open no more brackets than there is room for, and close all of
them. -/
theorem Fits.nestsWithin_append {room : Nat} {t : TypeExpr} (h : Fits room t) {ts : List Located}
    (hts : ts.map Located.token = t.tokens) {depth : Nat} (hdepth : depth + room ≤ maxNesting)
    (rest : List Located) : nestsWithin depth (ts ++ rest) = nestsWithin depth rest := by
  induction h generalizing ts depth rest with
  | named hname =>
    obtain ⟨⟨position, _⟩, rfl, rfl⟩ := List.map_eq_singleton_iff.mp hts
    rfl
  | list _ ih =>
    obtain ⟨start, finish, body, rfl, hbody⟩ := exists_enclosed hts
    exact Value.nestsWithin_enclosed rfl rfl (by omega) (fun rest => ih hbody (by omega) rest)
      start finish rest
  | nonNull _ _ ih =>
    obtain ⟨body, position, rfl, hbody⟩ := exists_marked hts
    rw [List.append_assoc, ih hbody hdepth]
    rfl

/-! ## What is read -/

theorem suffix_readMark (t : TypeExpr) (ts : List Located) : (readMark t ts).2 <:+ ts := by
  unfold readMark
  split
  · exact List.suffix_cons _ _
  · exact List.suffix_refl ts

theorem suffix_of_read {ts rest : List Located} {t : TypeExpr} (h : read ts = some (t, rest)) :
    rest <:+ ts := by
  fun_induction read ts generalizing t rest with
  | case1 position name ts =>
    have hrest := suffix_readMark (.named name) ts
    rw [Option.some.inj h] at hrest
    exact hrest.trans (List.suffix_cons _ _)
  | case2 position ts item position' ts' hitem ih =>
    have hrest := suffix_readMark (.list item) ts'
    rw [Option.some.inj h] at hrest
    exact ((hrest.trans (List.suffix_cons _ _)).trans (ih hitem)).trans (List.suffix_cons _ _)
  | case3 => cases h
  | case4 => cases h

theorem fits_readMark {room depth : Nat} {t : TypeExpr} (h : Fits room t)
    (hmark : t.isMarked = false) {ts : List Located} (hnests : nestsWithin depth ts = true) :
    Fits room (t.readMark ts).1 ∧ nestsWithin depth (t.readMark ts).2 = true := by
  unfold readMark
  split
  · exact ⟨.nonNull h hmark, hnests⟩
  · exact ⟨h, hnests⟩

/-- An expression that is read while the given number of brackets are open has no more brackets than
there is room for, and the brackets behind it nest as they did before. -/
theorem fits_of_read_of_nestsWithin {ts rest : List Located} {t : TypeExpr} {depth room : Nat}
    (hfits : ∀ x ∈ ts, TokenFits x.token) (hnests : nestsWithin depth ts = true)
    (hroom : maxNesting ≤ depth + room) (h : read ts = some (t, rest)) :
    Fits room t ∧ nestsWithin depth rest = true := by
  fun_induction read ts generalizing t rest depth room with
  | case1 position name ts =>
    have hfit : Fits room (.named name) := .named (hfits _ List.mem_cons_self)
    have hrest : nestsWithin depth ts = true := hnests
    have hmarked := fits_readMark hfit rfl hrest
    rwa [Option.some.inj h] at hmarked
  | case2 position ts item position' ts' hitem ih =>
    have hopens : Punctuator.openBracket.opens = true := rfl
    rw [nestsWithin, if_pos hopens, Bool.and_eq_true, decide_eq_true_eq] at hnests
    obtain ⟨hlt, hinner⟩ := hnests
    obtain ⟨r, rfl⟩ := Nat.exists_eq_add_one.mpr (show 0 < room by omega)
    obtain ⟨hfit, hclose⟩ := ih (fun x hx => hfits x (List.mem_cons_of_mem _ hx)) hinner
      (show maxNesting ≤ depth + 1 + r by omega) hitem
    have hrest : nestsWithin depth ts' = true := hclose
    have hmarked := fits_readMark (.list hfit) rfl hrest
    rwa [Option.some.inj h] at hmarked
  | case3 => cases h
  | case4 => cases h

/-- Only expressions of the grammar are read, wherever in a text they stand. -/
theorem fits_of_read {ts rest : List Located} {t : TypeExpr} (hts : Lexed ts)
    (h : read ts = some (t, rest)) : Fits maxNesting t := by
  obtain ⟨depth, hdepth, hnests⟩ := hts.nestsWithin
  exact (fits_of_read_of_nestsWithin hts.tokenFits hnests (Nat.le_add_left _ _) h).1

theorem parse?_eq_some_iff {cs : List Char} {t : TypeExpr} :
    parse? cs = some t ↔ ∃ ts, tokenize cs = some ts ∧ read ts = some (t, []) := by
  unfold parse?
  cases tokenize cs with
  | none => simp
  | some ts =>
    simp only [Option.some.injEq, exists_eq_left']
    constructor
    · intro h
      split at h
      · next u hread =>
        cases h
        exact hread
      · cases h
    · intro hread
      rw [hread]

theorem fits_of_parse? {cs : List Char} {t : TypeExpr} (h : parse? cs = some t) :
    Fits maxNesting t := by
  obtain ⟨ts, htokenize, hread⟩ := parse?_eq_some_iff.mp h
  exact fits_of_read ⟨cs, ts, htokenize, List.suffix_refl ts⟩ hread

/-- The expressions of the grammar are those that are read back from their text. -/
theorem parse?_chars_iff {t : TypeExpr} : parse? t.chars = some t ↔ Fits maxNesting t := by
  refine ⟨fits_of_parse?, fun h => parse?_eq_some_iff.mpr ?_⟩
  have hnests : ∀ ts : List Located, ts.map Located.token = t.tokens →
      nestsWithin 0 ts = true := by
    intro ts hts
    have hbalanced := h.nestsWithin_append hts (Nat.le_of_eq (Nat.zero_add maxNesting)) []
    rwa [List.append_nil] at hbalanced
  obtain ⟨ts, htokenize, hts⟩ := tokenize_of_tokensOf h.spells.tokensOf_eq hnests
  have hread := h.read_append hts []
  rw [List.append_nil] at hread
  refine ⟨ts, htokenize, hread.trans ?_⟩
  unfold ended
  split <;> rfl

-- a list that is not nullable, of nullable lists
example : parse? "[[Int!]]!".toList =
    some (.nonNull (.list (.list (.nonNull (.named "Int"))))) := by decide +kernel

/-- The expressions of the grammar are those that are read somewhere in a text. -/
theorem exists_read_iff {t : TypeExpr} :
    (∃ ts rest, Lexed ts ∧ read ts = some (t, rest)) ↔ Fits maxNesting t := by
  constructor
  · rintro ⟨ts, rest, hts, hread⟩
    exact fits_of_read hts hread
  · intro h
    obtain ⟨ts, htokenize, hread⟩ := parse?_eq_some_iff.mp (parse?_chars_iff.mpr h)
    exact ⟨ts, [], ⟨t.chars, ts, htokenize, List.suffix_refl ts⟩, hread⟩

end SchemaHint.Sdl.TypeExpr
