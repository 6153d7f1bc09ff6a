import Mathlib.Data.String.Basic
import SchemaHint.Proofs.Sdl.Lexing

/-!
# Texts of values are read back

* `Value.leaves`, `Value.strings`, `Value.floats` : what stands inside a value;
* `Value.Fits` : a value without variables that can be written with a number of brackets;
* `Value.tokens?` : the tokens of the text of a value, if it can be read;
  `Value.Fits.spells` : the text has these tokens;
* `Value.Fits.reads` : from them the value is read, into whatever is open;
* `Value.Fits.parse?_chars_iff` : the text is read as the value iff its strings are legible.
-/

namespace SchemaHint.Sdl.Value

set_option autoImplicit false

/-! ## What stands inside a value -/

mutual

/-- The values inside a value, itself included, that have no parts. -/
def leaves : Value → List Value
  | .list items => itemsLeaves items
  | .object fields => fieldsLeaves fields
  | v => [v]

/-- The values without parts inside the items of a list. -/
def itemsLeaves : List Value → List Value
  | [] => []
  | v :: vs => v.leaves ++ itemsLeaves vs

/-- The values without parts inside the fields of an object. -/
def fieldsLeaves : List (String × Value) → List Value
  | [] => []
  | (_, v) :: fs => v.leaves ++ fieldsLeaves fs

end

/-- The strings inside a value. -/
def strings (v : Value) : List String :=
  v.leaves.filterMap fun
    | .string s => some s
    | _ => none

/-- The floating point numbers inside a value. -/
def floats (v : Value) : List Binary64 :=
  v.leaves.filterMap fun
    | .float x => some x
    | _ => none

theorem leaves_list (items : List Value) : (list items).leaves = items.flatMap leaves := by
  show itemsLeaves items = items.flatMap leaves
  induction items with
  | nil => rfl
  | cons v items ih => rw [itemsLeaves, List.flatMap_cons, ih]

theorem leaves_object (fields : List (String × Value)) :
    (object fields).leaves = fields.flatMap fun f => f.2.leaves := by
  show fieldsLeaves fields = fields.flatMap fun f => f.2.leaves
  induction fields with
  | nil => rfl
  | cons f fields ih => rw [fieldsLeaves, List.flatMap_cons, ih]

theorem forall_strings_iff {v : Value} {p : String → Prop} :
    (∀ s ∈ v.strings, p s) ↔ ∀ s, .string s ∈ v.leaves → p s := by
  simp only [strings, List.mem_filterMap]
  constructor
  · intro h s hs
    exact h s ⟨_, hs, rfl⟩
  · rintro h s ⟨u, hu, heq⟩
    cases u <;> cases heq
    exact h s hu

theorem floats_eq_nil_iff {v : Value} : v.floats = [] ↔ ∀ x, .float x ∉ v.leaves := by
  rw [floats, List.filterMap_eq_nil_iff]
  constructor
  · intro h x hx
    cases h _ hx
  · intro h u hu
    cases u <;> first | rfl | exact absurd hu (h _)

/-! ## Values that can be written -/

/-- What a value without parts has to satisfy. -/
def LeafFits : Value → Prop
  | .enum name => IsName name ∧ name ∉ ["true", "false", "null"]
  | .int n => isInt64 n = true
  | .list _ | .object _ | .variableUse _ => False
  | _ => True

/-- A value without variables that can be written while there is room for the given number of
brackets. -/
inductive Fits : Nat → Value → Prop
  | leaf {room : Nat} {v : Value} (h : LeafFits v) : Fits room v
  | list {room : Nat} {items : List Value} (hitems : ∀ v ∈ items, Fits room v) :
      Fits (room + 1) (.list items)
  | object {room : Nat} {fields : List (String × Value)} (hnames : ∀ f ∈ fields, IsName f.1)
      (hsorted : (fields.map Prod.fst).Pairwise (· < ·)) (hvalues : ∀ f ∈ fields, Fits room f.2) :
      Fits (room + 1) (.object fields)

/-! ## Tokens of the text -/

mutual

/-- The tokens of the text of a value, if it can be read. -/
def tokens? : Value → Option (List Token)
  | .boolean b => some [.name (if b then "true" else "false")]
  | .enum name => some [.name name]
  | .float x => some [.float x]
  | .int n => some [.int n]
  | .list items =>
    bothTokens (some [.punct .openBracket])
      (bothTokens (joinTokens (itemsTokens items)) (some [.punct .closeBracket]))
  | .null => some [.name "null"]
  | .object fields =>
    bothTokens (some [.punct .openBrace])
      (bothTokens (joinTokens (fieldsTokens fields)) (some [.punct .closeBrace]))
  | .string s => if s.toList.all isLegible then some [.string s] else none
  | .variableUse name => some [.punct .dollar, .name name]

/-- The tokens of each value of a list. -/
def itemsTokens : List Value → List (Option (List Token))
  | [] => []
  | v :: vs => v.tokens? :: itemsTokens vs

/-- The tokens of each field of an object. -/
def fieldsTokens : List (String × Value) → List (Option (List Token))
  | [] => []
  | (name, v) :: fs => bothTokens (some [.name name, .punct .colon]) v.tokens? :: fieldsTokens fs

end

theorem mem_itemsTokens_iff {items : List Value} {ts : Option (List Token)} :
    ts ∈ itemsTokens items ↔ ∃ v ∈ items, v.tokens? = ts := by
  induction items with
  | nil => simp [itemsTokens]
  | cons v items ih => simp [itemsTokens, ih, eq_comm]

theorem mem_fieldsTokens_iff {fields : List (String × Value)} {ts : Option (List Token)} :
    ts ∈ fieldsTokens fields ↔
      ∃ f ∈ fields, bothTokens (some [.name f.1, .punct .colon]) f.2.tokens? = ts := by
  induction fields with
  | nil => simp [fieldsTokens]
  | cons f fields ih => simp [fieldsTokens, ih, eq_comm]

theorem LeafFits.spells {v : Value} (h : LeafFits v) (hfloat : ∀ x, v ≠ .float x) :
    Spells v.chars v.tokens? := by
  cases v with
  | boolean b =>
    cases b
    · exact spells_name ⟨'f', "alse".toList, rfl, rfl, List.all_eq_true.mp rfl⟩
    · exact spells_name ⟨'t', "rue".toList, rfl, rfl, List.all_eq_true.mp rfl⟩
  | enum name => exact spells_name h.1
  | float x => exact absurd rfl (hfloat x)
  | int n => exact spells_int h
  | null => exact spells_name ⟨'n', "ull".toList, rfl, rfl, List.all_eq_true.mp rfl⟩
  | string s => exact spells_quoted s
  | list | object | variableUse => exact h.elim

/-- A text between brackets, of which the first character is the opening one. -/
theorem spells_enclosed {opening closing : Char} {p q : Punctuator} {cs : List Char}
    {ts : Option (List Token)} (hopening : Punctuator.ofChar? opening = some p)
    (hclosing : Punctuator.ofChar? closing = some q) (h : Spells cs ts) :
    Spells (opening :: cs ++ [closing])
      (bothTokens (some [.punct p]) (bothTokens ts (some [.punct q]))) := by
  have hbreaks : Breaks [closing] := Breaks.cons (by simp [endsNumber, hclosing]) []
  exact .punct_cons hopening (h.append (.punct_cons hclosing .nil) hbreaks)

theorem spells_items {items : List Value} (h : ∀ v ∈ items, Spells v.chars v.tokens?) :
    List.Forall₂ Spells (itemsChars items) (itemsTokens items) := by
  induction items with
  | nil => exact .nil
  | cons v items ih =>
    rw [List.forall_mem_cons] at h
    exact .cons h.1 (ih h.2)

theorem spells_fields {fields : List (String × Value)} (hnames : ∀ f ∈ fields, IsName f.1)
    (h : ∀ f ∈ fields, Spells f.2.chars f.2.tokens?) :
    List.Forall₂ Spells (fieldsChars fields) (fieldsTokens fields) := by
  induction fields with
  | nil => exact .nil
  | cons f fields ih =>
    rw [List.forall_mem_cons] at hnames h
    refine .cons ?_ (ih hnames.2 h.2)
    have hcolon : Spells (':' :: ' ' :: f.2.chars)
        (bothTokens (some [.punct .colon]) f.2.tokens?) :=
      .punct_cons rfl (.ignored_cons rfl h.1)
    have hfield := (spells_name hnames.1).append hcolon (Breaks.cons rfl _)
    rwa [← bothTokens_assoc] at hfield

/-- The text of a value without floating point numbers has the tokens of the value. -/
theorem Fits.spells {room : Nat} {v : Value} (h : Fits room v)
    (hfloats : ∀ x, .float x ∉ v.leaves) : Spells v.chars v.tokens? := by
  induction h with
  | @leaf room v h =>
    apply h.spells
    rintro x rfl
    exact hfloats x List.mem_cons_self
  | @list room items hitems ih =>
    rw [leaves_list] at hfloats
    apply spells_enclosed rfl rfl (.join (spells_items fun v hv => ih v hv fun x hx => ?_))
    exact hfloats x (List.mem_flatMap_of_mem hv hx)
  | @object room fields hnames hsorted hvalues ih =>
    rw [leaves_object] at hfloats
    apply spells_enclosed rfl rfl (.join (spells_fields hnames fun f hf => ih f hf fun x hx => ?_))
    exact hfloats x (List.mem_flatMap.mpr ⟨f, hf, hx⟩)

/-- A value has no tokens iff one of its strings is not legible. -/
theorem Fits.tokens?_eq_none_iff {room : Nat} {v : Value} (h : Fits room v) :
    v.tokens? = none ↔ ∃ s, .string s ∈ v.leaves ∧ s.toList.all isLegible = false := by
  induction h with
  | @leaf room v h =>
    cases v with
    | string s => simp [tokens?, leaves]
    | list | object => exact h.elim
    | _ => simp [tokens?, leaves]
  | @list room items hitems ih =>
    simp only [tokens?, bothTokens_eq_none_iff, joinTokens_eq_none_iff, mem_itemsTokens_iff,
      leaves_list, List.mem_flatMap, reduceCtorEq, false_or, or_false]
    constructor
    · rintro ⟨v, hv, hnone⟩
      obtain ⟨s, hs, hillegible⟩ := (ih v hv).mp hnone
      exact ⟨s, ⟨v, hv, hs⟩, hillegible⟩
    · rintro ⟨s, ⟨v, hv, hs⟩, hillegible⟩
      exact ⟨v, hv, (ih v hv).mpr ⟨s, hs, hillegible⟩⟩
  | @object room fields hnames hsorted hvalues ih =>
    simp only [tokens?, bothTokens_eq_none_iff, joinTokens_eq_none_iff, mem_fieldsTokens_iff,
      leaves_object, List.mem_flatMap, reduceCtorEq, false_or, or_false]
    constructor
    · rintro ⟨f, hf, hnone⟩
      obtain ⟨s, hs, hillegible⟩ := (ih f hf).mp hnone
      exact ⟨s, ⟨f, hf, hs⟩, hillegible⟩
    · rintro ⟨s, ⟨f, hf, hs⟩, hillegible⟩
      exact ⟨f, hf, (ih f hf).mpr ⟨s, hs, hillegible⟩⟩

/-! ## Reading the tokens -/

/-- What the reader does when a value has been delivered. -/
def resume (withVariables : Bool) (rest : List Located) : Next → Option (Value × List Located)
  | .done v => some (v, rest)
  | .more stack => readInto withVariables stack rest
  | .stuck => none

/-- The innermost part that is open can take a value. -/
def Awaits (stack : List Opened) : Prop :=
  ∀ fields below, stack = .object fields :: below → False

/-- The value is read from its tokens, into whatever is open and before whatever follows. -/
def Reads (v : Value) : Prop :=
  ∀ tokens : List Located, v.tokens? = some (tokens.map Located.token) →
    ∀ (withVariables : Bool) (stack : List Opened) (rest : List Located), Awaits stack →
      readInto withVariables stack (tokens ++ rest) = resume withVariables rest (v.deliver stack)

theorem LeafFits.exists_token {v : Value} (h : LeafFits v) {ts : List Token}
    (hts : v.tokens? = some ts) : ∃ t, ts = [t] ∧ ofToken? t = some v := by
  cases v with
  | boolean b =>
    cases hts
    cases b
    · exact ⟨_, rfl, rfl⟩
    · exact ⟨_, rfl, rfl⟩
  | enum name =>
    cases hts
    refine ⟨_, rfl, ?_⟩
    have hname := h.2
    simp only [List.mem_cons, List.not_mem_nil, or_false, not_or] at hname
    simp [ofToken?, ofName, hname]
  | string s =>
    rw [tokens?] at hts
    split at hts <;> cases hts
    exact ⟨_, rfl, rfl⟩
  | float | int | null =>
    cases hts
    exact ⟨_, rfl, rfl⟩
  | list | object | variableUse => exact h.elim

/-- The one token of a value without parts, which is no punctuator. -/
theorem LeafFits.exists_located {v : Value} (h : LeafFits v) {tokens : List Located}
    (htokens : v.tokens? = some (tokens.map Located.token)) :
    ∃ position t, tokens = [⟨position, t⟩] ∧ ofToken? t = some v ∧ ∀ p, t = .punct p → False := by
  obtain ⟨t, hts, ht⟩ := h.exists_token htokens
  obtain ⟨⟨position, _⟩, rfl, rfl⟩ := List.map_eq_singleton_iff.mp hts
  refine ⟨position, _, rfl, ht, ?_⟩
  rintro p rfl
  cases ht

/-- The tokens of a text between brackets. -/
theorem exists_enclosed {p q : Punctuator} {ts : Option (List Token)} {tokens : List Located}
    (h : bothTokens (some [.punct p]) (bothTokens ts (some [.punct q])) =
      some (tokens.map Located.token)) :
    ∃ start finish body, tokens = ⟨start, .punct p⟩ :: (body ++ [⟨finish, .punct q⟩]) ∧
      ts = some (body.map Located.token) := by
  obtain ⟨_, _, hopening, hinner, htokens⟩ := bothTokens_eq_some_iff.mp h
  cases hopening
  obtain ⟨x, _, rfl, hclosing, rfl⟩ := bothTokens_eq_some_iff.mp hinner
  cases hclosing
  rw [List.singleton_append] at htokens
  obtain ⟨⟨start, _⟩, _, rfl, rfl, hrest⟩ := List.map_eq_cons_iff.mp htokens
  obtain ⟨body, _, rfl, rfl, hlast⟩ := List.map_eq_append_iff.mp hrest
  obtain ⟨⟨finish, _⟩, rfl, rfl⟩ := List.map_eq_singleton_iff.mp hlast
  exact ⟨start, finish, body, rfl, rfl⟩

/-- The tokens of a list are those of its first item and those of the others. -/
theorem exists_items_cons {v : Value} {items : List Value} {tokens : List Located}
    (h : joinTokens (itemsTokens (v :: items)) = some (tokens.map Located.token)) :
    ∃ front back, tokens = front ++ back ∧ v.tokens? = some (front.map Located.token) ∧
      joinTokens (itemsTokens items) = some (back.map Located.token) := by
  obtain ⟨x, y, hx, hy, hxy⟩ := bothTokens_eq_some_iff.mp h
  obtain ⟨front, back, rfl, rfl, rfl⟩ := List.map_eq_append_iff.mp hxy
  exact ⟨front, back, rfl, hx, hy⟩

/-- The tokens of an object are the name of its first field, a colon, those of the value and those of
the other fields. -/
theorem exists_fields_cons {name : String} {v : Value} {fields : List (String × Value)}
    {tokens : List Located}
    (h : joinTokens (fieldsTokens ((name, v) :: fields)) = some (tokens.map Located.token)) :
    ∃ start colon front back,
      tokens = ⟨start, .name name⟩ :: ⟨colon, .punct .colon⟩ :: (front ++ back) ∧
      v.tokens? = some (front.map Located.token) ∧
      joinTokens (fieldsTokens fields) = some (back.map Located.token) := by
  obtain ⟨x, y, hx, hy, hxy⟩ := bothTokens_eq_some_iff.mp h
  obtain ⟨_, back, rfl, rfl, rfl⟩ := List.map_eq_append_iff.mp hxy
  obtain ⟨_, ts, hname, hts, hfield⟩ := bothTokens_eq_some_iff.mp hx
  cases hname
  obtain ⟨⟨start, _⟩, _, rfl, rfl, hvalue⟩ := List.map_eq_cons_iff.mp hfield
  obtain ⟨⟨colon, _⟩, front, rfl, rfl, rfl⟩ := List.map_eq_cons_iff.mp hvalue
  exact ⟨start, colon, front, back, rfl, hts, hy⟩

/-- The items of a list are read one after the other. -/
theorem readInto_items {items : List Value} (h : ∀ v ∈ items, Reads v) {tokens : List Located}
    (htokens : joinTokens (itemsTokens items) = some (tokens.map Located.token))
    (withVariables : Bool) (before : List Value) (stack : List Opened) (rest : List Located) :
    readInto withVariables (.list before :: stack) (tokens ++ rest) =
      readInto withVariables (.list (items.reverse ++ before) :: stack) rest := by
  induction items generalizing tokens before with
  | nil =>
    obtain rfl := List.map_eq_nil_iff.mp (Option.some.inj htokens).symm
    rfl
  | cons v items ih =>
    rw [List.forall_mem_cons] at h
    obtain ⟨front, back, rfl, hfront, hback⟩ := exists_items_cons htokens
    rw [List.append_assoc, h.1 front hfront withVariables _ _ (by rintro _ _ h; cases h)]
    show readInto withVariables (.list (v :: before) :: stack) (back ++ rest) = _
    rw [ih h.2 hback, List.reverse_cons, List.append_assoc]
    rfl

/-- A field whose name comes after all others is put last. -/
theorem insertField_of_lt {name : String} {fields : List (String × Value)}
    (h : ∀ f ∈ fields, f.1 < name) (v : Value) :
    insertField name v fields = fields ++ [(name, v)] := by
  induction fields with
  | nil => rfl
  | cons f fields ih =>
    rw [List.forall_mem_cons] at h
    have hne : name ≠ f.1 := fun heq => String.lt_irrefl _ (heq ▸ h.1)
    rw [insertField, if_neg (String.lt_asymm h.1), if_neg hne, ih h.2, List.cons_append]

/-- The fields of an object are read one after the other, each of them behind those before it. -/
theorem readInto_fields {fields : List (String × Value)} (h : ∀ f ∈ fields, Reads f.2)
    {tokens : List Located}
    (htokens : joinTokens (fieldsTokens fields) = some (tokens.map Located.token))
    (withVariables : Bool) (before : List (String × Value))
    (hsorted : ((before ++ fields).map Prod.fst).Pairwise (· < ·)) (stack : List Opened)
    (rest : List Located) :
    readInto withVariables (.object before :: stack) (tokens ++ rest) =
      readInto withVariables (.object (before ++ fields) :: stack) rest := by
  induction fields generalizing tokens before with
  | nil =>
    obtain rfl := List.map_eq_nil_iff.mp (Option.some.inj htokens).symm
    rw [List.append_nil, List.nil_append]
  | cons f fields ih =>
    obtain ⟨name, v⟩ := f
    rw [List.forall_mem_cons] at h
    obtain ⟨start, colon, front, back, rfl, hfront, hback⟩ := exists_fields_cons htokens
    -- the names are in order, so the field is put behind those before it
    have hlast : ∀ g ∈ before, g.1 < name := by
      rw [List.map_append, List.pairwise_append] at hsorted
      intro g hg
      exact hsorted.2.2 g.1 (List.mem_map_of_mem hg) name List.mem_cons_self
    rw [List.cons_append, List.cons_append, readInto.eq_1, List.append_assoc,
      h.1 front hfront withVariables _ _ (by rintro _ _ h; cases h)]
    show readInto withVariables (.object (insertField name v before) :: stack) (back ++ rest) = _
    rw [insertField_of_lt hlast, ih h.2 hback _ (by simpa using hsorted), List.append_assoc]
    rfl

/-- A value that can be written is read from its tokens. -/
theorem Fits.reads {room : Nat} {v : Value} (h : Fits room v) : Reads v := by
  induction h with
  | @leaf room v h =>
    intro tokens htokens withVariables stack rest hawaits
    obtain ⟨position, t, rfl, ht, hpunct⟩ := h.exists_located htokens
    rw [List.singleton_append, readInto.eq_8 withVariables stack position t rest (hpunct _)
      (hpunct _) (fun _ _ _ _ => hpunct _) (fun fields below _ _ _ hs _ _ => hawaits fields below hs)
      (fun _ _ _ => hpunct _) hawaits (fun _ _ _ => hpunct _), ht]
    rfl
  | @list room items hitems ih =>
    intro tokens htokens withVariables stack rest hawaits
    obtain ⟨start, finish, body, rfl, hbody⟩ := exists_enclosed htokens
    rw [List.cons_append, readInto.eq_5 _ _ _ _ hawaits, List.append_assoc,
      readInto_items ih hbody, List.append_nil, List.singleton_append, readInto.eq_4,
      List.reverse_reverse]
    rfl
  | @object room fields hnames hsorted hvalues ih =>
    intro tokens htokens withVariables stack rest hawaits
    obtain ⟨start, finish, body, rfl, hbody⟩ := exists_enclosed htokens
    rw [List.cons_append, readInto.eq_6 _ _ _ _ hawaits, List.append_assoc,
      readInto_fields ih hbody withVariables [] hsorted, List.nil_append, List.singleton_append,
      readInto.eq_2]
    rfl

/-! ## Brackets -/

/-- The tokens of a value open no more brackets than there is room for, and close all of them. -/
def Nests (room : Nat) (v : Value) : Prop :=
  ∀ tokens : List Located, v.tokens? = some (tokens.map Located.token) →
    ∀ (depth : Nat) (rest : List Located), depth + room ≤ maxNesting →
      nestsWithin depth (tokens ++ rest) = nestsWithin depth rest

theorem nestsWithin_items {room : Nat} {items : List Value} (h : ∀ v ∈ items, Nests room v)
    {tokens : List Located}
    (htokens : joinTokens (itemsTokens items) = some (tokens.map Located.token)) {depth : Nat}
    (hdepth : depth + room ≤ maxNesting) (rest : List Located) :
    nestsWithin depth (tokens ++ rest) = nestsWithin depth rest := by
  induction items generalizing tokens with
  | nil =>
    obtain rfl := List.map_eq_nil_iff.mp (Option.some.inj htokens).symm
    rfl
  | cons v items ih =>
    rw [List.forall_mem_cons] at h
    obtain ⟨front, back, rfl, hfront, hback⟩ := exists_items_cons htokens
    rw [List.append_assoc, h.1 front hfront depth _ hdepth, ih h.2 hback]

theorem nestsWithin_fields {room : Nat} {fields : List (String × Value)}
    (h : ∀ f ∈ fields, Nests room f.2) {tokens : List Located}
    (htokens : joinTokens (fieldsTokens fields) = some (tokens.map Located.token)) {depth : Nat}
    (hdepth : depth + room ≤ maxNesting) (rest : List Located) :
    nestsWithin depth (tokens ++ rest) = nestsWithin depth rest := by
  induction fields generalizing tokens with
  | nil =>
    obtain rfl := List.map_eq_nil_iff.mp (Option.some.inj htokens).symm
    rfl
  | cons f fields ih =>
    rw [List.forall_mem_cons] at h
    obtain ⟨start, colon, front, back, rfl, hfront, hback⟩ := exists_fields_cons htokens
    show nestsWithin depth (front ++ back ++ rest) = nestsWithin depth rest
    rw [List.append_assoc, h.1 front hfront depth _ hdepth, ih h.2 hback]

/-- A pair of brackets around tokens that are balanced one level deeper. -/
theorem nestsWithin_enclosed {p q : Punctuator} (hp : p.opens = true) (hq : q.closes = true)
    {depth : Nat} (hdepth : depth < maxNesting) {body : List Located}
    (hbody : ∀ rest, nestsWithin (depth + 1) (body ++ rest) = nestsWithin (depth + 1) rest)
    (start finish : Position) (rest : List Located) :
    nestsWithin depth (⟨start, .punct p⟩ :: (body ++ [⟨finish, .punct q⟩]) ++ rest) =
      nestsWithin depth rest := by
  have hclose : q.opens = false := by cases q <;> first | rfl | cases hq
  rw [List.cons_append, List.append_assoc, List.singleton_append, nestsWithin, if_pos hp,
    decide_eq_true hdepth, Bool.true_and, hbody, nestsWithin, if_neg (by simp [hclose]), if_pos hq,
    Nat.add_sub_cancel]

theorem Fits.nests {room : Nat} {v : Value} (h : Fits room v) : Nests room v := by
  induction h with
  | @leaf room v h =>
    intro tokens htokens depth rest hdepth
    obtain ⟨position, t, rfl, -, hpunct⟩ := h.exists_located htokens
    cases t with
    | punct p => exact (hpunct p rfl).elim
    | _ => rfl
  | @list room items hitems ih =>
    intro tokens htokens depth rest hdepth
    obtain ⟨start, finish, body, rfl, hbody⟩ := exists_enclosed htokens
    exact nestsWithin_enclosed rfl rfl (by omega)
      (nestsWithin_items ih hbody (by omega)) start finish rest
  | @object room fields hnames hsorted hvalues ih =>
    intro tokens htokens depth rest hdepth
    obtain ⟨start, finish, body, rfl, hbody⟩ := exists_enclosed htokens
    exact nestsWithin_enclosed rfl rfl (by omega)
      (nestsWithin_fields ih hbody (by omega)) start finish rest

/-! ## Whole texts -/

theorem parse?_of_tokensOf_eq_none {cs : List Char} (h : tokensOf cs = none) :
    parse? cs = none := by
  cases htokenize : tokenize cs with
  | none => rw [parse?, htokenize]
  | some tokens =>
    rw [tokensOf_of_tokenize htokenize] at h
    cases h

/-- A value that can be written is read from any text with its tokens. -/
theorem Fits.parse?_of_tokensOf {v : Value} (h : Fits maxNesting v) {cs : List Char}
    {ts : List Token} (hcs : tokensOf cs = some ts) (hts : v.tokens? = some ts) :
    parse? cs = some v := by
  have hnests : ∀ tokens : List Located, tokens.map Located.token = ts →
      nestsWithin 0 tokens = true := by
    rintro tokens rfl
    have hbalanced := h.nests tokens hts 0 [] (by omega)
    rw [List.append_nil] at hbalanced
    exact hbalanced
  obtain ⟨tokens, htokenize, rfl⟩ := tokenize_of_tokensOf hcs hnests
  have hread : readConst tokens = some (v, []) := by
    have hend := h.reads tokens hts false [] [] (by rintro _ _ h; cases h)
    rw [List.append_nil] at hend
    exact hend
  rw [parse?, htokenize]
  dsimp only
  rw [hread]

/-- The text of a value without floating point numbers is read back iff all its strings are
legible. -/
theorem Fits.parse?_chars_iff {v : Value} (h : Fits maxNesting v)
    (hfloats : ∀ x, .float x ∉ v.leaves) :
    parse? v.chars = some v ↔ ∀ s, .string s ∈ v.leaves → s.toList.all isLegible = true := by
  have htokens := (h.spells hfloats).tokensOf_eq
  cases hts : v.tokens? with
  | none =>
    obtain ⟨s, hs, hillegible⟩ := h.tokens?_eq_none_iff.mp hts
    rw [parse?_of_tokensOf_eq_none (htokens.trans hts)]
    refine iff_of_false (by simp) fun hall => ?_
    rw [hall s hs] at hillegible
    cases hillegible
  | some ts =>
    refine iff_of_true (h.parse?_of_tokensOf (htokens.trans hts) hts) fun s hs => ?_
    by_contra hillegible
    rw [h.tokens?_eq_none_iff.mpr ⟨s, hs, by simpa using hillegible⟩] at hts
    cases hts

end SchemaHint.Sdl.Value
