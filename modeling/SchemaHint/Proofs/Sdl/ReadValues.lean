import SchemaHint.Proofs.Sdl.ValueText

/-!
# Which values are read

* `Lexed` : tokens as a text has them from some place on; what a name and an integer among them are
  is `Lexed.tokenFits`, how deep their brackets go is `Lexed.nestsWithin`;
* `Value.Moves` : the moves of the reader on the stack of what is open;
  `Value.of_readInto` : what every move keeps, a whole run keeps;
* `Value.fits_of_readConst` : every value that is read without variables can be written.
-/

namespace SchemaHint.Sdl

set_option autoImplicit false

/-! ## Tokens of texts -/

/-- What lexing says about the content of a token. -/
def TokenFits : Token → Prop
  | .name n => IsName n
  | .int n => isInt64 n = true
  | _ => True

theorem tokenFits_of_number? {cs : List Char} {t : Token} (h : number? cs = some t) :
    TokenFits t := by
  unfold number? at h
  split at h
  · split at h
    · obtain ⟨x, -, rfl⟩ := Option.map_eq_some_iff.mp h
      trivial
    · cases h
  · split at h
    · obtain ⟨n, hn, rfl⟩ := Option.map_eq_some_iff.mp h
      exact (Option.filter_eq_some_iff.mp hn).2
    · cases h

theorem isName_takeWhile {c : Char} (h : isNameStart c = true) (cs : List Char) :
    IsName (String.ofList (c :: cs.takeWhile isNameChar)) :=
  ⟨c, cs.takeWhile isNameChar, String.toList_ofList, h, List.all_eq_true.mp List.all_takeWhile⟩

theorem tokenFits_of_nextString? {cs rest : List Char} {piece : Piece}
    (h : nextString? cs = some (piece, rest)) : ∀ t ∈ piece.token?, TokenFits t := by
  unfold nextString? at h
  split at h
  · obtain ⟨_, -, heq⟩ := Option.bind_eq_some_iff.mp h
    cases heq
    rintro t ⟨⟩
    trivial
  · obtain ⟨_, -, heq⟩ := Option.bind_eq_some_iff.mp h
    obtain ⟨_, -, heq⟩ := Option.bind_eq_some_iff.mp heq
    cases heq
    rintro t ⟨⟩
    trivial

theorem tokenFits_of_next? {c : Char} {cs rest : List Char} {piece : Piece}
    (h : next? c cs = some (piece, rest)) : ∀ t ∈ piece.token?, TokenFits t := by
  unfold next? at h
  split at h
  · cases h
    rintro t ⟨⟩
  split at h
  · cases h
    rintro t ⟨⟩
  split at h
  · rename_i hc
    cases h
    rintro t ⟨⟩
    exact isName_takeWhile hc cs
  split at h
  · obtain ⟨u, hu, heq⟩ := Option.map_eq_some_iff.mp h
    cases heq
    rintro t ⟨⟩
    exact tokenFits_of_number? hu
  split at h
  · exact tokenFits_of_nextString? h
  split at h
  · cases h
    rintro t ⟨⟩
    trivial
  · obtain ⟨p, -, heq⟩ := Option.map_eq_some_iff.mp h
    cases heq
    rintro t ⟨⟩
    trivial

theorem tokenFits_of_scan {cs : List Char} {pieces : List Piece} (h : scan cs = some pieces) :
    ∀ t ∈ pieces.filterMap Piece.token?, TokenFits t := by
  induction cs using scan.induct generalizing pieces with
  | case1 =>
    rw [scan] at h
    cases h
    simp
  | case2 c cs hnext =>
    rw [scan, hnext] at h
    cases h
  | case3 c cs piece rest hnext hle ih =>
    rw [scan, hnext] at h
    dsimp only at h
    rw [dif_pos hle] at h
    obtain ⟨pieces, hrest, rfl⟩ := Option.map_eq_some_iff.mp h
    intro t ht
    obtain ⟨p, hp, hpt⟩ := List.mem_filterMap.mp ht
    rcases List.mem_cons.mp hp with rfl | hp
    · exact tokenFits_of_next? hnext t hpt
    · exact ih hrest t (List.mem_filterMap.mpr ⟨p, hp, hpt⟩)
  | case4 c cs piece rest hnext hlt =>
    rw [scan, hnext] at h
    dsimp only at h
    rw [dif_neg hlt] at h
    cases h

/-- Tokens as a text has them from some place on. -/
def Lexed (ts : List Located) : Prop := ∃ cs tokens, tokenize cs = some tokens ∧ ts <:+ tokens

/-- However many brackets the tokens before have left open, no more than the limit are. -/
theorem exists_nestsWithin_of_append {before ts : List Located} {depth : Nat}
    (hdepth : depth ≤ maxNesting) (h : nestsWithin depth (before ++ ts) = true) :
    ∃ d ≤ maxNesting, nestsWithin d ts = true := by
  induction before generalizing depth with
  | nil => exact ⟨depth, hdepth, h⟩
  | cons t before ih =>
    obtain ⟨position, t⟩ := t
    cases t with
    | punct p =>
      rw [List.cons_append, nestsWithin] at h
      split at h
      · rw [Bool.and_eq_true, decide_eq_true_eq] at h
        exact ih h.1 h.2
      split at h
      · exact ih (by omega) h
      · exact ih hdepth h
    | _ => exact ih hdepth h

namespace Lexed
variable {ts : List Located}

theorem of_suffix (h : Lexed ts) {rest : List Located} (hrest : rest <:+ ts) : Lexed rest := by
  obtain ⟨cs, tokens, htokenize, hts⟩ := h
  exact ⟨cs, tokens, htokenize, hrest.trans hts⟩

theorem tokenFits (h : Lexed ts) : ∀ t ∈ ts, TokenFits t.token := by
  obtain ⟨cs, tokens, htokenize, hts⟩ := h
  obtain ⟨pieces, hscan, rfl, -⟩ := tokenize_eq_some_iff.mp htokenize
  intro t ht
  apply tokenFits_of_scan hscan
  rw [← map_token_locate startPosition]
  exact List.mem_map_of_mem (hts.subset ht)

theorem nestsWithin (h : Lexed ts) : ∃ depth ≤ maxNesting, nestsWithin depth ts = true := by
  obtain ⟨cs, _, htokenize, before, rfl⟩ := h
  obtain ⟨pieces, -, -, hnests⟩ := tokenize_eq_some_iff.mp htokenize
  exact exists_nestsWithin_of_append (Nat.zero_le _) hnests

end Lexed

namespace Value

/-! ## Moves of the reader -/

/-- A move of the reader: with the given parts open it takes tokens off the front, and what it does
next and the tokens that are left are as said. -/
inductive Moves (withVariables : Bool) :
    List Opened → List Located → Next → List Located → Prop
  | fieldName (fields : List (String × Value)) (stack : List Opened) (p : Position) (name : String)
      (q : Position) (rest : List Located) :
      Moves withVariables (.object fields :: stack) (⟨p, .name name⟩ :: ⟨q, .punct .colon⟩ :: rest)
        (.more (.field fields name :: stack)) rest
  | closeBrace (fields : List (String × Value)) (stack : List Opened) (p : Position)
      (rest : List Located) :
      Moves withVariables (.object fields :: stack) (⟨p, .punct .closeBrace⟩ :: rest)
        (deliver (.object fields) stack) rest
  | closeBracket (items : List Value) (stack : List Opened) (p : Position) (rest : List Located) :
      Moves withVariables (.list items :: stack) (⟨p, .punct .closeBracket⟩ :: rest)
        (deliver (.list items.reverse) stack) rest
  | openBracket (stack : List Opened) (p : Position) (rest : List Located) :
      Moves withVariables stack (⟨p, .punct .openBracket⟩ :: rest) (.more (.list [] :: stack)) rest
  | openBrace (stack : List Opened) (p : Position) (rest : List Located) :
      Moves withVariables stack (⟨p, .punct .openBrace⟩ :: rest) (.more (.object [] :: stack)) rest
  | variableUse (h : withVariables = true) (stack : List Opened) (p q : Position) (name : String)
      (rest : List Located) :
      Moves withVariables stack (⟨p, .punct .dollar⟩ :: ⟨q, .name name⟩ :: rest)
        (deliver (.variableUse name) stack) rest
  | leaf {t : Token} {v : Value} (h : ofToken? t = some v) (stack : List Opened) (p : Position)
      (rest : List Located) : Moves withVariables stack (⟨p, t⟩ :: rest) (deliver v stack) rest

section Moves
variable {withVariables : Bool} {stack : List Opened} {tokens rest : List Located} {next : Next}

theorem Moves.suffix (h : Moves withVariables stack tokens next rest) : rest <:+ tokens := by
  cases h <;> simp [List.suffix_cons_iff]

theorem Moves.length_lt (h : Moves withVariables stack tokens next rest) :
    rest.length < tokens.length := by
  cases h <;> simp only [List.length_cons] <;> omega

/-- A run that reads a value starts with a move. -/
theorem exists_moves {r : Value × List Located}
    (h : readInto withVariables stack tokens = some r) :
    ∃ next rest, Moves withVariables stack tokens next rest ∧
      resume withVariables rest next = some r := by
  unfold readInto at h
  split at h
  · exact ⟨_, _, .fieldName .., h⟩
  · exact ⟨_, _, .closeBrace .., h⟩
  · cases h
  · exact ⟨_, _, .closeBracket .., h⟩
  · exact ⟨_, _, .openBracket .., h⟩
  · exact ⟨_, _, .openBrace .., h⟩
  · split at h
    case isTrue hvariables => exact ⟨_, _, .variableUse hvariables .., h⟩
    case isFalse => cases h
  · split at h
    case h_1 => cases h
    case h_2 v hv => exact ⟨_, _, .leaf hv .., h⟩
  · cases h

/-- What every move keeps, a whole run keeps. -/
theorem of_readInto {I : Next → List Located → Prop}
    (hstep : ∀ {stack tokens next rest}, Moves withVariables stack tokens next rest →
      I (.more stack) tokens → I next rest)
    {v : Value} (h : readInto withVariables stack tokens = some (v, rest))
    (hstart : I (.more stack) tokens) : I (.done v) rest := by
  -- on the number of tokens, of which every move takes at least one
  induction hn : tokens.length using Nat.strong_induction_on generalizing stack tokens with
  | _ n ih =>
    obtain ⟨next, rest', hmove, hresume⟩ := exists_moves h
    have hnext := hstep hmove hstart
    cases next with
    | done w =>
      cases hresume
      exact hnext
    | more stack' => exact ih _ (hn ▸ hmove.length_lt) hresume hnext rfl
    | stuck => cases hresume

theorem suffix_of_readInto {v : Value}
    (h : readInto withVariables stack tokens = some (v, rest)) : rest <:+ tokens :=
  of_readInto (I := fun _ ts => ts <:+ tokens) (fun hmove hts => hmove.suffix.trans hts) h
    (List.suffix_refl tokens)

end Moves

/-! ## Fields in the order of their names -/

theorem mem_insertField {name : String} {v : Value} {fields : List (String × Value)}
    {f : String × Value} (h : f ∈ insertField name v fields) : f = (name, v) ∨ f ∈ fields := by
  induction fields with
  | nil => exact .inl (List.mem_singleton.mp h)
  | cons g fields ih =>
    rw [insertField] at h
    split_ifs at h
    · exact List.mem_cons.mp h
    · exact (List.mem_cons.mp h).imp_right (List.mem_cons_of_mem g)
    · rcases List.mem_cons.mp h with rfl | h
      · exact .inr List.mem_cons_self
      · exact (ih h).imp_right (List.mem_cons_of_mem g)

theorem sorted_insertField (name : String) (v : Value) {fields : List (String × Value)}
    (h : (fields.map Prod.fst).Pairwise (· < ·)) :
    ((insertField name v fields).map Prod.fst).Pairwise (· < ·) := by
  induction fields with
  | nil => exact List.pairwise_singleton _ _
  | cons g fields ih =>
    rw [List.map_cons, List.pairwise_cons] at h
    rw [insertField]
    split_ifs with hlt heq
    · refine .cons (fun n hn => ?_) (.cons h.1 h.2)
      rcases List.mem_cons.mp hn with rfl | hn
      · exact hlt
      · exact String.lt_trans hlt (h.1 n hn)
    · rw [heq]
      exact .cons h.1 h.2
    · have hgt : g.1 < name := lt_of_le_of_ne (not_lt.mp hlt) (Ne.symm heq)
      refine .cons (fun n hn => ?_) (ih h.2)
      obtain ⟨f, hf, rfl⟩ := List.mem_map.mp hn
      rcases mem_insertField hf with rfl | hf
      · exact hgt
      · exact h.1 f.1 (List.mem_map_of_mem hf)

/-- Fields of an object that can be written while there is room for the given number of brackets
inside of it. -/
structure FieldsFit (room : Nat) (fields : List (String × Value)) : Prop where
  names : ∀ f ∈ fields, IsName f.1
  sorted : (fields.map Prod.fst).Pairwise (· < ·)
  values : ∀ f ∈ fields, Fits room f.2

theorem FieldsFit.nil (room : Nat) : FieldsFit room [] := by
  constructor <;> simp

theorem FieldsFit.insertField {room : Nat} {fields : List (String × Value)}
    (h : FieldsFit room fields) {name : String} (hname : IsName name) {v : Value}
    (hv : Fits room v) : FieldsFit room (insertField name v fields) where
  names f hf := by
    rcases mem_insertField hf with rfl | hf
    · exact hname
    · exact h.names f hf
  sorted := sorted_insertField name v h.sorted
  values f hf := by
    rcases mem_insertField hf with rfl | hf
    · exact hv
    · exact h.values f hf

/-! ## What is read can be written -/

theorem Fits.mono {room room' : Nat} {v : Value} (h : Fits room v) (hle : room ≤ room') :
    Fits room' v := by
  induction h generalizing room' with
  | leaf h => exact .leaf h
  | list hitems ih =>
    obtain ⟨r, rfl⟩ := Nat.exists_eq_add_one.mpr (Nat.lt_of_lt_of_le (Nat.succ_pos _) hle)
    exact .list fun v hv => ih v hv (by omega)
  | object hnames hsorted hvalues ih =>
    obtain ⟨r, rfl⟩ := Nat.exists_eq_add_one.mpr (Nat.lt_of_lt_of_le (Nat.succ_pos _) hle)
    exact .object hnames hsorted fun f hf => ih f hf (by omega)

theorem leafFits_of_ofToken? {t : Token} {v : Value} (ht : TokenFits t) (h : ofToken? t = some v) :
    LeafFits v := by
  cases t with
  | name n =>
    cases h
    unfold ofName
    split_ifs with htrue hfalse hnull
    · trivial
    · trivial
    · trivial
    · exact ⟨ht, by simp [htrue, hfalse, hnull]⟩
  | int n =>
    cases h
    exact ht
  | float | string =>
    cases h
    trivial
  | punct => cases h

/-- What has been read of an open part can be written. -/
def Opened.Fits (room : Nat) : Opened → Prop
  | .list items => ∀ v ∈ items, Value.Fits room v
  | .object fields => FieldsFit room fields
  | .field fields name => FieldsFit room fields ∧ IsName name

/-- What has been read of the open parts can be written. There is room for the given number of
brackets inside of the innermost of them, and for one more inside of each part around it. -/
def StackFits : Nat → List Opened → Prop
  | _, [] => True
  | room, o :: stack => o.Fits room ∧ StackFits (room + 1) stack

/-- The reader is on its way to a value that can be written; `base` brackets were open when it
started. -/
def Sound (base : Nat) : Next → List Located → Prop
  | .done v, _ => Fits maxNesting v
  | .more stack, tokens =>
    (∀ t ∈ tokens, TokenFits t.token) ∧ nestsWithin (base + stack.length) tokens = true ∧
      ∃ room, base + stack.length + room = maxNesting ∧ StackFits room stack
  | .stuck, _ => True

theorem sound_deliver {base room : Nat} {stack : List Opened} {rest : List Located} {v : Value}
    (htokens : ∀ t ∈ rest, TokenFits t.token)
    (hnests : nestsWithin (base + stack.length) rest = true)
    (hroom : base + stack.length + room = maxNesting) (hstack : StackFits room stack)
    (hv : Fits room v) : Sound base (deliver v stack) rest := by
  cases stack with
  | nil => exact hv.mono (by omega)
  | cons o stack =>
    cases o with
    | list items =>
      exact ⟨htokens, hnests, room, hroom, List.forall_mem_cons.mpr ⟨hv, hstack.1⟩, hstack.2⟩
    | object fields => trivial
    | field fields name =>
      obtain ⟨⟨hfields, hname⟩, hstack⟩ := hstack
      exact ⟨htokens, hnests, room, hroom, hfields.insertField hname hv, hstack⟩

theorem sound_open {base room : Nat} {p : Punctuator} (hp : p.opens = true) {o : Opened}
    (ho : ∀ room, o.Fits room) {stack : List Opened} {position : Position} {rest : List Located}
    (htokens : ∀ t ∈ rest, TokenFits t.token)
    (hnests : nestsWithin (base + stack.length) (⟨position, .punct p⟩ :: rest) = true)
    (hroom : base + stack.length + room = maxNesting) (hstack : StackFits room stack) :
    Sound base (.more (o :: stack)) rest := by
  rw [nestsWithin, if_pos hp, Bool.and_eq_true, decide_eq_true_eq] at hnests
  obtain ⟨r, rfl⟩ := Nat.exists_eq_add_one.mpr (show 0 < room by omega)
  exact ⟨htokens, hnests.2, r, by rw [List.length_cons]; omega, ho r, hstack⟩

/-- Every move without variables keeps the reader on its way. -/
theorem Moves.sound {base : Nat} {stack : List Opened} {tokens rest : List Located} {next : Next}
    (h : Moves false stack tokens next rest) (hsound : Sound base (.more stack) tokens) :
    Sound base next rest := by
  obtain ⟨htokens, hnests, room, hroom, hstack⟩ := hsound
  have hrest : ∀ t ∈ rest, TokenFits t.token := fun t ht => htokens t (h.suffix.subset ht)
  cases h with
  | fieldName fields stack p name q rest =>
    have hname : IsName name := htokens _ List.mem_cons_self
    exact ⟨hrest, hnests, room, hroom, ⟨hstack.1, hname⟩, hstack.2⟩
  -- a part that is closed has one bracket more than what it holds, and the room around it
  | closeBrace fields stack p rest =>
    obtain ⟨hfields, hstack⟩ := hstack
    exact sound_deliver hrest hnests (by rw [List.length_cons] at hroom; omega) hstack
      (.object hfields.names hfields.sorted hfields.values)
  | closeBracket items stack p rest =>
    obtain ⟨hitems, hstack⟩ := hstack
    exact sound_deliver hrest hnests (by rw [List.length_cons] at hroom; omega) hstack
      (.list fun v hv => hitems v (List.mem_reverse.mp hv))
  | openBracket =>
    have hempty : ∀ room, (Opened.list []).Fits room := by simp [Opened.Fits]
    exact sound_open rfl hempty hrest hnests hroom hstack
  | openBrace =>
    have hempty : ∀ room, (Opened.object []).Fits room := FieldsFit.nil
    exact sound_open rfl hempty hrest hnests hroom hstack
  | variableUse hvariables => cases hvariables
  | @leaf t v hv stack p rest =>
    have hnests' : nestsWithin (base + stack.length) rest = true := by
      cases t with
      | punct => cases hv
      | _ => exact hnests
    exact sound_deliver hrest hnests' hroom hstack
      (.leaf (leafFits_of_ofToken? (htokens _ List.mem_cons_self) hv))

/-- Every value that is read without variables from the tokens of a text can be written. -/
theorem fits_of_readConst {ts rest : List Located} {v : Value} (hts : Lexed ts)
    (h : readConst ts = some (v, rest)) : Fits maxNesting v := by
  obtain ⟨depth, hdepth, hnests⟩ := hts.nestsWithin
  have hstart : Sound depth (.more []) ts :=
    ⟨hts.tokenFits, hnests, maxNesting - depth, Nat.add_sub_cancel' hdepth, trivial⟩
  exact of_readInto Moves.sound h hstart

end Value

end SchemaHint.Sdl
