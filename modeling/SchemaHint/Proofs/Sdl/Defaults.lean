import SchemaHint.Proofs.Sdl.TypeText
import SchemaHint.Sdl.Parser
import SchemaHint.Type.Member

/-!
# Default values are read back from their texts

* `Reader.Yields` : what a reader reads from the tokens of a text has a property, and tokens of the
  text are left; each reader of the grammar has a lemma about it;
* `Document.inputDefs` : the arguments and input fields that a document defines;
* `Document.default_fits` : their default values can be written;
* `default_text_reads_back_iff` : the text of a default value is read as this value iff its strings
  hold no control characters but tabs and line ends.
-/

namespace SchemaHint.Sdl

set_option autoImplicit false

/-! ## Defaults in a document -/

/-- The default value can be written, if there is one. -/
def InputDef.DefaultFits (d : InputDef) : Prop := ∀ v, d.default = some v → v.Fits maxNesting

/-- The arguments and input fields in a body. -/
def Body.inputDefs : Body → List InputDef
  | .object _ fields | .interface _ fields => fields.flatMap FieldDef.arguments
  | .inputObject fields => fields
  | .scalar | .union _ | .enum _ => []

/-- The arguments and input fields in a definition. -/
def Definition.inputDefs : Definition → List InputDef
  | .schema _ => []
  | .type d => d.body.inputDefs
  | .extension e => e.body.inputDefs
  | .directive d => d.arguments

/-- The arguments and input fields in a document. -/
def Document.inputDefs (doc : Document) : List InputDef := doc.flatMap Definition.inputDefs

namespace Reader

/-! ## Reading from the tokens of a text -/

section Yields
variable {α β : Type} {p : α → Prop} {q : β → Prop}

/-- What is read from the tokens of a text satisfies `p`, and tokens of the text are left. -/
def Yields (r : Reader α) (p : α → Prop) : Prop :=
  ∀ ⦃ts a rest⦄, Lexed ts → r ts = some (a, rest) → Lexed rest ∧ p a

/-- Tokens of the text are left when something has been read from them. -/
def Keeps (r : Reader α) : Prop := Yields r fun _ => True

theorem keeps_of_suffix {r : Reader α} (h : ∀ {ts a rest}, r ts = some (a, rest) → rest <:+ ts) :
    Keeps r := fun _ _ _ hts hr => ⟨hts.of_suffix (h hr), trivial⟩

theorem Yields.pure {a : α} (h : p a) : Yields (pure a) p := by
  intro ts b rest hts hr
  cases hr
  exact ⟨hts, h⟩

theorem Yields.failure : Yields failure p := by
  intro ts a rest hts hr
  cases hr

theorem Yields.bind {r : Reader α} {f : α → Reader β} (h : Yields r p)
    (hf : ∀ a, p a → Yields (f a) q) : Yields (r >>= f) q := by
  intro ts b rest hts hr
  obtain ⟨⟨a, mid⟩, ha, hb⟩ := Option.bind_eq_some_iff.mp hr
  obtain ⟨hmid, hpa⟩ := h hts ha
  exact hf a hpa hmid hb

theorem Yields.map {r : Reader α} {f : α → β} (h : Yields r p) (hf : ∀ a, p a → q (f a)) :
    Yields (f <$> r) q := by
  rw [map_eq_pure_bind]
  exact h.bind fun a ha => .pure (hf a ha)

theorem Keeps.bind {r : Reader α} {f : α → Reader β} (h : Keeps r) (hf : ∀ a, Yields (f a) q) :
    Yields (r >>= f) q :=
  Yields.bind h fun a _ => hf a

theorem Yields.ite {c : Prop} [Decidable c] {r s : Reader α} (hr : Yields r p)
    (hs : Yields s p) : Yields (if c then r else s) p := by
  split
  · exact hr
  · exact hs

theorem Yields.keeps {r : Reader α} (h : Yields r p) : Keeps r :=
  fun _ _ _ hts hr => ⟨(h hts hr).1, trivial⟩

end Yields

/-! ## Tokens -/

theorem keeps_get : Keeps get := by
  intro ts a rest hts hr
  cases hr
  exact ⟨hts, trivial⟩

theorem keeps_skip : Keeps skip := by
  intro ts a rest hts hr
  cases hr
  exact ⟨hts.of_suffix (List.tail_suffix ts), trivial⟩

theorem keeps_peek : Keeps peek := keeps_get.bind fun _ => .pure trivial

theorem keeps_position : Keeps position := by
  refine keeps_get.bind fun ts => ?_
  cases ts.head? with
  | none => exact .failure
  | some t => exact .pure trivial

theorem keeps_atPunct (p : Punctuator) : Keeps (atPunct p) := keeps_peek.bind fun _ => .pure trivial

theorem keeps_atWord (word : String) : Keeps (atWord word) := keeps_peek.bind fun _ => .pure trivial

theorem keeps_punct (p : Punctuator) : Keeps (punct p) :=
  (keeps_atPunct p).bind fun _ => .ite keeps_skip .failure

theorem keeps_word (w : String) : Keeps (word w) :=
  (keeps_atWord w).bind fun _ => .ite keeps_skip .failure

theorem keeps_punct? (p : Punctuator) : Keeps (punct? p) :=
  (keeps_atPunct p).bind fun _ => .ite (keeps_skip.bind fun _ => .pure trivial) (.pure trivial)

theorem keeps_word? (w : String) : Keeps (word? w) :=
  (keeps_atWord w).bind fun _ => .ite (keeps_skip.bind fun _ => .pure trivial) (.pure trivial)

theorem keeps_name : Keeps name := by
  refine keeps_peek.bind fun t => ?_
  split
  · exact keeps_skip.bind fun _ => .pure trivial
  · exact .failure

/-! ## Repetition -/

section Repetition
variable {α : Type} {part : Reader α} {p : α → Prop}

theorem yields_many (h : Yields part p) (starts : Token → Bool) :
    Yields (many starts part) fun parts => ∀ a ∈ parts, p a := by
  intro ts parts rest hts hr
  fun_induction many starts part ts generalizing parts with
  | case1 =>
    cases hr
    exact ⟨hts, by simp⟩
  | case2 => cases hr
  | case3 t ts hstarts a rest' hpart hle ih =>
    obtain ⟨⟨others, _⟩, hothers, heq⟩ := Option.map_eq_some_iff.mp hr
    cases heq
    obtain ⟨hrest', ha⟩ := h hts hpart
    obtain ⟨hrest, hall⟩ := ih hrest' hothers
    exact ⟨hrest, List.forall_mem_cons.mpr ⟨ha, hall⟩⟩
  | case4 => cases hr
  | case5 =>
    cases hr
    exact ⟨hts, by simp⟩

theorem yields_many1 (h : Yields part p) (starts : Token → Bool) :
    Yields (many1 starts part) fun parts => ∀ a ∈ parts, p a :=
  h.bind fun _ ha => (yields_many h starts).bind fun _ hothers =>
    .pure (List.forall_mem_cons.mpr ⟨ha, hothers⟩)

theorem keeps_separated1 (h : Keeps part) (sep : Punctuator) : Keeps (separated1 sep part) :=
  h.bind fun _ => (yields_many (keeps_skip.bind fun _ => h) _).keeps.bind fun _ => .pure trivial

theorem yields_ifPunct_enclosed1 (h : Yields part p) (opening closing : Punctuator) :
    Yields (ifPunct opening (enclosed1 opening closing part)) fun parts => ∀ a ∈ parts, p a := by
  have henclosed : Yields (enclosed1 opening closing part) fun parts => ∀ a ∈ parts, p a :=
    (keeps_punct opening).bind fun _ => (yields_many1 h _).bind fun _ hparts =>
      (keeps_punct closing).bind fun _ => .pure hparts
  exact (keeps_atPunct opening).bind fun _ => .ite henclosed (.pure (by simp))

end Repetition

/-! ## Parts of definitions -/

theorem keeps_description? : Keeps description? := by
  refine keeps_peek.bind fun t => ?_
  split
  · exact keeps_skip.bind fun _ => .pure trivial
  · exact .pure trivial

theorem keeps_typeExpr : Keeps typeExpr := keeps_of_suffix TypeExpr.suffix_of_read

theorem keeps_argument : Keeps argument :=
  keeps_name.bind fun _ => (keeps_punct .colon).bind fun _ =>
    (keeps_of_suffix Value.suffix_of_readInto).bind fun _ => .pure trivial

theorem keeps_application : Keeps application :=
  (keeps_punct .atSign).bind fun _ => keeps_name.bind fun _ =>
    (yields_ifPunct_enclosed1 keeps_argument .openParen .closeParen).keeps.bind fun _ =>
      .pure trivial

theorem keeps_directives : Keeps directives := (yields_many keeps_application _).keeps

theorem yields_readConst : Yields Value.readConst (Value.Fits maxNesting) :=
  fun _ _ _ hts hr => ⟨hts.of_suffix (Value.suffix_of_readInto hr), Value.fits_of_readConst hts hr⟩

theorem yields_inputDef : Yields inputDef InputDef.DefaultFits := by
  refine keeps_position.bind fun p => keeps_description?.bind fun d => keeps_name.bind fun n =>
    (keeps_punct .colon).bind fun _ => keeps_typeExpr.bind fun t =>
      (keeps_punct? .equals).bind fun _ => .ite ?_ ?_
  -- what follows the default is read in both cases alike and leaves it as it is
  · have hdefault : Yields (some <$> (Value.readConst : Reader Value)) fun o =>
        ∀ v, o = some v → v.Fits maxNesting :=
      yields_readConst.map fun v hv => by simpa using hv
    exact hdefault.bind fun _ ho => keeps_directives.bind fun _ => .pure ho
  · have hnone : Yields (pure none) fun o : Option Value => ∀ v, o = some v → v.Fits maxNesting :=
      .pure (by simp)
    exact hnone.bind fun _ ho => keeps_directives.bind fun _ => .pure ho

theorem yields_arguments? : Yields arguments? fun ds => ∀ d ∈ ds, d.DefaultFits :=
  yields_ifPunct_enclosed1 yields_inputDef .openParen .closeParen

theorem yields_fieldDef : Yields fieldDef fun f => ∀ d ∈ f.arguments, d.DefaultFits :=
  keeps_position.bind fun _ => keeps_description?.bind fun _ => keeps_name.bind fun _ =>
    yields_arguments?.bind fun _ harguments => (keeps_punct .colon).bind fun _ =>
      keeps_typeExpr.bind fun _ => keeps_directives.bind fun _ => .pure harguments

theorem keeps_enumValueDef : Keeps enumValueDef :=
  keeps_position.bind fun _ => keeps_description?.bind fun _ => keeps_name.bind fun _ =>
    keeps_directives.bind fun _ => .pure trivial

theorem yields_members? {α : Type} {part : Reader α} {p : α → Prop} (h : Yields part p) :
    Yields (members? part) fun parts => ∀ a ∈ parts, p a :=
  yields_ifPunct_enclosed1 h .openBrace .closeBrace

theorem keeps_interfaces? : Keeps interfaces? :=
  (keeps_word? "implements").bind fun _ =>
    .ite ((keeps_punct? .ampersand).bind fun _ => keeps_separated1 keeps_name .ampersand)
      (.pure trivial)

theorem keeps_unionMembers? : Keeps unionMembers? :=
  (keeps_punct? .equals).bind fun _ =>
    .ite ((keeps_punct? .pipe).bind fun _ => keeps_separated1 keeps_name .pipe) (.pure trivial)

theorem yields_typeRest (keyword : String) :
    Yields (typeRest keyword) fun r => ∀ d ∈ r.2.2.inputDefs, d.DefaultFits := by
  refine keeps_name.bind fun n => ?_
  split
  · exact keeps_directives.bind fun _ => .pure (by simp [Body.inputDefs])
  · exact keeps_interfaces?.bind fun _ => keeps_directives.bind fun _ =>
      (yields_members? yields_fieldDef).bind fun _ h => .pure (List.forall_mem_flatMap.mpr h)
  · exact keeps_interfaces?.bind fun _ => keeps_directives.bind fun _ =>
      (yields_members? yields_fieldDef).bind fun _ h => .pure (List.forall_mem_flatMap.mpr h)
  · exact keeps_directives.bind fun _ => keeps_unionMembers?.bind fun _ =>
      .pure (by simp [Body.inputDefs])
  · exact keeps_directives.bind fun _ => (yields_members? keeps_enumValueDef).keeps.bind fun _ =>
      .pure (by simp [Body.inputDefs])
  · exact keeps_directives.bind fun _ => (yields_members? yields_inputDef).bind fun _ h => .pure h
  · exact .failure

/-! ## Definitions -/

theorem yields_typeDef (description : Option String) :
    Yields (typeDef description) fun d => ∀ i ∈ d.body.inputDefs, i.DefaultFits :=
  keeps_position.bind fun _ => keeps_name.bind fun keyword =>
    (yields_typeRest keyword).bind fun _ hbody => .pure hbody

theorem yields_typeExtension :
    Yields typeExtension fun e => ∀ i ∈ e.body.inputDefs, i.DefaultFits := by
  refine keeps_position.bind fun p => keeps_name.bind fun keyword =>
    (yields_typeRest keyword).bind fun r hbody => .ite ?_ (.pure hbody)
  have hfailure : Keeps (failure : Reader Unit) := .failure
  exact hfailure.bind fun _ => .pure hbody

theorem keeps_directiveLocation : Keeps directiveLocation := by
  refine keeps_name.bind fun n => ?_
  split
  · exact .pure trivial
  · exact .failure

theorem keeps_directiveLocations : Keeps directiveLocations := by
  refine (keeps_punct? .pipe).bind fun _ => .ite (keeps_separated1 keeps_directiveLocation .pipe) ?_
  refine keeps_peek.bind fun t => ?_
  split
  · exact keeps_separated1 keeps_directiveLocation .pipe
  · exact .pure trivial

theorem yields_directiveDef (description : Option String) :
    Yields (directiveDef description) fun d => ∀ i ∈ d.arguments, i.DefaultFits :=
  keeps_position.bind fun _ => (keeps_word "directive").bind fun _ =>
    (keeps_punct .atSign).bind fun _ => keeps_name.bind fun _ =>
      yields_arguments?.bind fun _ harguments => (keeps_word? "repeatable").bind fun _ =>
        (keeps_word "on").bind fun _ => keeps_directiveLocations.bind fun _ => .pure harguments

theorem keeps_rootType : Keeps rootType :=
  keeps_name.bind fun _ => (keeps_punct .colon).bind fun _ => keeps_name.bind fun _ => .pure trivial

theorem keeps_schemaDef : Keeps schemaDef := by
  refine keeps_position.bind fun p => (keeps_word "schema").bind fun _ =>
    keeps_directives.bind fun ds => (keeps_punct .openBrace).bind fun _ =>
      (yields_many keeps_rootType _).keeps.bind fun entries =>
        (keeps_punct .closeBrace).bind fun _ => ?_
  split
  · exact .pure trivial
  · exact .failure

theorem yields_definition : Yields definition fun d => ∀ i ∈ d.inputDefs, i.DefaultFits := by
  refine (keeps_atWord "schema").bind fun _ => .ite ?_ ((keeps_word? "extend").bind fun _ =>
    .ite ?_ (keeps_description?.bind fun d => (keeps_atWord "directive").bind fun _ => .ite ?_ ?_))
  · exact keeps_schemaDef.bind fun _ => .pure (by simp [Definition.inputDefs])
  · exact yields_typeExtension.bind fun _ h => .pure h
  · exact (yields_directiveDef d).bind fun _ h => .pure h
  · exact (yields_typeDef d).bind fun _ h => .pure h

theorem yields_document : Yields document fun doc => ∀ d ∈ doc.inputDefs, d.DefaultFits := by
  intro ts doc rest hts hr
  obtain ⟨hrest, hdoc⟩ := yields_many1 yields_definition _ hts hr
  exact ⟨hrest, List.forall_mem_flatMap.mpr hdoc⟩

end Reader

/-- The default values in a document can be written. -/
theorem Document.default_fits {text : String} {doc : Document} (h : Document.parse? text = some doc)
    {d : InputDef} (hd : d ∈ doc.inputDefs) {v : Value} (hv : d.default = some v) :
    v.Fits maxNesting := by
  unfold Document.parse? at h
  split at h
  · cases h
  · rename_i tokens htokens
    obtain ⟨⟨_, rest⟩, hread, rfl⟩ := Option.map_eq_some_iff.mp h
    have hlexed : Lexed tokens := ⟨text.toList, tokens, htokens, List.suffix_refl tokens⟩
    exact (Reader.yields_document hlexed hread).2 d hd v hv

/-! ## Control characters -/

/-- A control character. -/
def IsControl (c : Char) : Prop := c.toNat < 0x20 ∨ 0x7F ≤ c.toNat ∧ c.toNat < 0xA0

instance (c : Char) : Decidable (IsControl c) :=
  inferInstanceAs (Decidable (c.toNat < 0x20 ∨ 0x7F ≤ c.toNat ∧ c.toNat < 0xA0))

/-- Among the ASCII characters those are legible that are not control characters but tabs and line
ends. -/
theorem isLegible_iff_of_lt {c : Char} (h : c.toNat < 128) :
    isLegible c = true ↔ (IsControl c → c = '\t' ∨ c = '\n' ∨ c = '\r') := by
  have hvisible : Text.isVisible c = true ↔ ¬ IsControl c := by
    by_cases hlt : c.toNat < 0x7F
    · simp only [Text.isVisible, if_pos hlt, decide_eq_true_eq, IsControl]
      omega
    · -- the last ASCII character, which is hidden though it stands above the visible ones
      have heq : c.toNat = 0x7F := by omega
      simp only [Text.isVisible, heq, IsControl]
      decide
  simp only [isLegible, Bool.or_eq_true, decide_eq_true_eq, hvisible]
  tauto

/-- A value that can be written, without floating point numbers and with ASCII strings only, is read
back from its text iff the strings hold no control characters but tabs and line ends. -/
theorem Value.Fits.parse?_text_iff {v : Value} (h : v.Fits maxNesting) (hfloats : v.floats = [])
    (hascii : ∀ s ∈ v.strings, ∀ c ∈ s.toList, c.toNat < 128) :
    Value.parse? v.text.toList = some v ↔
      ∀ s ∈ v.strings, ∀ c ∈ s.toList, IsControl c → c = '\t' ∨ c = '\n' ∨ c = '\r' := by
  rw [Value.text, String.toList_ofList, h.parse?_chars_iff (floats_eq_nil_iff.mp hfloats),
    ← forall_strings_iff (p := fun s => s.toList.all isLegible = true)]
  refine forall₂_congr fun s hs => ?_
  rw [List.all_eq_true]
  exact forall₂_congr fun c hc => isLegible_iff_of_lt (hascii s hs c hc)

/-- A default value without floating point numbers and with ASCII strings only is given by its
text, and is read back from it iff its strings hold no control characters but tabs and line ends. -/
theorem default_text_reads_back_iff {text : String} {doc : Document}
    (hdoc : Document.parse? text = some doc) {d : InputDef} (hd : d ∈ doc.inputDefs) {v : Value}
    (hv : d.default = some v) (hfloats : v.floats = [])
    (hascii : ∀ s ∈ v.strings, ∀ c ∈ s.toList, c.toNat < 128) :
    (∀ path, (InputValue.ofDef path d).default = some v.text) ∧
      (Value.parse? v.text.toList = some v ↔
        ∀ s ∈ v.strings, ∀ c ∈ s.toList, IsControl c → c = '\t' ∨ c = '\n' ∨ c = '\r') := by
  refine ⟨fun path => ?_, (Document.default_fits hdoc hd hv).parse?_text_iff hfloats hascii⟩
  rw [InputValue.ofDef, hv]
  rfl

theorem forall_chars_iff {ss : List String} {p : Char → Prop} [DecidablePred p] :
    (∀ s ∈ ss, ∀ c ∈ s.toList, p c) ↔ (ss.all fun s => s.toList.all fun c => p c) = true := by
  simp only [List.all_eq_true, decide_eq_true_eq]

/-- A text of which a default value is seen to pass a test is read as a document with such a
value. -/
theorem exists_default_of_test {text : String} {p : Value → Prop} [DecidablePred p]
    (h : ((Document.parse? text).any fun doc =>
      doc.inputDefs.any fun d => d.default.any fun v => p v) = true) :
    ∃ doc, Document.parse? text = some doc ∧
      ∃ d ∈ doc.inputDefs, ∃ v, d.default = some v ∧ p v := by
  obtain ⟨doc, hdoc, h⟩ := (Option.any_eq_true _ _).mp h
  obtain ⟨d, hd, h⟩ := List.any_eq_true.mp h
  obtain ⟨v, hv, h⟩ := (Option.any_eq_true _ _).mp h
  exact ⟨doc, hdoc, d, hd, v, hv, of_decide_eq_true h⟩

/-- A directive with a default value that is read back and one that is not: its string holds a bell,
which is written in a form that the language does not know. -/
def gateText : String :=
  "directive @gate(alarm: String = \"\\u0007\", " ++
    "tags: [Tag] = [\"a\\t\\\"b\\\"\", \x7bsize: -3, latch: [OPEN, null, true]\x7d]) on FIELD"

theorem default_text_reads_back_gateText :
    (∃ doc, Document.parse? gateText = some doc ∧ ∃ d ∈ doc.inputDefs, ∃ v, d.default = some v ∧
      v.text = "[\"a\\t\\\"b\\\"\", \x7blatch: [OPEN, null, true], size: -3\x7d]" ∧
      Value.parse? v.text.toList = some v) ∧
    ∃ doc, Document.parse? gateText = some doc ∧ ∃ d ∈ doc.inputDefs, ∃ v, d.default = some v ∧
      v.text = "\"\\u\x7b7\x7d\"" ∧ Value.parse? v.text.toList ≠ some v := by
  constructor
  · obtain ⟨doc, hdoc, d, hd, v, hv, hfloats, hstrings, htext⟩ :=
      @exists_default_of_test gateText (fun v => v.floats = [] ∧ v.strings = ["a\t\"b\""] ∧
        v.text = "[\"a\\t\\\"b\\\"\", \x7blatch: [OPEN, null, true], size: -3\x7d]")
        _ (by decide +kernel)
    obtain ⟨-, hiff⟩ := default_text_reads_back_iff hdoc hd hv hfloats
      (forall_chars_iff.mpr (by rw [hstrings]; decide))
    exact ⟨doc, hdoc, d, hd, v, hv, htext,
      hiff.mpr (forall_chars_iff.mpr (by rw [hstrings]; decide))⟩
  · obtain ⟨doc, hdoc, d, hd, v, hv, hfloats, hstrings, htext⟩ :=
      @exists_default_of_test gateText (fun v => v.floats = [] ∧ v.strings = ["\x07"] ∧
        v.text = "\"\\u\x7b7\x7d\"") _ (by decide +kernel)
    obtain ⟨-, hiff⟩ := default_text_reads_back_iff hdoc hd hv hfloats
      (forall_chars_iff.mpr (by rw [hstrings]; decide))
    refine ⟨doc, hdoc, d, hd, v, hv, htext, fun hback => ?_⟩
    have hall := forall_chars_iff.mp (hiff.mp hback)
    rw [hstrings] at hall
    exact absurd hall (by decide)

end SchemaHint.Sdl
