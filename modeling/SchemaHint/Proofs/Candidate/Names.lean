import SchemaHint.Candidate.Generate
import SchemaHint.Proofs.Context.Typing

/-!
# Offered names

The names that are offered inside a selection set, a list of arguments or an object value are
exactly those that the chain would resolve if they were written there.

* `Candidate.atLeaf` : what is offered at the leaf of a chain;
* `Candidate.NamesAgree` : offered names are resolved, resolved names are offered, with the text of
  the same type;
* `Candidate.NamesAgree.of_source` : how to show it for names drawn from some part of the context;
* `Candidate.fields_agree`, `Candidate.arguments_agree`, `Candidate.objectFields_agree` : it holds of
  fields, arguments and input fields.
-/

namespace SchemaHint

set_option autoImplicit false

namespace Candidate

open Chain (Kind State)
open Context (resolve)

/-- The candidates at the leaf of a chain. -/
def atLeaf (s : Schema) (c : Chain) (fragments : List KnownFragment) : Option (List Candidate) :=
  c.leaf.bind fun leaf => generate s (resolve s c) leaf c.leafAncestorKind fragments

/-- The state is of the kind and has the name written in it. -/
def Writes (kind : Kind) (x : String) (state : State) : Prop :=
  state.kind = kind ∧ state.name = some x

/-- Names offered at the leaf of a chain `p` are those that resolve when a state of the given kind
follows with the name in it: `known` says whether the context at `p` has what the names are drawn
from, `found` what it means that a name resolves to an annotation, and `hidden` which names are kept
back. -/
structure NamesAgree (s : Schema) (p : Chain) (fragments : List KnownFragment) (kind : Kind)
    (known : Context → Bool) (found : Context → String → AnnotatedType → Prop)
    (hidden : String → Prop) : Prop where
  none_iff : atLeaf s p fragments = none ↔ known (resolve s p) = false
  unresolved : known (resolve s p) = false →
    ∀ x state a, Writes kind x state → ¬ found (resolve s (p ++ [state])) x a
  distinct : ∀ cs, atLeaf s p fragments = some cs → (cs.map Candidate.text).Nodup
  offered_iff : ∀ cs, atLeaf s p fragments = some cs → ∀ x state, Writes kind x state →
    ((∃ c ∈ cs, c.text = x) ↔ (∃ a, found (resolve s (p ++ [state])) x a) ∧ ¬ hidden x)
  type_text : ∀ cs, atLeaf s p fragments = some cs → ∀ c ∈ cs, ∀ state a,
    Writes kind c.text state → found (resolve s (p ++ [state])) c.text a →
      c.type.map CandidateType.text = some a.text
  hidden_found : ∀ x, hidden x → ∀ state, Writes kind x state →
    ∃ a, found (resolve s (p ++ [state])) x a
  /-- The same names are offered while one of them is being written. -/
  writing : ∀ state, state.kind = kind → kind.isField = true ∨ state.step = 0 →
    atLeaf s (p ++ [state]) fragments = atLeaf s p fragments

/-! ## Names drawn from a list -/

theorem text_ofAnnotated (s : Schema) (a : AnnotatedType) :
    (CandidateType.ofAnnotated s a).text = a.text := by
  have hchars : (CandidateType.ofAnnotated s a).chars = a.chars := by
    induction a with
    | list item nullable location ih => rw [CandidateType.ofAnnotated, CandidateType.chars, ih]; rfl
    | named name nullable location => rfl
  rw [CandidateType.text, AnnotatedType.text, hchars]

section Source
variable {s : Schema} {p : Chain} {fragments : List KnownFragment} {kind : Kind}
  {known : Context → Bool} {found : Context → String → AnnotatedType → Prop}
  {hidden : String → Prop} {κ β : Type}

/-- Names agree when the elements that are listed under different names are those that resolve. -/
theorem NamesAgree.of_source (source : Option κ) (list : κ → List β) (make : β → Candidate)
    (name : β → String) (type : β → AnnotatedType)
    (hoffered : atLeaf s p fragments = source.map fun k => (list k).map make)
    (hmake : ∀ b, (make b).text = name b ∧ (make b).type = some (.ofAnnotated s (type b)))
    (hknown : known (resolve s p) = source.isSome)
    (hdistinct : ∀ k, source = some k → ((list k).map name).Nodup)
    (hfound : ∀ x state a, Writes kind x state →
      ((found (resolve s (p ++ [state])) x a ∧ ¬ hidden x) ↔
        ∃ k, source = some k ∧ ∃ b ∈ list k, name b = x ∧ type b = a))
    (hhidden : ∀ x, hidden x → source.isSome = true ∧ ∀ state, Writes kind x state →
      ∃ a, found (resolve s (p ++ [state])) x a)
    (hwriting : ∀ state, state.kind = kind → kind.isField = true ∨ state.step = 0 →
      atLeaf s (p ++ [state]) fragments = atLeaf s p fragments) :
    NamesAgree s p fragments kind known found hidden where
  none_iff := by
    rw [hoffered, hknown, Option.map_eq_none_iff, Option.isSome_eq_false_iff, Option.isNone_iff_eq_none]
  unresolved hunknown x state a hstate hfound' := by
    rw [hknown] at hunknown
    by_cases hx : hidden x
    · rw [(hhidden x hx).1] at hunknown
      cases hunknown
    · obtain ⟨k, hk, -⟩ := (hfound x state a hstate).mp ⟨hfound', hx⟩
      rw [hk] at hunknown
      cases hunknown
  distinct cs hcs := by
    rw [hoffered] at hcs
    obtain ⟨k, hk, rfl⟩ := Option.map_eq_some_iff.mp hcs
    have htext : (fun b => (make b).text) = name := funext fun b => (hmake b).1
    rw [List.map_map, Function.comp_def, htext]
    exact hdistinct k hk
  offered_iff cs hcs x state hstate := by
    rw [hoffered] at hcs
    obtain ⟨k, hk, rfl⟩ := Option.map_eq_some_iff.mp hcs
    constructor
    · rintro ⟨c, hc, htext⟩
      obtain ⟨b, hb, rfl⟩ := List.mem_map.mp hc
      rw [(hmake b).1] at htext
      obtain ⟨hf, hh⟩ := (hfound x state _ hstate).mpr ⟨k, hk, b, hb, htext, rfl⟩
      exact ⟨⟨_, hf⟩, hh⟩
    · rintro ⟨⟨a, hf⟩, hh⟩
      obtain ⟨k', hk', b, hb, hname, -⟩ := (hfound x state a hstate).mp ⟨hf, hh⟩
      cases hk.symm.trans hk'
      exact ⟨make b, List.mem_map_of_mem hb, (hmake b).1.trans hname⟩
  type_text cs hcs c hc state a hstate hf := by
    rw [hoffered] at hcs
    obtain ⟨k, hk, rfl⟩ := Option.map_eq_some_iff.mp hcs
    obtain ⟨b, hb, rfl⟩ := List.mem_map.mp hc
    have hh : ¬ hidden (make b).text :=
      ((hfound _ state _ hstate).mpr ⟨k, hk, b, hb, (hmake b).1.symm, rfl⟩).2
    obtain ⟨k', hk', b', hb', hname, rfl⟩ := (hfound _ state a hstate).mp ⟨hf, hh⟩
    cases hk.symm.trans hk'
    -- the name tells which element of the list it is
    have heq : b' = b :=
      List.inj_on_of_nodup_map (hdistinct k hk) hb' hb (hname.trans (hmake b).1)
    rw [heq, (hmake b).2, Option.map_some, text_ofAnnotated]
  hidden_found x hx := (hhidden x hx).2
  writing := hwriting

end Source

/-! ## Positions of names -/

section Positions
variable {s : Schema} {ctx : Context} {p : Chain} {leaf : State} {ancestor : Option Kind}
  {fragments : List KnownFragment}

theorem atLeaf_of_leaf (h : p.leaf = some leaf) :
    atLeaf s p fragments = generate s (resolve s p) leaf p.leafAncestorKind fragments := by
  rw [atLeaf, h, Option.bind_some]

theorem leaf_append_singleton (p : Chain) (state : State) :
    Chain.leaf (p ++ [state]) = some state := by
  rw [Chain.leaf, List.getLast?_concat]

theorem generate_fieldNames (h : leaf.kind = .selectionSet ∨ leaf.kind.isField = true) :
    generate s ctx leaf ancestor fragments = fieldNames s ctx := by
  unfold generate
  cases hkind : leaf.kind <;> rw [hkind] at h <;> first | rfl | simp [Kind.isField] at h

theorem generate_argumentNames (h : leaf.kind = .arguments ∨ leaf.kind = .argument ∧ leaf.step = 0) :
    generate s ctx leaf ancestor fragments = argumentNames s ctx := by
  unfold generate
  rcases h with hkind | ⟨hkind, hstep⟩
  · rw [hkind]
  · rw [hkind]
    exact if_pos hstep

theorem generate_objectFieldNames
    (h : leaf.kind = .objectValue ∨ leaf.kind = .objectField ∧ leaf.step = 0) :
    generate s ctx leaf ancestor fragments = objectFieldNames s ctx := by
  unfold generate
  rcases h with hkind | ⟨hkind, hstep⟩
  · rw [hkind]
  · rw [hkind]
    exact if_pos hstep

end Positions

/-! ## Fields -/

/-- A field of the name is selected, with the annotation as its type. -/
def FoundField (ctx : Context) (x : String) (a : AnnotatedType) : Prop :=
  ∃ f, ctx.field = some f ∧ f.name = x ∧ f.type = a

/-- `__typename` is not offered on objects. -/
def HidesTypename (ctx : Context) (x : String) : Prop :=
  x = "__typename" ∧ ∃ parent, ctx.parent = some parent ∧ parent.kind = .object

/-- The fields that a type declares. -/
def declared (parent : NamedType) : List Field := (parent.fields?.map Keyed.values).getD []

/-- The meta fields that are offered on a type. -/
def offeredMeta (s : Schema) (parent : NamedType) : List Field :=
  (if parent.isAbstract then [MetaField.typename] else []) ++
    if s.isQueryType parent then [MetaField.schema, MetaField.type] else []

theorem fieldNames_eq (s : Schema) (ctx : Context) :
    fieldNames s ctx =
      ctx.parent.map fun parent => (declared parent ++ offeredMeta s parent).map (ofField s) := by
  simp only [fieldNames, declared, offeredMeta, List.append_assoc]

section Fields
variable {s : Schema} {parent : NamedType} {f : Field} {x : String}

theorem declared_iff (hfit : s.TypeFits parent) :
    (parent.fields?.bind fun fields => fields.get? x) = some f ↔ f ∈ declared parent ∧ f.name = x := by
  cases hfields : parent.fields? with
  | none => simp [declared, hfields]
  | some fields =>
      have hindexed := hfit.fields_indexed fields hfields
      rw [Option.bind_some, hindexed.get?_eq_some_iff, declared, hfields]
      rfl

theorem declared_open (hfit : s.TypeFits parent) (hf : f ∈ declared parent) :
    isReserved f.name = false := by
  cases hfields : parent.fields? with
  | none =>
      rw [declared, hfields] at hf
      cases hf
  | some fields =>
      rw [declared, hfields] at hf
      exact (hfit.fields_fit fields hfields f hf).name_open

theorem reserved_of_mem_offeredMeta (hf : f ∈ offeredMeta s parent) : isReserved f.name = true := by
  have hmem : f ∈ [MetaField.typename] ++ [MetaField.schema, MetaField.type] := by
    rw [offeredMeta, List.mem_append] at hf
    rw [List.mem_append]
    refine hf.imp (fun hf => ?_) fun hf => ?_
    · split at hf
      · exact hf
      · cases hf
    · split at hf
      · exact hf
      · cases hf
  have hreserved : ∀ f ∈ [MetaField.typename] ++ [MetaField.schema, MetaField.type],
      isReserved f.name = true := by
    decide
  exact hreserved f hmem

theorem offered_nodup (hfit : s.TypeFits parent) :
    ((declared parent ++ offeredMeta s parent).map Field.name).Nodup := by
  rw [List.map_append, List.nodup_append]
  refine ⟨?_, ?_, ?_⟩
  · cases hfields : parent.fields? with
    | none => simp [declared, hfields]
    | some fields =>
        rw [declared, hfields]
        exact (hfit.fields_indexed fields hfields).2
  · rw [offeredMeta]
    cases parent.isAbstract <;> cases s.isQueryType parent <;> decide
  · intro n hn m hm hnm
    obtain ⟨f, hf, rfl⟩ := List.mem_map.mp hn
    obtain ⟨g, hg, rfl⟩ := List.mem_map.mp hm
    have hopen := declared_open hfit hf
    rw [hnm, reserved_of_mem_offeredMeta hg] at hopen
    cases hopen

theorem field?_of_not_reserved (hx : isReserved x = false) :
    s.field? parent x = parent.fields?.bind fun fields => fields.get? x := by
  have hne : ∀ n, isReserved n = true → x ≠ n := by
    rintro n hn rfl
    rw [hn] at hx
    cases hx
  rw [Schema.field?]
  simp [hne "__schema" (by decide), hne "__type" (by decide), hne "__typename" (by decide)]

theorem field?_of_reserved (hfit : s.TypeFits parent) (hx : isReserved x = true) :
    s.field? parent x = some f ↔
      (s.isQueryType parent = true ∧
          (x = "__schema" ∧ f = MetaField.schema ∨ x = "__type" ∧ f = MetaField.type)) ∨
        parent.isComposite = true ∧ x = "__typename" ∧ f = MetaField.typename := by
  have hdeclared : (parent.fields?.bind fun fields => fields.get? x) ≠ some f := by
    intro h
    obtain ⟨hf, rfl⟩ := (declared_iff hfit).mp h
    rw [declared_open hfit hf] at hx
    cases hx
  rw [Schema.field?]
  by_cases h₁ : x = "__schema"
  · subst h₁
    cases s.isQueryType parent <;> simp [hdeclared, @eq_comm _ f]
  by_cases h₂ : x = "__type"
  · subst h₂
    cases s.isQueryType parent <;> simp [hdeclared, @eq_comm _ f]
  by_cases h₃ : x = "__typename"
  · subst h₃
    cases parent.isComposite <;> simp [hdeclared, @eq_comm _ f]
  · simp [h₁, h₂, h₃, hdeclared]

theorem mem_offeredMeta_iff :
    f ∈ offeredMeta s parent ↔
      parent.isAbstract = true ∧ f = MetaField.typename ∨
        s.isQueryType parent = true ∧ (f = MetaField.schema ∨ f = MetaField.type) := by
  rw [offeredMeta, List.mem_append]
  cases parent.isAbstract <;> cases s.isQueryType parent <;> simp

theorem isAbstract_iff : parent.isAbstract = true ↔
    parent.isComposite = true ∧ parent.kind ≠ .object := by
  rw [NamedType.isAbstract, NamedType.isComposite]
  cases parent.kind <;> decide

/-- What is offered on a type is what a selection on it finds, except for `__typename` on objects. -/
theorem offered_iff_field? (hfit : s.TypeFits parent) :
    (f ∈ declared parent ++ offeredMeta s parent ∧ f.name = x) ↔
      s.field? parent x = some f ∧ ¬ (x = "__typename" ∧ parent.kind = .object) := by
  rw [List.mem_append]
  cases hx : isReserved x with
  | false =>
      have hne : x ≠ "__typename" := by
        rintro rfl
        cases hx
      have hmeta : f ∈ offeredMeta s parent → f.name ≠ x := by
        rintro hf rfl
        rw [reserved_of_mem_offeredMeta hf] at hx
        cases hx
      rw [field?_of_not_reserved hx, declared_iff hfit]
      tauto
  | true =>
      have hdeclared : f ∈ declared parent → f.name ≠ x := by
        rintro hf rfl
        rw [declared_open hfit hf] at hx
        cases hx
      rw [field?_of_reserved hfit hx, mem_offeredMeta_iff, isAbstract_iff]
      constructor
      · rintro ⟨hf | ⟨⟨hcomposite, hobject⟩, rfl⟩ | ⟨hquery, rfl | rfl⟩, rfl⟩
        · exact absurd rfl (hdeclared hf)
        · exact ⟨Or.inr ⟨hcomposite, rfl, rfl⟩, fun h => hobject h.2⟩
        · exact ⟨Or.inl ⟨hquery, Or.inl ⟨rfl, rfl⟩⟩, fun h => absurd h.1 (by decide)⟩
        · exact ⟨Or.inl ⟨hquery, Or.inr ⟨rfl, rfl⟩⟩, fun h => absurd h.1 (by decide)⟩
      · rintro ⟨⟨hquery, ⟨rfl, rfl⟩ | ⟨rfl, rfl⟩⟩ | ⟨hcomposite, rfl, rfl⟩, hobject⟩
        · exact ⟨Or.inr (Or.inr ⟨hquery, Or.inl rfl⟩), rfl⟩
        · exact ⟨Or.inr (Or.inr ⟨hquery, Or.inr rfl⟩), rfl⟩
        · exact ⟨Or.inr (Or.inl ⟨⟨hcomposite, fun h => hobject ⟨rfl, h⟩⟩, rfl⟩), rfl⟩

end Fields

/-! ## Agreement -/

section Agreement
variable {s : Schema} {p : Chain} {leaf : State}

/-- In a selection set the context has a type to select on as soon as it has a parent. -/
theorem selected?_of_selectionSet (hleaf : p.leaf = some leaf) (hkind : leaf.kind = .selectionSet)
    (x : String) :
    (resolve s p).selected? s (some x) =
      (resolve s p).parent.bind fun parent => s.field? parent x := by
  obtain ⟨q, rfl⟩ := List.getLast?_eq_some_iff.mp hleaf
  rw [Context.resolve_append_singleton, Context.enter_selectionSet hkind, Context.selected?_eq,
    Context.selectedOn?_eq_parent rfl]
  rfl

theorem fields_agree (hs : s.WellFormed) (hleaf : p.leaf = some leaf)
    (hkind : leaf.kind = .selectionSet) (fragments : List KnownFragment) {kind : Kind}
    (hfield : kind.isField = true) :
    NamesAgree s p fragments kind (fun ctx => ctx.parent.isSome) FoundField
      (HidesTypename (resolve s p)) := by
  have hfit : ∀ parent, (resolve s p).parent = some parent → s.TypeFits parent := fun parent hp =>
    hs.typeFits ((Context.wellTyped_resolve hs p).parent parent hp)
  have hstep : ∀ state : State, state.kind = kind →
      (resolve s (p ++ [state])).field = (resolve s p).selected? s state.name ∧
        (resolve s (p ++ [state])).parent = (resolve s p).parent := by
    intro state hstate
    rw [Context.resolve_append_singleton, Context.enter_of_isField (hstate ▸ hfield)]
    exact ⟨rfl, rfl⟩
  have hselected : ∀ x state, Writes kind x state → (resolve s (p ++ [state])).field =
      (resolve s p).parent.bind fun parent => s.field? parent x := by
    rintro x state ⟨hstate, hname⟩
    rw [(hstep state hstate).1, hname, selected?_of_selectionSet hleaf hkind]
  refine NamesAgree.of_source (resolve s p).parent
    (fun parent => declared parent ++ offeredMeta s parent) (ofField s) Field.name Field.type ?_
    (fun f => ⟨rfl, rfl⟩) rfl (fun parent hp => offered_nodup (hfit parent hp)) ?_ ?_ ?_
  · rw [atLeaf_of_leaf hleaf, generate_fieldNames (Or.inl hkind), fieldNames_eq]
  · intro x state a hstate
    rw [FoundField, hselected x state hstate]
    constructor
    · rintro ⟨⟨f, hf, hname, rfl⟩, hhidden⟩
      obtain ⟨parent, hparent, hf⟩ := Option.bind_eq_some_iff.mp hf
      have hx : ¬ (x = "__typename" ∧ parent.kind = .object) := fun h =>
        hhidden ⟨h.1, parent, hparent, h.2⟩
      obtain ⟨hmem, -⟩ := (offered_iff_field? (hfit parent hparent)).mpr ⟨hf, hx⟩
      exact ⟨parent, hparent, f, hmem, hname, rfl⟩
    · rintro ⟨parent, hparent, f, hmem, hname, rfl⟩
      obtain ⟨hf, hx⟩ := (offered_iff_field? (hfit parent hparent)).mp ⟨hmem, hname⟩
      refine ⟨⟨f, Option.bind_eq_some_iff.mpr ⟨parent, hparent, hf⟩, hname, rfl⟩, ?_⟩
      rintro ⟨hxname, parent', hparent', hobject⟩
      cases hparent.symm.trans hparent'
      exact hx ⟨hxname, hobject⟩
  · rintro x ⟨rfl, parent, hparent, hobject⟩
    refine ⟨Option.isSome_of_eq_some hparent, fun state hstate => ?_⟩
    refine ⟨MetaField.typename.type, MetaField.typename, ?_, rfl, rfl⟩
    rw [hselected _ state hstate, hparent, Option.bind_some,
      field?_of_reserved (hfit parent hparent) (by decide)]
    exact Or.inr ⟨by rw [NamedType.isComposite, hobject]; rfl, rfl, rfl⟩
  · intro state hstate _
    rw [atLeaf_of_leaf (leaf_append_singleton p state), atLeaf_of_leaf hleaf,
      generate_fieldNames (Or.inr (hstate ▸ hfield)), generate_fieldNames (Or.inl hkind),
      fieldNames_eq, fieldNames_eq, (hstep state hstate).2]

/-- An argument of the name is given, with the annotation as its type. -/
def FoundArgument (ctx : Context) (x : String) (a : AnnotatedType) : Prop :=
  ∃ v, ctx.argument = some v ∧ v.name = x ∧ v.type = a

theorem argument_of_writes (hs : s.WellFormed) {x : String} {state : State}
    (hstate : Writes .argument x state) {v : InputValue} :
    (resolve s (p ++ [state])).argument = some v ↔
      ∃ parameters, (resolve s p).arguments = some parameters ∧
        v ∈ parameters.values ∧ v.name = x := by
  obtain ⟨hkind, hname⟩ := hstate
  have htyped := Context.wellTyped_resolve hs p
  rw [Context.resolve_append_singleton, htyped.argument_enter hs _ hkind hname,
    Option.bind_eq_some_iff]
  refine exists_congr fun parameters => and_congr_right fun hp => ?_
  exact (hs.parametersFit (htyped.arguments parameters hp)).indexed.get?_eq_some_iff

theorem arguments_agree (hs : s.WellFormed) (hleaf : p.leaf = some leaf)
    (hkind : leaf.kind = .arguments) (fragments : List KnownFragment) :
    NamesAgree s p fragments .argument (fun ctx => ctx.arguments.isSome) FoundArgument
      fun _ => False := by
  have hindexed : ∀ parameters, (resolve s p).arguments = some parameters →
      parameters.IndexedBy InputValue.name := fun parameters hp =>
    (hs.parametersFit ((Context.wellTyped_resolve hs p).arguments parameters hp)).indexed
  refine NamesAgree.of_source (resolve s p).arguments Keyed.values (ofInputValue s) InputValue.name
    InputValue.type ?_ (fun v => ⟨rfl, rfl⟩) rfl (fun parameters hp => (hindexed parameters hp).2)
    ?_ (fun x hx => hx.elim) ?_
  · rw [atLeaf_of_leaf hleaf, generate_argumentNames (Or.inl hkind), argumentNames]
  · intro x state a hstate
    rw [and_iff_left not_false]
    constructor
    · rintro ⟨v, hv, hname, rfl⟩
      obtain ⟨parameters, hp, hmem, -⟩ := (argument_of_writes hs hstate).mp hv
      exact ⟨parameters, hp, v, hmem, hname, rfl⟩
    · rintro ⟨parameters, hp, v, hmem, hname, rfl⟩
      exact ⟨v, (argument_of_writes hs hstate).mpr ⟨parameters, hp, hmem, hname⟩, hname, rfl⟩
  · rintro state hstate (hfield | hstep)
    · cases hfield
    · rw [atLeaf_of_leaf (leaf_append_singleton p state), atLeaf_of_leaf hleaf,
        generate_argumentNames (Or.inr ⟨hstate, hstep⟩), generate_argumentNames (Or.inl hkind),
        argumentNames, argumentNames, Context.resolve_append_singleton,
        Context.enter_argument hstate]

/-- The value has to be of the annotated type. -/
def FoundInput (ctx : Context) (_ : String) (a : AnnotatedType) : Prop := ctx.input = some a

/-- Inside an object value the type of a field's value is that of the input field of its name. -/
theorem input_of_writes (hs : s.WellFormed) {x : String} {state : State}
    (hstate : Writes .objectField x state) {a : AnnotatedType} :
    (resolve s (p ++ [state])).input = some a ↔
      ∃ fields, (resolve s p).objectFields = some fields ∧
        ∃ f ∈ fields.values, f.name = x ∧ f.type = a := by
  obtain ⟨hkind, hname⟩ := hstate
  rw [Context.resolve_append_singleton, Context.enter_objectField hkind, hname,
    Option.bind_eq_some_iff]
  refine exists_congr fun fields => and_congr_right fun hfields => ?_
  have hindexed := hs.inputFields_indexed ((Context.wellTyped_resolve hs p).objectFields fields hfields)
  rw [Option.bind_some, Option.map_eq_some_iff]
  simp only [hindexed.get?_eq_some_iff, and_assoc]

theorem objectFields_agree (hs : s.WellFormed) (hleaf : p.leaf = some leaf)
    (hkind : leaf.kind = .objectValue) (fragments : List KnownFragment) :
    NamesAgree s p fragments .objectField (fun ctx => ctx.objectFields.isSome) FoundInput
      fun _ => False := by
  have hindexed : ∀ fields, (resolve s p).objectFields = some fields →
      fields.IndexedBy InputValue.name := fun fields hfields =>
    hs.inputFields_indexed ((Context.wellTyped_resolve hs p).objectFields fields hfields)
  refine NamesAgree.of_source (resolve s p).objectFields Keyed.values (ofInputValue s)
    InputValue.name InputValue.type ?_ (fun v => ⟨rfl, rfl⟩) rfl
    (fun fields hfields => (hindexed fields hfields).2) ?_ (fun x hx => hx.elim) ?_
  · rw [atLeaf_of_leaf hleaf, generate_objectFieldNames (Or.inl hkind), objectFieldNames]
  · intro x state a hstate
    rw [and_iff_left not_false]
    exact input_of_writes hs hstate
  · rintro state hstate (hfield | hstep)
    · cases hfield
    · rw [atLeaf_of_leaf (leaf_append_singleton p state), atLeaf_of_leaf hleaf,
        generate_objectFieldNames (Or.inr ⟨hstate, hstep⟩),
        generate_objectFieldNames (Or.inl hkind), objectFieldNames, objectFieldNames,
        Context.resolve_append_singleton, Context.enter_objectField hstate]

end Agreement

/-- In every schema that is built, names are offered exactly as they are resolved: fields in selection
sets, except for `__typename` on objects, arguments, and input fields in object values. -/
theorem names_agree_of_ofDocuments {docs : List (Option String × Sdl.Document)} {s : Schema}
    (h : Schema.ofDocuments docs = .ok s) {p : Chain} {leaf : State} (hleaf : p.leaf = some leaf)
    (fragments : List KnownFragment) :
    (leaf.kind = .selectionSet → ∀ kind, kind.isField = true →
      NamesAgree s p fragments kind (fun ctx => ctx.parent.isSome) FoundField
        (HidesTypename (resolve s p))) ∧
    (leaf.kind = .arguments →
      NamesAgree s p fragments .argument (fun ctx => ctx.arguments.isSome) FoundArgument
        fun _ => False) ∧
    (leaf.kind = .objectValue →
      NamesAgree s p fragments .objectField (fun ctx => ctx.objectFields.isSome) FoundInput
          (fun _ => False) ∧
        ∀ fields, (resolve s p).objectFields = some fields → ∀ f ∈ fields.values, ∀ state,
          Writes .objectField f.name state → (resolve s (p ++ [state])).input = some f.type) := by
  obtain ⟨hvalid, hdescribes⟩ := Schema.ofDocuments_eq_ok_iff.mp h
  have hs : s.WellFormed := hdescribes.wellFormed hvalid
  refine ⟨fun hkind kind hfield => fields_agree hs hleaf hkind fragments hfield,
    fun hkind => arguments_agree hs hleaf hkind fragments,
    fun hkind => ⟨objectFields_agree hs hleaf hkind fragments, ?_⟩⟩
  intro fields hfields f hf state hstate
  exact (input_of_writes hs hstate).mpr ⟨fields, hfields, f, hf, rfl, rfl⟩

/-- The way into `query { any(in: ...) }`. -/
def anyChain : Chain :=
  [{ kind := .query }, { kind := .selectionSet }, { kind := .field, name := some "any" },
    { kind := .arguments }, { kind := .argument, name := some "in", step := 2 },
    { kind := .objectValue }]

theorem names_agree_anyChain :
    ∃ docs s, Sdl.readAll? petTexts = some docs ∧ Schema.ofDocuments docs = .ok s ∧
      (atLeaf s (anyChain.take 2) []).map (List.map Candidate.text) =
        some ["any", "pets", "__schema", "__type"] ∧
      NamesAgree s (anyChain.take 2) [] .field (fun ctx => ctx.parent.isSome) FoundField
        (HidesTypename (resolve s (anyChain.take 2))) ∧
      NamesAgree s (anyChain.take 4) [] .argument (fun ctx => ctx.arguments.isSome) FoundArgument
        (fun _ => False) ∧
      NamesAgree s anyChain [] .objectField (fun ctx => ctx.objectFields.isSome) FoundInput
        fun _ => False := by
  obtain ⟨docs, s, hdocs, hs, hnames⟩ :=
    @Schema.exists_ofDocuments_of_test petTexts
      (fun s => (atLeaf s (anyChain.take 2) []).map (List.map Candidate.text) =
        some ["any", "pets", "__schema", "__type"]) _ (by decide +kernel)
  exact ⟨docs, s, hdocs, hs, hnames, (names_agree_of_ofDocuments hs rfl []).1 rfl .field rfl,
    (names_agree_of_ofDocuments hs rfl []).2.1 rfl,
    ((names_agree_of_ofDocuments hs rfl []).2.2 rfl).1⟩

end Candidate

end SchemaHint
