import SchemaHint.Context.Basic

/-!
# Steps along a chain

* `Context.resolve_append` : the way along a chain goes on from where a first part of it leads;
* `Context.enter_of_isField`, `Context.enter_argument`, ... : what a state of each kind does to the
  context around it;
* `Context.selectedOn?` : the type on which a field is selected, which is the parent type right
  after a selection set (`Context.selectedOn?_eq_parent`).
-/

namespace SchemaHint

set_option autoImplicit false

namespace Context

open Chain (Kind State)

variable {s : Schema} {before : Option Kind} {ctx : Context} {state : State}

theorem resolveFrom_append (states rest : List State) :
    resolveFrom s before ctx (states ++ rest) =
      resolveFrom s ((states.getLast?.map State.kind).or before)
        (resolveFrom s before ctx states) rest := by
  induction states generalizing before ctx with
  | nil => rfl
  | cons state states ih =>
      rw [List.cons_append, resolveFrom, resolveFrom, ih, List.getLast?_cons]
      cases states.getLast? <;> rfl

theorem resolve_append (c rest : Chain) :
    resolve s (c ++ rest) = resolveFrom s (c.leaf.map State.kind) (resolve s c) rest := by
  rw [resolve, resolveFrom_append, Option.or_none]
  rfl

theorem resolve_append_singleton (c : Chain) (state : State) :
    resolve s (c ++ [state]) = enter s (c.leaf.map State.kind) (resolve s c) state :=
  resolve_append c [state]

theorem enter_of_isField (h : state.kind.isField = true) :
    enter s before ctx state =
      { ctx with
        field := ctx.selected? s state.name
        type := (ctx.selected? s state.name).map fun f => .annotated f.type } := by
  unfold enter
  cases hkind : state.kind <;> rw [hkind] at h <;> first | rfl | cases h

theorem enter_selectionSet (h : state.kind = .selectionSet) :
    enter s before ctx state =
      { ctx with parent := ctx.type.bind (ExprType.namedType? s) } := by
  rw [enter, h]

theorem enter_inlineFragment (h : state.kind = .inlineFragment) :
    enter s before ctx state =
      { ctx with type := (state.typeName.bind s.type?).map .named } := by
  rw [enter, h]

theorem enter_directive (h : state.kind = .directive) :
    enter s before ctx state = { ctx with directive := state.name.bind s.directive? } := by
  rw [enter, h]

theorem enter_arguments (h : state.kind = .arguments) :
    enter s before ctx state = { ctx with arguments := ctx.argumentsIn before } := by
  rw [enter, h]

theorem enter_argument (h : state.kind = .argument) :
    enter s before ctx state =
      let argument := ctx.arguments.bind fun as => state.name.bind fun n =>
        as.values.find? fun a => a.name = n
      { ctx with argument, input := argument.map InputValue.type } := by
  rw [enter, h]

theorem enter_listValue (h : state.kind = .listValue) :
    enter s before ctx state = { ctx with input := ctx.input.bind AnnotatedType.item? } := by
  rw [enter, h]

theorem enter_objectValue (h : state.kind = .objectValue) :
    enter s before ctx state =
      { ctx with
        objectFields := (ctx.input.bind s.innermostType?).bind NamedType.inputFields? } := by
  rw [enter, h]

theorem enter_objectField (h : state.kind = .objectField) :
    enter s before ctx state =
      { ctx with
        input := ctx.objectFields.bind fun fs => state.name.bind fun n =>
          (fs.get? n).map InputValue.type } := by
  rw [enter, h]

/-! ## Selected fields -/

/-- The type on which a field at this place is selected. -/
def selectedOn? (ctx : Context) : Option NamedType := ctx.type.bind fun _ => ctx.parent

theorem selected?_eq (ctx : Context) (name : Option String) :
    ctx.selected? s name = ctx.selectedOn?.bind fun parent => name.bind (s.field? parent) := by
  unfold selected? selectedOn?
  cases ctx.type <;> rfl

/-- Where the parent is the named type of what is selected, as right after a selection set, there is
no parent without a type. -/
theorem selectedOn?_eq_parent (h : ctx.parent = ctx.type.bind (ExprType.namedType? s)) :
    ctx.selectedOn? = ctx.parent := by
  unfold selectedOn?
  cases htype : ctx.type with
  | none =>
      rw [htype] at h
      exact h.symm
  | some type => rfl

end Context

end SchemaHint
