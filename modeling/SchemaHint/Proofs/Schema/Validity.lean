import SchemaHint.Proofs.Schema.Merging

/-!
# Valid definitions

`Definitions.Valid` says when definitions and extensions make up a schema, without a word about the
order in which they are taken up, merged and checked:

* `Definitions.Defines` : a name is that of a type of some kind, built-in or defined;
* `Definitions.IsRoot` : a name is that of the root type of an operation;
* `Definitions.RefersWell` : every type that a body uses is defined and of a kind that fits the use;
* `Definitions.valid_iff` : validity is loadability, extensions that fit, and what is left for the
  end of the building.
-/

namespace SchemaHint

set_option autoImplicit false

/-- The name inside all lists. -/
def Sdl.TypeExpr.innermostName : Sdl.TypeExpr → String
  | .named name => name
  | .list item => item.innermostName
  | .nonNull t => t.innermostName

/-- An argument that no later argument of the same name replaces. -/
def Standing (arguments : List Sdl.InputDef) (a : Sdl.InputDef) : Prop :=
  ∃ before after, arguments = before ++ a :: after ∧ ∀ b ∈ after, b.name ≠ a.name

namespace Definitions

/-- The bodies of a definition and of the extensions of its type. -/
def bodies (ds : Definitions) (d : Option String × Sdl.TypeDef) : List Sdl.Body :=
  d.2.body :: (ds.extensions.filter fun e => e.2.name = d.2.name).map fun e => e.2.body

/-- A built-in scalar or a definition gives the name to a type of the kind. -/
def Defines (ds : Definitions) (name : String) (kind : TypeKind) : Prop :=
  (∃ s : BuiltinScalar, s.name = name ∧ s.kind = kind) ∨
    ∃ d ∈ ds.types, d.2.name = name ∧ d.2.body.kind = kind

/-- The root type of an operation is the one that is chosen; if none is, it is the object type with the
name of the operation. -/
def IsRoot (ds : Definitions) (o : Operation) (name : String) : Prop :=
  (∃ c ∈ ds.roots o, c.typeName = name) ∨
    ds.roots o = [] ∧ name = o.name ∧ ds.Defines o.name .object

/-- The innermost type is defined and can be given as input. -/
def InputType (ds : Definitions) (t : Sdl.TypeExpr) : Prop :=
  ∃ kind, ds.Defines t.innermostName kind ∧ kind.isInput = true

/-- The innermost type is defined and can be the result of a field. -/
def OutputType (ds : Definitions) (t : Sdl.TypeExpr) : Prop :=
  ∃ kind, ds.Defines t.innermostName kind ∧ kind ≠ .inputObject

def ArgumentsFit (ds : Definitions) (arguments : List Sdl.InputDef) : Prop :=
  ∀ a, Standing arguments a → ds.InputType a.type

/-- Every type that a body uses is defined and of a kind that fits the use. -/
structure RefersWell (ds : Definitions) (b : Sdl.Body) : Prop where
  interfaces : ∀ name ∈ b.interfaces, ds.Defines name .interface
  members : ∀ name ∈ b.members, ds.Defines name .object
  fields : ∀ f ∈ b.fields, ds.OutputType f.type
  arguments : ∀ f ∈ b.fields, ds.ArgumentsFit f.arguments
  inputFields : ∀ f ∈ b.inputFields, ds.InputType f.type

/-- The types that are used as roots and by members fit their uses. -/
structure Linked (ds : Definitions) : Prop where
  roots_defined : ∀ o, ∀ c ∈ ds.roots o, ds.Defines c.typeName .object
  query_root : ∃ name, ds.IsRoot .query name
  roots_differ : ∀ o o' name, ds.IsRoot o name → ds.IsRoot o' name → o = o'
  bodies_refer : ∀ d ∈ ds.types, ∀ b ∈ ds.bodies d, ds.RefersWell b
  directives_refer : ∀ d ∈ ds.directives, ds.ArgumentsFit d.2.arguments

/-- Definitions and extensions that make up a schema. -/
structure Valid (ds : Definitions) : Prop extends ds.Linked where
  /-- Types have different names, which are not those of built-in scalars. -/
  typeNames_nodup :
    (BuiltinScalar.all.map BuiltinScalar.name ++ ds.types.map fun d => d.2.name).Nodup
  typeNames_open : ∀ d ∈ ds.types, isReserved d.2.name = false
  /-- Directives have different names, which are not those of built-in directives. -/
  directiveNames_nodup :
    (Directive.builtins.map Directive.name ++ ds.directives.map fun d => d.2.name).Nodup
  directiveNames_open : ∀ d ∈ ds.directives, isReserved d.2.name = false
  roots_once : ∀ o, (ds.roots o).length ≤ 1
  enums_nonempty : ∀ d ∈ ds.types, d.2.body ≠ .enum []
  /-- An extension is of a defined type of its kind. -/
  extended : ∀ e ∈ ds.extensions, ∃ d ∈ ds.types, d.2.name = e.2.name ∧ d.2.body.kind = e.2.body.kind
  members_fit : ∀ d ∈ ds.types, MembersFit d.2.name (ds.bodies d)

theorem bodies_eq (ds : Definitions) (d : Option String × Sdl.TypeDef) :
    (contributions ds.extensions d).map Contribution.body = ds.bodies d := by
  rw [contributions, List.map_cons, List.map_map]
  rfl

theorem valid_iff {ds : Definitions} :
    ds.Valid ↔ Loadable ds ∧ ExtensionsFit ds.types ds.extensions ∧ ds.Linked := by
  constructor
  · intro h
    have hfirst : ∀ d ∈ ds.types, MembersFit d.2.name [d.2.body] := fun d hd =>
      MembersFit.of_append (h.members_fit d hd)
    refine ⟨⟨⟨h.typeNames_nodup, h.typeNames_open, h.enums_nonempty, hfirst⟩,
      ⟨h.directiveNames_nodup, h.directiveNames_open⟩, h.roots_once⟩, ⟨h.extended, ?_⟩, h.toLinked⟩
    intro d hd
    rw [bodies_eq]
    exact h.members_fit d hd
  · rintro ⟨⟨htypes, hdirectives, hroots⟩, ⟨hextended, hmembers⟩, hlinked⟩
    have hfit : ∀ d ∈ ds.types, MembersFit d.2.name (ds.bodies d) := by
      intro d hd
      rw [← bodies_eq]
      exact hmembers d hd
    exact ⟨hlinked, htypes.names_nodup, htypes.names_open, hdirectives.names_nodup,
      hdirectives.names_open, hroots, htypes.enums_nonempty, hextended, hfit⟩

theorem Valid.loadable {ds : Definitions} (h : ds.Valid) : Loadable ds := (valid_iff.mp h).1

theorem Valid.extensionsFit {ds : Definitions} (h : ds.Valid) :
    ExtensionsFit ds.types ds.extensions :=
  (valid_iff.mp h).2.1

end Definitions

end SchemaHint
