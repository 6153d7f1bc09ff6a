import SchemaHint.Chain.Basic
import SchemaHint.Json.Basic

/-!
# Grammar states as JSON
-/

namespace SchemaHint.Chain

set_option autoImplicit false

/-- The JSON form of a kind. -/
def Kind.toJson (k : Kind) : Json := .string k.name

/-- Reads a kind. -/
def Kind.ofJson? (j : Json) : Option Kind := j.tagged? Kind.all Kind.name

/-- The JSON form of a state. -/
def State.toJson (s : State) : Json :=
  .object [
    ("kind", s.kind.toJson),
    ("step", .natural s.step),
    ("name", .ofString? s.name),
    ("type_name", .ofString? s.typeName)]

/-- Reads a state. -/
def State.ofJson? (j : Json) : Option State :=
  match j.record? ["kind", "step", "name", "type_name"] with
  | some [kind, step, name, typeName] => do
    let kind ← Json.required? Kind.ofJson? kind
    let step ← Json.required? Json.natural? step
    let name ← Json.optional? Json.string? name
    let typeName ← Json.optional? Json.string? typeName
    return { kind, step, name, typeName }
  | _ => none

end SchemaHint.Chain
