import SchemaHint.Decimal.Binary64

/-!
# JSON values

Data are written as JSON in a fixed way. A record is an object with a member for each of its fields;
it can also be read from an array of all of them, in order. A case of an alternative is its name, or
an object whose only member has the name of the case and holds its content.

* `record?`, `required?`, `optional?` : reading records; `named?` : reading them from objects only;
* `variant?`, `isUnit`, `tagged?` : reading alternatives.
-/

namespace SchemaHint

set_option autoImplicit false

/-- A JSON value. Natural numbers are kept apart from the other numbers. -/
inductive Json
  | null
  | bool (b : Bool)
  | natural (n : Nat)
  | real (x : Binary64)
  | string (s : String)
  | array (items : List Json)
  | object (members : List (String × Json))

namespace Json

/-! ## Plain values -/

/-- Reads a truth value. -/
def bool? : Json → Option Bool
  | .bool b => some b
  | _ => none

/-- Reads a natural number. -/
def natural? : Json → Option Nat
  | .natural n => some n
  | _ => none

/-- Reads a number. -/
def real? : Json → Option Binary64
  | .natural n => some (.ofNat n)
  | .real x => some x
  | _ => none

/-- Reads a text. -/
def string? : Json → Option String
  | .string s => some s
  | _ => none

/-- Reads an array whose items can all be read. -/
def list? {α : Type} (read : Json → Option α) : Json → Option (List α)
  | .array items => items.mapM read
  | _ => none

/-- Reads an object whose members can all be read. -/
def members? {α : Type} (read : Json → Option α) : Json → Option (List (String × α))
  | .object members => members.mapM fun m => (read m.2).map (m.1, ·)
  | _ => none

/-- The text, or null. -/
def ofString? (s : Option String) : Json := (s.map Json.string).getD .null

/-! ## Records -/

/-- The members of an object in the order of their names, absent where there is none of a name. -/
def named? (names : List String) : Json → Option (List (Option Json))
  | .object members => some (names.map fun n => members.lookup n)
  | _ => none

/-- The fields of a record in the order of their names: the members of an object, or the items of an
array with one for each field. -/
def record? (names : List String) : Json → Option (List (Option Json))
  | .array items => if items.length = names.length then some (items.map some) else none
  | j => j.named? names

/-- Reads a field that has to be there. -/
def required? {α : Type} (read : Json → Option α) (field : Option Json) : Option α :=
  field.bind read

/-- Reads a field that may be absent or null. -/
def optional? {α : Type} (read : Json → Option α) : Option Json → Option (Option α)
  | none => some none
  | some .null => some none
  | some j => (read j).map some

/-! ## Alternatives -/

/-- The name of a case and its content, if it has one. -/
def variant? : Json → Option (String × Option Json)
  | .string name => some (name, none)
  | .object [(name, content)] => some (name, some content)
  | _ => none

/-- Whether the content of a case is that of a case without content. -/
def isUnit : Option Json → Bool
  | none => true
  | some .null => true
  | some _ => false

/-- Reads one of the given values by its name. -/
def tagged? {α : Type} (values : List α) (tag : α → String) (j : Json) : Option α :=
  match j.variant? with
  | some (name, content) => if isUnit content then values.find? fun a => tag a = name else none
  | none => none

/-! ## Sizes -/

theorem sizeOf_lt_of_variant? {j c : Json} {name : String} (h : j.variant? = some (name, some c)) :
    sizeOf c < sizeOf j := by
  unfold variant? at h
  split at h <;> simp at h
  obtain ⟨rfl, rfl⟩ := h
  simp
  omega

theorem sizeOf_lt_of_lookup {members : List (String × Json)} {n : String} {c : Json}
    (h : members.lookup n = some c) : sizeOf c < sizeOf members := by
  induction members with
  | nil => simp at h
  | cons m ms ih =>
    obtain ⟨k, v⟩ := m
    rw [List.lookup_cons] at h
    split at h
    · simp at h
      subst h
      simp
      omega
    · have := ih h
      simp
      omega

theorem sizeOf_lt_of_named? {j c : Json} {names : List String} {fields : List (Option Json)}
    (h : j.named? names = some fields) (hc : some c ∈ fields) : sizeOf c < sizeOf j := by
  cases j with
  | object members =>
    obtain rfl : names.map (fun n => members.lookup n) = fields := by simpa [named?] using h
    obtain ⟨n, -, hn⟩ := List.mem_map.1 hc
    have := sizeOf_lt_of_lookup hn
    simp
    omega
  | _ => simp [named?] at h

theorem sizeOf_lt_of_record? {j c : Json} {names : List String} {fields : List (Option Json)}
    (h : j.record? names = some fields) (hc : some c ∈ fields) : sizeOf c < sizeOf j := by
  cases j with
  | array items =>
    obtain ⟨-, rfl⟩ : items.length = names.length ∧ items.map some = fields := by
      simpa [record?] using h
    have hx : c ∈ items := by simpa using hc
    have := List.sizeOf_lt_of_mem hx
    simp
    omega
  | object members => exact sizeOf_lt_of_named? (show (object members).named? names = some fields from h) hc
  | _ => simp [record?, named?] at h

end Json

end SchemaHint
