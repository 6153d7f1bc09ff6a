/-!
# Keyed lists

A `Keyed α` lists values under different keys and remembers in which order the keys came. The view
of it is `entries`; `insert` keeps the place of a key that is there and puts a new one last.
-/

namespace SchemaHint

set_option autoImplicit false

/-- Values under pairwise different keys, in the order in which the keys were first inserted. -/
@[ext]
structure Keyed (α : Type) where
  entries : List (String × α)
  nodup_keys : (entries.map Prod.fst).Nodup
deriving DecidableEq

namespace Keyed

variable {α : Type}

/-- No entries. -/
def empty : Keyed α := ⟨[], by simp⟩

instance : Inhabited (Keyed α) := ⟨empty⟩

/-- The keys in order. -/
def keys (m : Keyed α) : List String := m.entries.map Prod.fst

/-- The values in the order of their keys. -/
def values (m : Keyed α) : List α := m.entries.map Prod.snd

/-- The number of entries. -/
def size (m : Keyed α) : Nat := m.entries.length

/-- The value under a key. -/
def get? (m : Keyed α) (key : String) : Option α := m.entries.lookup key

/-- The entries with the value under `key` replaced. -/
def replaceIn (key : String) (value : α) (entries : List (String × α)) : List (String × α) :=
  entries.map fun e => if e.1 = key then (e.1, value) else e

theorem map_fst_replaceIn (key : String) (value : α) (entries : List (String × α)) :
    (replaceIn key value entries).map Prod.fst = entries.map Prod.fst := by
  induction entries with
  | nil => rfl
  | cons e es ih =>
    have he : (if e.1 = key then (e.1, value) else e).1 = e.1 := by split <;> rfl
    simpa [replaceIn, he] using ih

/-- Puts a value under a key: in place of the one that is there, else last. -/
def insert (m : Keyed α) (key : String) (value : α) : Keyed α :=
  if h : key ∈ m.keys then
    ⟨replaceIn key value m.entries, by rw [map_fst_replaceIn]; exact m.nodup_keys⟩
  else
    ⟨m.entries ++ [(key, value)], by
      rw [List.map_append, List.nodup_append]
      refine ⟨m.nodup_keys, by simp, ?_⟩
      intro a ha b hb hab
      have hk : b = key := by simpa using hb
      exact h (hk ▸ hab ▸ ha)⟩

/-- Inserts the entries one after the other. -/
def ofList (entries : List (String × α)) : Keyed α :=
  entries.foldl (fun m e => m.insert e.1 e.2) empty

/-- Puts a value under a new key; under a key that is there, the error that `clash` makes of the
value found. -/
def add {ε : Type} (m : Keyed α) (key : String) (value : α) (clash : α → ε) : Except ε (Keyed α) :=
  match m.get? key with
  | some old => .error (clash old)
  | none => .ok (m.insert key value)

end Keyed

end SchemaHint
