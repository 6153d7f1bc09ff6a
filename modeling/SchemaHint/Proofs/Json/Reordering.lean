import Mathlib.Data.List.Perm.Basic
import SchemaHint.Json.Type
import SchemaHint.Proofs.Keyed

/-!
# JSON values with their members in another order

The members of an object have no order that matters, so a value may come back with its members
moved.

* `Json.Same` : JSON values that differ in the order of members only;
* `Json.Same.record?`, `Json.Same.named?` : the fields of a record are found wherever they stand;
* `Json.optional?_of_same`, `Json.list?_of_same`, `Json.tagged?_of_same` : parts are read as they
  were written;
* `Keyed.Same` : keyed lists that are the same as maps;
* `Keyed.exists_ofJson?_of_same` : a keyed list is read as one that is the same map.
-/

namespace SchemaHint

set_option autoImplicit false

/-! ## The order of members -/

namespace Json

/-- The same JSON value but for the order of the members of objects: each value stays under its key,
and the members are then put in another order. -/
inductive Same : Json → Json → Prop
  | null : Same .null .null
  | bool (b : Bool) : Same (.bool b) (.bool b)
  | natural (n : Nat) : Same (.natural n) (.natural n)
  | real (x : Binary64) : Same (.real x) (.real x)
  | string (s : String) : Same (.string s) (.string s)
  | array {items items' : List Json} (h : List.Forall₂ Same items items') :
      Same (.array items) (.array items')
  | object {members moved members' : List (String × Json)}
      (hkeys : members.map Prod.fst = moved.map Prod.fst)
      (hvalues : List.Forall₂ Same (members.map Prod.snd) (moved.map Prod.snd))
      (hmoved : moved.Perm members') : Same (.object members) (.object members')

theorem Same.refl (j : Json) : Same j j := by
  match j with
  | .null => exact .null
  | .bool b => exact .bool b
  | .natural n => exact .natural n
  | .real x => exact .real x
  | .string s => exact .string s
  | .array items => exact .array (List.forall₂_same.mpr fun x _ => Same.refl x)
  | .object members =>
    refine .object rfl (List.forall₂_same.mpr fun x hx => ?_) (List.Perm.refl members)
    obtain ⟨m, hm, rfl⟩ := List.mem_map.mp hx
    exact Same.refl m.2
termination_by sizeOf j
decreasing_by
  · have := List.sizeOf_lt_of_mem ‹x ∈ items›
    rw [Json.array.sizeOf_spec]
    omega
  · have hlt := List.sizeOf_lt_of_mem hm
    obtain ⟨key, value⟩ := m
    rw [Prod.mk.sizeOf_spec] at hlt
    rw [Json.object.sizeOf_spec]
    show sizeOf value < 1 + sizeOf members
    omega

/-! ## Records -/

/-- Under different keys the values are found wherever the members stand. -/
theorem lookup_of_perm {members members' : List (String × Json)} (h : members.Perm members')
    (hnd : (members.map Prod.fst).Nodup) {m : String × Json} (hm : m ∈ members) :
    members'.lookup m.1 = some m.2 :=
  Keyed.lookup_eq_some_of_mem ((h.map Prod.fst).nodup_iff.mp hnd) (h.mem_iff.mp hm)

section Records
variable {members : List (String × Json)} {j : Json}

/-- The fields of a record are found under their names, in whatever order the members are. -/
theorem Same.named? (h : (Json.object members).Same j) (names : List String)
    (hnames : members.map Prod.fst = names) (hnd : names.Nodup) :
    ∃ values, j.named? names = some (values.map some) ∧
      List.Forall₂ Same (members.map Prod.snd) values := by
  cases h with
  | @object _ moved members' hkeys hvalues hmoved =>
    have hmovedNames : moved.map Prod.fst = names := hkeys.symm.trans hnames
    refine ⟨moved.map Prod.snd, ?_, hvalues⟩
    rw [Json.named?, Option.some.injEq, ← hmovedNames, List.map_map, List.map_map,
      List.map_inj_left]
    intro m hm
    exact lookup_of_perm hmoved (hmovedNames ▸ hnd) hm

theorem Same.record? (h : (Json.object members).Same j) (names : List String)
    (hnames : members.map Prod.fst = names) (hnd : names.Nodup) :
    ∃ values, j.record? names = some (values.map some) ∧
      List.Forall₂ Same (members.map Prod.snd) values := by
  have hnamed := h.named? names hnames hnd
  cases h
  exact hnamed

/-- The case of an alternative keeps its name. -/
theorem Same.exists_content {name : String} {content : Json}
    (h : (Json.object [(name, content)]).Same j) :
    ∃ content', j = Json.object [(name, content')] ∧ content.Same content' := by
  cases h with
  | @object _ moved members' hkeys hvalues hmoved =>
    obtain ⟨⟨key, content'⟩, rfl, hkey⟩ := List.map_eq_singleton_iff.mp hkeys.symm
    obtain rfl : key = name := hkey
    obtain rfl := List.singleton_perm.mp hmoved
    cases hvalues with
    | cons hcontent _ => exact ⟨content', rfl, hcontent⟩

end Records

/-! ## Plain values -/

theorem bool?_of_same {b : Bool} {j : Json} (h : (bool b).Same j) : j.bool? = some b := by
  cases h
  rfl

theorem natural?_of_same {n : Nat} {j : Json} (h : (natural n).Same j) : j.natural? = some n := by
  cases h
  rfl

theorem string?_of_same {s : String} {j : Json} (h : (string s).Same j) : j.string? = some s := by
  cases h
  rfl

@[simp]
theorem required?_some {α : Type} (read : Json → Option α) (j : Json) :
    required? read (some j) = read j := rfl

/-- A value is read by its name, if no other value has the name. -/
theorem tagged?_of_same {α : Type} {values : List α} {tag : α → String} {a : α}
    (ha : a ∈ values) (hnd : (values.map tag).Nodup) {j : Json} (h : (string (tag a)).Same j) :
    j.tagged? values tag = some a := by
  cases h
  show values.find? (fun b => tag b = tag a) = some a
  cases hfind : values.find? fun b => tag b = tag a with
  | none => simpa using List.find?_eq_none.mp hfind a ha
  | some b =>
    have htag : tag b = tag a := by simpa using List.find?_some hfind
    rw [List.inj_on_of_nodup_map hnd (List.mem_of_find?_eq_some hfind) ha htag]

theorem mapM_eq_some_of_forall₂ {α β : Type} {f : α → Option β} {as : List α} {bs : List β}
    (h : List.Forall₂ (fun a b => f a = some b) as bs) : as.mapM f = some bs := by
  induction h with
  | nil => rfl
  | cons hhead _ ih =>
    rw [List.mapM_cons, hhead, ih]
    rfl

section Parts
variable {α : Type} {write : α → Json} {read : Json → Option α}
  (hread : ∀ {a : α} {j : Json}, (write a).Same j → read j = some a)
include hread

/-- A field that may be absent is null iff it is absent. -/
theorem optional?_of_same (hnull : ∀ a, write a ≠ null) {o : Option α} {j : Json}
    (h : ((o.map write).getD null).Same j) : optional? read (some j) = some o := by
  cases o with
  | none =>
    cases h
    rfl
  | some a =>
    -- nothing but null is the same as null, so what is present does not look absent
    have hj : j ≠ null := by
      rintro rfl
      have hwrite : (write a).Same null := h
      generalize hw : write a = w at hwrite
      cases hwrite
      exact hnull a hw
    have ha : read j = some a := hread h
    rw [optional?]
    · rw [ha]
      rfl
    · exact hj

/-- The items of an array keep their order. -/
theorem list?_of_same {as : List α} {j : Json} (h : (array (as.map write)).Same j) :
    list? read j = some as := by
  cases h with
  | array hitems =>
    apply mapM_eq_some_of_forall₂
    rw [List.forall₂_map_left_iff] at hitems
    exact (hitems.imp fun _ _ ha => hread ha).flip

end Parts

theorem optional?_string?_of_same {o : Option String} {j : Json} (h : (ofString? o).Same j) :
    optional? string? (some j) = some o :=
  optional?_of_same string?_of_same (fun _ => by simp) h

end Json

/-! ## Keyed lists as maps -/

namespace Keyed

variable {α : Type}

/-- The same keyed list as a map: under each key both have a value or neither has, and the two
values are related. -/
def Same (r : α → α → Prop) (m m' : Keyed α) : Prop :=
  ∀ key, Option.Rel r (m.get? key) (m'.get? key)

theorem rel_lookup {r : α → α → Prop} {es es' : List (String × α)}
    (h : List.Forall₂ (fun e e' => e.1 = e'.1 ∧ r e.2 e'.2) es es') (key : String) :
    Option.Rel r (es.lookup key) (es'.lookup key) := by
  induction h with
  | nil => exact .none
  | cons hhead _ ih =>
    obtain ⟨hkey, hvalue⟩ := hhead
    rw [List.lookup_cons, List.lookup_cons, ← hkey]
    split
    · exact .some hvalue
    · exact ih

section Json
variable {write : α → Json} {read : Json → Option α} {r : α → α → Prop}

/-- Members that have not been moved are read one after the other. -/
theorem exists_read_members
    (hread : ∀ {a : α} {j : Json}, (write a).Same j → ∃ b, read j = some b ∧ r a b)
    {es : List (String × α)} {members : List (String × Json)}
    (hkeys : es.map Prod.fst = members.map Prod.fst)
    (hvalues : List.Forall₂ Json.Same (es.map fun e => write e.2) (members.map Prod.snd)) :
    ∃ es', List.Forall₂ (fun m e => (read m.2).map (m.1, ·) = some e) members es' ∧
      List.Forall₂ (fun e e' => e.1 = e'.1 ∧ r e.2 e'.2) es es' := by
  induction es generalizing members with
  | nil =>
    obtain rfl := List.map_eq_nil_iff.mp hkeys.symm
    exact ⟨[], .nil, .nil⟩
  | cons e es ih =>
    obtain ⟨m, members, rfl, hkey, hkeys⟩ := List.map_eq_cons_iff.mp hkeys.symm
    cases hvalues with
    | cons hvalue hvalues =>
      obtain ⟨b, hb, hrel⟩ := hread hvalue
      obtain ⟨es', hread', hrel'⟩ := ih hkeys.symm hvalues
      refine ⟨(m.1, b) :: es', .cons ?_ hread', .cons ⟨hkey.symm, hrel⟩ hrel'⟩
      rw [hb]
      rfl

/-- A keyed list is read as one that is the same map. -/
theorem exists_ofJson?_of_same
    (hread : ∀ {a : α} {j : Json}, (write a).Same j → ∃ b, read j = some b ∧ r a b) {m : Keyed α}
    {j : Json} (h : (m.toJson write).Same j) :
    ∃ m', Keyed.ofJson? read j = some m' ∧ m.Same r m' := by
  cases h with
  | @object _ moved members hkeys hvalues hmoved =>
    rw [List.map_map] at hkeys hvalues
    obtain ⟨es, hes, hrel⟩ := exists_read_members @hread hkeys hvalues
    have hnd : (es.map Prod.fst).Nodup := by
      have hesKeys : m.entries.map Prod.fst = es.map Prod.fst := by
        rw [← List.forall₂_eq_eq_eq, List.forall₂_map_left_iff, List.forall₂_map_right_iff]
        exact hrel.imp fun _ _ he => he.1
      exact hesKeys ▸ m.nodup_keys
    -- the members are read in their new order, with the same entries as before
    obtain ⟨es', hes', hperm⟩ := List.perm_comp_forall₂ hmoved.symm hes
    refine ⟨ofList es', ?_, fun key => ?_⟩
    · rw [ofJson?, Json.members?, Json.mapM_eq_some_of_forall₂ hes']
      rfl
    · rw [← (sameEntries_ofList hperm.symm hnd).get? key, get?, get?, entries_ofList hnd]
      exact rel_lookup hrel key

/-- The same for values that are read exactly. -/
theorem exists_ofJson?_of_same_eq
    (hread : ∀ {a : α} {j : Json}, (write a).Same j → read j = some a) {m : Keyed α} {j : Json}
    (h : (m.toJson write).Same j) : ∃ m', Keyed.ofJson? read j = some m' ∧ m.Same Eq m' :=
  exists_ofJson?_of_same (fun ha => ⟨_, hread ha, rfl⟩) h

/-- Where the members have kept their order, the keyed list is read as it was. -/
theorem ofJson?_toJson (hread : ∀ a, read (write a) = some a) (m : Keyed α) :
    Keyed.ofJson? read (m.toJson write) = some m := by
  have hmembers : (m.entries.map fun e => (e.1, write e.2)).mapM
      (fun p => (read p.2).map (p.1, ·)) = some m.entries := by
    apply Json.mapM_eq_some_of_forall₂
    rw [List.forall₂_map_left_iff, List.forall₂_same]
    intro e _
    rw [hread]
    rfl
  rw [ofJson?, toJson, Json.members?, hmembers, Option.map_some, Option.some.injEq, Keyed.ext_iff]
  exact entries_ofList m.nodup_keys

end Json

end Keyed

end SchemaHint
