import SchemaHint.Proofs.Candidate.Names
import SchemaHint.Proofs.Sdl.TypeText

/-!
# Types from the text to the candidate

A type is written in a schema text, held as an annotation of its element and shown with a candidate.

* `AnnotatedType.levels`, `CandidateType.levels` : a type with what is inside its lists;
* `AnnotatedType.chars_ofMarked` : marks are written where they were read;
* `CandidateType.levels_ofAnnotated` : the candidate has the levels of the annotation;
* `CandidateType.innermostKind_ofAnnotated` : the kind that the candidate shows;
* `CandidateType.type_text_kept` : from the text of the annotation and of the candidate the same
  type is read again.
-/

namespace SchemaHint

set_option autoImplicit false

/-! ## Annotations -/

namespace AnnotatedType

/-- An annotation and those of the items inside its lists, from the outside in. -/
def levels : AnnotatedType → List AnnotatedType
  | .list item nullable location => .list item nullable location :: item.levels
  | .named name nullable location => [.named name nullable location]

/-- The annotation of an expression of the grammar is written as the expression is, and is marked at
its end if it is not nullable, unless the expression has that mark. -/
theorem chars_ofMarked {room : Nat} {t : Sdl.TypeExpr} (h : t.Fits room) (location : Location)
    (nullable : Bool) :
    (ofMarked location nullable t).chars =
      t.chars ++ Sdl.TypeExpr.mark (!(nullable || t.isMarked)) := by
  induction h generalizing nullable with
  | @named room name hname =>
    have hmark : (nullable || (Sdl.TypeExpr.named name).isMarked) = nullable := Bool.or_false _
    rw [hmark]
    rfl
  | @list room item _ ih =>
    -- the items are nullable again, whatever the list is
    have hitem : (ofMarked location true item).chars = item.chars :=
      (ih true).trans (List.append_nil _)
    have hmark : (nullable || (Sdl.TypeExpr.list item).isMarked) = nullable := Bool.or_false _
    rw [hmark, ofMarked, chars, hitem, Sdl.TypeExpr.chars, List.append_assoc, List.singleton_append]
  | @nonNull room t _ hmark ih =>
    have hmarked : (nullable || (Sdl.TypeExpr.nonNull t).isMarked) = true := Bool.or_true _
    rw [hmarked, ofMarked, ih false, hmark, Sdl.TypeExpr.chars]
    exact (List.append_nil _).symm

theorem chars_ofTypeExpr {room : Nat} {t : Sdl.TypeExpr} (h : t.Fits room) (location : Location) :
    (ofTypeExpr location t).chars = t.chars :=
  (chars_ofMarked h location true).trans (List.append_nil _)

/-- Every level stands where the whole type is written. -/
theorem location_of_mem_levels {location : Location} {t : Sdl.TypeExpr} {b : AnnotatedType}
    (h : b ∈ (ofTypeExpr location t).levels) : b.location = location := by
  unfold ofTypeExpr at h
  generalize true = nullable at h
  induction t generalizing nullable with
  | named name =>
    rw [List.mem_singleton.mp h]
    rfl
  | list item ih =>
    rcases List.mem_cons.mp h with rfl | h
    · rfl
    · exact ih true h
  | nonNull t ih => exact ih false h

end AnnotatedType

/-! ## Candidates -/

namespace CandidateType

/-- A candidate's type and those of the items inside its lists, from the outside in. -/
def levels : CandidateType → List CandidateType
  | .list item nullable => .list item nullable :: item.levels
  | .named kind name nullable => [.named kind name nullable]

/-- The kind of the type inside all lists. -/
def innermostKind : CandidateType → Option TypeKind
  | .list item _ => item.innermostKind
  | .named kind _ _ => kind

theorem levels_ofAnnotated (s : Schema) (a : AnnotatedType) :
    (ofAnnotated s a).levels = a.levels.map (ofAnnotated s) := by
  induction a with
  | list item nullable location ih => rw [ofAnnotated, levels, ih, AnnotatedType.levels]; rfl
  | named name nullable location => rfl

theorem nullable_ofAnnotated (s : Schema) (a : AnnotatedType) :
    (ofAnnotated s a).nullable = a.nullable := by
  cases a <;> rfl

theorem innermostKind_ofAnnotated (s : Schema) (a : AnnotatedType) :
    (ofAnnotated s a).innermostKind = (s.innermostType? a).map NamedType.kind := by
  induction a with
  | list item nullable location ih => exact ih
  | named name nullable location => rfl

/-- What is read as a type somewhere in a text is read again from the text of its annotation, at
whatever location. The candidate has this text and, level by level, the nullability of the
annotation; it shows the kind of the innermost type iff the schema has the type. Every level of the
annotation has the location. -/
theorem type_text_kept (location : Location) (s : Schema) (t : Sdl.TypeExpr) :
    ((∃ ts rest, Sdl.Lexed ts ∧ Sdl.TypeExpr.read ts = some (t, rest)) ↔
        t.Fits Sdl.maxNesting) ∧
      (Sdl.TypeExpr.parse? (AnnotatedType.ofTypeExpr location t).text.toList = some t ↔
        t.Fits Sdl.maxNesting) ∧
      (ofAnnotated s (.ofTypeExpr location t)).text = (AnnotatedType.ofTypeExpr location t).text ∧
      List.Forall₂ (fun c b => c.text = b.text ∧ c.nullable = b.nullable)
        (ofAnnotated s (.ofTypeExpr location t)).levels
        (AnnotatedType.ofTypeExpr location t).levels ∧
      (∀ kind, (ofAnnotated s (.ofTypeExpr location t)).innermostKind = some kind ↔
        ∃ d, s.type? t.innermostName = some d ∧ d.kind = kind) ∧
      ∀ b ∈ (AnnotatedType.ofTypeExpr location t).levels, b.location = location := by
  refine ⟨Sdl.TypeExpr.exists_read_iff, ⟨Sdl.TypeExpr.fits_of_parse?, ?_⟩,
    Candidate.text_ofAnnotated s _, ?_, ?_, ?_⟩
  · intro h
    rw [AnnotatedType.text, String.toList_ofList, AnnotatedType.chars_ofTypeExpr h]
    exact Sdl.TypeExpr.parse?_chars_iff.mpr h
  · rw [levels_ofAnnotated, List.forall₂_map_left_iff, List.forall₂_same]
    intro b _
    exact ⟨Candidate.text_ofAnnotated s b, nullable_ofAnnotated s b⟩
  · intro kind
    rw [innermostKind_ofAnnotated, Schema.innermostType?, innermostName_ofTypeExpr,
      Option.map_eq_some_iff]
  · intro b hb
    exact AnnotatedType.location_of_mem_levels hb

end CandidateType

end SchemaHint
