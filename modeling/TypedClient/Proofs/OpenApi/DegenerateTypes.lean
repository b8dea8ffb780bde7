import TypedClient.Proofs.OpenApi.History
import TypedClient.Proofs.OpenApi.ShapeParts

/-! Types that cannot be printed.

What mapping puts out, the type of a schema and the declarations of the components that it has come
to, is free of degenerate types and of parts without a text as long as no `allOf` is empty.
-/

set_option autoImplicit false

namespace TypedClient.OpenApi

open Text (QuoteStyle)
open TypeScript (Declaration TypeExpr)

def Emitted (registry : Registry) (type part : TypeExpr) : Prop :=
  part.OccursIn type ∨
    ∃ declaration ∈ registry.declarations, part.OccursIn declaration.body.type

namespace Document

/-- The schemas whose types are put out when a schema is mapped after others: the schema itself and the
components that it and the others reach. -/
inductive PutsOut (document : Document) (schemas : List Schema) (schema : Schema) : Schema → Prop where
  | own : PutsOut document schemas schema schema
  | component {origin target : Schema} {reference : String} : origin ∈ schemas ++ [schema] →
      document.Reaches origin reference → document.schemaAt? reference = some target →
      PutsOut document schemas schema target

variable {document : Document} {propsOptional : Bool} {schemas : List Schema} {schema : Schema}
  {registry after : Registry} {type part : TypeExpr}

/-- An empty `allOf` that nothing stands beside decides the type of a schema that is put out, or of a
part of it. -/
def LeavesNone (document : Document) (schemas : List Schema) (schema : Schema) : Prop :=
  ∃ origin content, document.PutsOut schemas schema origin ∧
    origin.InPlace (.keywords content) ∧ content.AllOfNone

section Mapped
variable (mapped : document.Mapped propsOptional schemas registry)
  (given : (document.typeOf propsOptional schema).outcome registry = (.ok type, after))
include mapped given

theorem emitted_iff : Emitted after type part ↔
    ∃ origin, document.PutsOut schemas schema origin ∧ part.OccursIn (origin.shape propsOptional) := by
  have next := mapped.next given
  obtain ⟨-, rfl⟩ := Walk.of_typeOf mapped.complete.named given
  have declared : ∀ declaration, declaration ∈ after.declarations ↔ ∃ origin ∈ schemas ++ [schema],
      ∃ reference, document.Reaches origin reference ∧
        document.declarationOf propsOptional reference = some declaration := by
    intro declaration
    rw [next.complete.mem_declarations_iff]
    simp only [next.mem_references_iff]
    constructor
    · rintro ⟨reference, ⟨origin, member, reaches⟩, found⟩
      exact ⟨origin, member, reference, reaches, found⟩
    · rintro ⟨origin, member, reference, reaches, found⟩
      exact ⟨reference, ⟨origin, member, reaches⟩, found⟩
  constructor
  · rintro (occurs | ⟨declaration, listed, occurs⟩)
    · exact ⟨schema, .own, occurs⟩
    · obtain ⟨origin, member, reference, reaches, found⟩ := (declared declaration).mp listed
      obtain ⟨target, resolved, rfl⟩ := Option.map_eq_some_iff.mp found
      rw [componentDeclaration_type] at occurs
      exact ⟨target, .component member reaches resolved, occurs⟩
  · rintro ⟨target, own | ⟨member, reaches, resolved⟩, occurs⟩
    · exact .inl occurs
    · have found := document.declarationOf_of_schemaAt propsOptional resolved
      refine .inr ⟨_, (declared _).mpr ⟨_, member, _, reaches, found⟩, ?_⟩
      rwa [componentDeclaration_type]

/-- What is put out is solid, a name, or the empty intersection. -/
theorem emitted_cases (emitted : Emitted after type part) :
    part.Solid ∨ (∃ target, part = .reference (referenceTypeName target)) ∨
      part = .intersection [] ∧ document.LeavesNone schemas schema := by
  obtain ⟨origin, out, occurs⟩ := (emitted_iff mapped given).mp emitted
  refine (Schema.parts_of_shape occurs).imp_right (Or.imp_right ?_)
  rintro ⟨same, content, inPlace, none⟩
  exact ⟨same, origin, content, out, inPlace, none⟩

theorem emitted_of_leavesNone (none : document.LeavesNone schemas schema) :
    Emitted after type (.intersection []) := by
  obtain ⟨origin, content, out, inPlace, none⟩ := none
  exact (emitted_iff mapped given).mpr ⟨origin, out, Schema.occursIn_shape inPlace none⟩

/-- A degenerate type is put out, or a part without a text, if and only if an `allOf` is empty where it
decides. It is an intersection of no types then. -/
theorem degenerate_iff :
    (∀ part, Emitted after type part → part.Degenerate → part = .intersection []) ∧
    ((∃ part, Emitted after type part ∧ part.Degenerate) ↔ document.LeavesNone schemas schema) ∧
    ∀ quotes, (∃ part, Emitted after type part ∧ part.text quotes = "") ↔
      document.LeavesNone schemas schema := by
  have degenerate : ∀ part, Emitted after type part → part.Degenerate →
      part = .intersection [] ∧ document.LeavesNone schemas schema := by
    intro part emitted degenerate
    rcases emitted_cases mapped given emitted with solid | ⟨target, rfl⟩ | none
    · exact absurd degenerate solid.not_degenerate
    · cases degenerate
    · exact none
  have textless : ∀ quotes part, Emitted after type part → part.text quotes = "" →
      document.LeavesNone schemas schema := by
    intro quotes part emitted blank
    rcases emitted_cases mapped given emitted with solid | ⟨target, rfl⟩ | ⟨-, none⟩
    · exact absurd blank (solid.text_ne quotes)
    · rw [TypeExpr.text] at blank
      exact absurd blank (Text.typeName_ne_empty _)
    · exact none
  have leaves := emitted_of_leavesNone mapped given
  refine ⟨fun part emitted few => (degenerate part emitted few).1, ⟨?_, ?_⟩, fun quotes => ⟨?_, ?_⟩⟩
  · rintro ⟨part, emitted, few⟩
    exact (degenerate part emitted few).2
  · exact fun none => ⟨_, leaves none, .intersection Nat.zero_lt_two⟩
  · rintro ⟨part, emitted, blank⟩
    exact textless quotes part emitted blank
  · exact fun none => ⟨_, leaves none, rfl⟩

end Mapped

def hollowDocument : Document where
  paths := []
  components := { Components.empty with schemas := [
    ("Nothing", .keywords { Keywords.bare with allOf := some [] }),
    ("Maybe", .keywords { Keywords.bare with
      anyOf := some [.reference "#/components/schemas/Nothing"], nullable := true })] }
  definitions := []

theorem hollow_degenerate_iff : ∃ registry type after,
    hollowDocument.Mapped true [.reference "#/components/schemas/Maybe"] registry ∧
    (hollowDocument.typeOf true (.reference "#/components/schemas/Nothing")).outcome registry =
      (.ok type, after) ∧
    hollowDocument.LeavesNone [.reference "#/components/schemas/Maybe"]
      (.reference "#/components/schemas/Nothing") ∧
    (∃ part, Emitted after type part ∧ part.Degenerate) ∧
    ∃ part, Emitted after type part ∧ part.text .single = "" := by
  obtain ⟨registry, mapped, type, after, given⟩ : ∃ registry,
      hollowDocument.Mapped true [.reference "#/components/schemas/Maybe"] registry ∧
      ∃ type after, (hollowDocument.typeOf true
        (.reference "#/components/schemas/Nothing")).outcome registry = (.ok type, after) :=
    ⟨_, .next .start rfl, _, _, rfl⟩
  have leaves : hollowDocument.LeavesNone [.reference "#/components/schemas/Maybe"]
      (.reference "#/components/schemas/Nothing") :=
    ⟨_, _, .component (List.mem_append_right _ List.mem_cons_self) .met rfl, .self, rfl, rfl, rfl⟩
  obtain ⟨-, degenerate, textless⟩ := degenerate_iff mapped given
  exact ⟨registry, type, after, mapped, given, leaves, degenerate.mpr leaves,
    (textless .single).mpr leaves⟩

theorem hollow_unprintable :
    (hollowDocument.typeOf true (.keywords { Keywords.bare with allOf := some [] })).outcome [] =
      (.ok (.intersection []), []) ∧
    (TypeExpr.intersection []).Degenerate ∧ (TypeExpr.intersection []).text .single = "" ∧
    ∃ after, (hollowDocument.typeOf true (.reference "#/components/schemas/Nothing")).outcome [] =
        (.ok (.reference "Nothing"), after) ∧
      after.declarations.map (Item.render Style.standard [·.item .single]) =
        ["export type Nothing = ;\n"] :=
  ⟨rfl, .intersection Nat.zero_lt_two, rfl, _, rfl, rfl⟩

end Document

end TypedClient.OpenApi
