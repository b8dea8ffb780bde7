import TypedClient.Proofs.OpenApi.History
import TypedClient.Proofs.OpenApi.OperationWalk
import TypedClient.Proofs.TypeScript.Unions

/-! The responses of an operation by their classes.

One mapper takes the bodies of all classes in the order of the document. What it knows from one class
neither changes the body of another nor makes it fail, so an alternative depends on the responses of its
class alone, and on their order.
-/

set_option autoImplicit false

namespace TypedClient.OpenApi

open TypeScript (TypeExpr)

section Mappers
variable {document : Document} {propsOptional : Bool} {registry : Registry}

/-- What a mapper can hold: nothing at first, and then whatever the mapping of a schema leaves, also when
it fails. -/
inductive Document.Reached (document : Document) (propsOptional : Bool) : Registry → Prop where
  | start : Reached document propsOptional []
  | next {registry : Registry} (schema : Schema) : Reached document propsOptional registry →
      Reached document propsOptional ((document.typeOf propsOptional schema).outcome registry).2

theorem Document.Reached.named (reached : document.Reached propsOptional registry) : registry.Named := by
  induction reached with
  | start => exact nofun
  | next schema _ ih =>
    obtain ⟨outcome, final, walk, equal⟩ := document.typeOf_walk schema _ ih
    rw [equal]
    exact walk.named ih

/-- After a successful walk, its steps succeed from the same registry in any order, and so does any part
of them. -/
theorem Document.Walk.again {steps others : List Step} {final after : Registry}
    {outcome : Except Fault Unit} (walk : document.Walk propsOptional steps registry (.ok ()) final)
    (beside : document.Walk propsOptional others registry outcome after) (fewer : others ⊆ steps) :
    outcome = .ok () := by
  -- What the first walk has met is settled, also against what it would add to the registry.
  obtain ⟨within, settled⟩ := walk.settles
  exact (beside.succeeds_beyond settled (fun step met => within step (fewer met))
    (List.Subset.refl _)).1

theorem Document.typeOf?_performs (document : Document) (propsOptional : Bool) (schema : Option Schema) :
    Performs (document.enter propsOptional document.visitLimit) (document.typeOf? propsOptional schema)
      (Schema.steps? schema) (Schema.shape? propsOptional schema) := by
  cases schema with
  | none => exact .done _
  | some schema => exact document.typeOf_performs schema

end Mappers

section Bodies
variable {document : Document} {propsOptional wrap : Bool} {registry : Registry} {operation : Operation}
  {status : StatusClass}

def Operation.responsesOf (operation : Operation) (status : StatusClass) : List Response :=
  (operation.responses.filter fun entry => StatusClass.ofKey? entry.1 = some status).map Prod.snd

def bodyTypes (document : Document) (propsOptional : Bool) (responses : List Response) :
    Mapping (List TypeExpr) :=
  responses.mapM fun response => document.typeOf? propsOptional response.firstSchema?

def Response.shape (propsOptional : Bool) (response : Response) : TypeExpr :=
  Schema.shape? propsOptional response.firstSchema?

def Response.steps (response : Response) : List Step := Schema.steps? response.firstSchema?

theorem bodyTypes_performs (document : Document) (propsOptional : Bool) (responses : List Response) :
    Performs (document.enter propsOptional document.visitLimit)
      (bodyTypes document propsOptional responses) (responses.flatMap Response.steps)
      (responses.map (Response.shape propsOptional)) :=
  .mapM (document.enter_names propsOptional document.visitLimit) responses fun response _ =>
    document.typeOf?_performs propsOptional response.firstSchema?

/-- The classified responses of a class are its responses. -/
theorem classified_filter {α : Type} (operation : Operation) (status : StatusClass) (f : Response → α) :
    ((operation.classified.map fun entry => (entry.1, f entry.2)).filter (·.1 == status)).map Prod.snd =
      (operation.responsesOf status).map f := by
  unfold Operation.classified Operation.responsesOf
  -- A response is left out on both sides if it has no class, and if it has another one.
  induction operation.responses with
  | nil => rfl
  | cons entry rest ih =>
    cases found : StatusClass.ofKey? entry.1 with
    | none => simpa [found] using ih
    | some other =>
      by_cases same : other = status
      · simpa [found, same] using ih
      · simpa [found, same] using ih

theorem responseBodies_performs (document : Document) (propsOptional : Bool)
    (responses : List (StatusClass × Response)) :
    Performs (document.enter propsOptional document.visitLimit)
      (responseBodies document propsOptional responses) (responses.flatMap fun entry => entry.2.steps)
      (responses.map fun entry => (entry.1, entry.2.shape propsOptional)) := by
  refine .mapM (document.enter_names propsOptional document.visitLimit) responses fun entry _ => ?_
  have body := (document.typeOf?_performs propsOptional entry.2.firstSchema?).map fun type => (entry.1, type)
  rwa [map_eq_pure_bind] at body

/-- The alternatives that an operation has if all its bodies can be mapped. -/
def Operation.alternatives (propsOptional wrap : Bool) (operation : Operation) : List Alternative :=
  StatusClass.all.filterMap (alternative? wrap
    (operation.classified.map fun entry => (entry.1, entry.2.shape propsOptional)))

theorem responseAlternatives_performs (document : Document) (propsOptional wrap : Bool)
    (operation : Operation) :
    Performs (document.enter propsOptional document.visitLimit)
      (responseAlternatives document propsOptional wrap operation)
      (operation.classified.flatMap fun entry => entry.2.steps)
      (operation.alternatives propsOptional wrap) := by
  have grouped := (responseBodies_performs document propsOptional operation.classified).map fun bodies =>
    StatusClass.all.filterMap (alternative? wrap bodies)
  rwa [map_eq_pure_bind] at grouped

/-- The type of a class, from its bodies in order: their union without repetitions. -/
def alternativeType (wrap : Bool) (status : StatusClass) (bodies : List TypeExpr) : TypeExpr :=
  let body := TypeExpr.collapsed (leading TypeExpr.same bodies)
  if wrap then fullResponse body status else body

theorem alternative?_eq_nonemptyiff {alternative : Alternative} :
    alternative? wrap (operation.classified.map fun entry => (entry.1, entry.2.shape propsOptional)) status =
        some alternative ↔
      operation.responsesOf status ≠ [] ∧ alternative = ⟨status, alternativeType wrap status
        ((operation.responsesOf status).map (Response.shape propsOptional))⟩ := by
  unfold alternative?
  rw [classified_filter]
  cases found : operation.responsesOf status with
  | nil => simp
  | cons first rest =>
    rw [List.map_cons]
    simp only [Option.some.injEq, ne_eq, reduceCtorEq, not_false_eq_true, true_and]
    -- A class that is listed has a body, so the union is not one of nothing.
    rw [TypeExpr.unionOf_eq_collapsed (List.cons_ne_nil _ _)]
    exact eq_comm

theorem mem_alternatives_iff {alternative : Alternative} :
    alternative ∈ operation.alternatives propsOptional wrap ↔
      operation.responsesOf alternative.status ≠ [] ∧
        alternative.type = alternativeType wrap alternative.status
          ((operation.responsesOf alternative.status).map (Response.shape propsOptional)) := by
  have every : ∀ status, status ∈ StatusClass.all := by
    intro status
    cases status <;> decide
  simp only [Operation.alternatives, List.mem_filterMap, alternative?_eq_nonemptyiff]
  constructor
  · rintro ⟨status, _, nonempty, rfl⟩
    exact ⟨nonempty, rfl⟩
  · rintro ⟨nonempty, type⟩
    exact ⟨alternative.status, every _, nonempty, by rw [← type]⟩

theorem ascending_alternatives (propsOptional wrap : Bool) (operation : Operation) :
    (operation.alternatives propsOptional wrap).Pairwise fun first second =>
      first.status.digit < second.status.digit := by
  have classes : StatusClass.all.Pairwise fun first second => first.digit < second.digit := by decide
  refine List.Pairwise.filterMap _ ?_ classes
  intro first second below alternative given other givenToo
  obtain ⟨_, rfl⟩ := alternative?_eq_nonemptyiff.mp given
  obtain ⟨_, rfl⟩ := alternative?_eq_nonemptyiff.mp givenToo
  exact below

theorem responsesOf_ne_nil_iff : operation.responsesOf status ≠ [] ↔
    ∃ entry ∈ operation.responses, StatusClass.ofKey? entry.1 = some status := by
  unfold Operation.responsesOf
  simp only [ne_eq, List.map_eq_nil_iff, List.filter_eq_nil_iff, decide_eq_true_eq]
  push Not
  exact Iff.rfl

theorem mem_classified_iff {response : Response} :
    (status, response) ∈ operation.classified ↔ response ∈ operation.responsesOf status := by
  simp only [Operation.classified, Operation.responsesOf, List.mem_filterMap, List.mem_map, List.mem_filter,
    Option.map_eq_some_iff, Prod.mk.injEq, decide_eq_true_eq]
  constructor
  · rintro ⟨entry, listed, _, found, rfl, rfl⟩
    exact ⟨entry, ⟨listed, found⟩, rfl⟩
  · rintro ⟨entry, ⟨listed, found⟩, rfl⟩
    exact ⟨entry, listed, status, found, rfl, rfl⟩

/-- Every class has the same responses in the same order. How those of different classes stand between
each other does not count, nor do keys without a class. -/
def Operation.SameClasses (operation other : Operation) : Prop :=
  ∀ status, other.responsesOf status = operation.responsesOf status

theorem alternatives_congr {other : Operation} (same : operation.SameClasses other)
    (propsOptional wrap : Bool) :
    other.alternatives propsOptional wrap = operation.alternatives propsOptional wrap := by
  refine List.filterMap_congr fun status _ => ?_
  unfold alternative?
  rw [classified_filter, classified_filter, same status]

theorem steps_subset {other : Operation} (same : operation.SameClasses other) :
    (other.classified.flatMap fun entry => entry.2.steps) ⊆
      operation.classified.flatMap fun entry => entry.2.steps := by
  intro step met
  obtain ⟨⟨status, response⟩, listed, inside⟩ := List.mem_flatMap.mp met
  rw [mem_classified_iff, same status, ← mem_classified_iff] at listed
  exact List.mem_flatMap.mpr ⟨_, listed, inside⟩

end Bodies

section Grouping
variable {document : Document} {propsOptional wrap : Bool} {registry : Registry} {operation : Operation}
  {alternatives : List Alternative}

structure Groups (document : Document) (propsOptional wrap : Bool) (operation : Operation)
    (registry : Registry) (alternatives : List Alternative) : Prop where
  ascending : alternatives.Pairwise fun first second => first.status.digit < second.status.digit
  classes : ∀ status, (∃ alternative ∈ alternatives, alternative.status = status) ↔
    ∃ entry ∈ operation.responses, StatusClass.ofKey? entry.1 = some status
  /-- The bodies of a class are the same in the run over all responses as by themselves. -/
  bodies : ∃ all after,
    (responseBodies document propsOptional operation.classified).outcome registry = (.ok all, after) ∧
      ∀ status, ((bodyTypes document propsOptional (operation.responsesOf status)).outcome registry).1 =
        .ok ((all.filter (·.1 == status)).map Prod.snd)
  types : ∀ alternative ∈ alternatives, ∃ bodies,
    ((bodyTypes document propsOptional (operation.responsesOf alternative.status)).outcome registry).1 =
        .ok bodies ∧ alternative.type = alternativeType wrap alternative.status bodies

theorem walk_of_responseAlternatives (named : registry.Named)
    (given : ((responseAlternatives document propsOptional wrap operation).outcome registry).1 =
      .ok alternatives) :
    (∃ final, document.Walk propsOptional (operation.classified.flatMap fun entry => entry.2.steps) registry
      (.ok ()) final) ∧ alternatives = operation.alternatives propsOptional wrap := by
  obtain ⟨outcome, final, walk, equal⟩ := Document.walk_of_performs
    (responseAlternatives_performs document propsOptional wrap operation) registry named
  rw [equal] at given
  cases outcome with
  | error fault => cases given
  | ok _ =>
    cases given
    exact ⟨⟨final, walk⟩, rfl⟩

/-- What performs some of the steps of a successful walk succeeds. -/
theorem value_of_performs {α : Type} {mapping : Mapping α} {steps others : List Step} {value : α}
    {final : Registry} (named : registry.Named)
    (walk : document.Walk propsOptional steps registry (.ok ()) final)
    (performs : Performs (document.enter propsOptional document.visitLimit) mapping others value)
    (fewer : others ⊆ steps) : ∃ after, mapping.outcome registry = (.ok value, after) := by
  obtain ⟨outcome, after, beside, equal⟩ := Document.walk_of_performs performs registry named
  rw [walk.again beside fewer] at equal
  exact ⟨after, equal⟩

theorem outcome_bodyTypes_of_walk {final : Registry} (named : registry.Named)
    (walk : document.Walk propsOptional (operation.classified.flatMap fun entry => entry.2.steps) registry
      (.ok ()) final) (status : StatusClass) :
    ((bodyTypes document propsOptional (operation.responsesOf status)).outcome registry).1 =
      .ok ((operation.responsesOf status).map (Response.shape propsOptional)) := by
  have fewer : (operation.responsesOf status).flatMap Response.steps ⊆
      operation.classified.flatMap fun entry => entry.2.steps := by
    intro step met
    obtain ⟨response, listed, inside⟩ := List.mem_flatMap.mp met
    exact List.mem_flatMap.mpr ⟨(status, response), mem_classified_iff.mpr listed, inside⟩
  obtain ⟨after, equal⟩ := value_of_performs named walk (bodyTypes_performs document propsOptional _) fewer
  rw [equal]

theorem groups_of_walk {final : Registry} (named : registry.Named)
    (walk : document.Walk propsOptional (operation.classified.flatMap fun entry => entry.2.steps) registry
      (.ok ()) final) :
    Groups document propsOptional wrap operation registry (operation.alternatives propsOptional wrap) := by
  have alone := outcome_bodyTypes_of_walk named walk
  constructor
  case ascending => exact ascending_alternatives propsOptional wrap operation
  case classes =>
    intro status
    rw [← responsesOf_ne_nil_iff]
    constructor
    · rintro ⟨alternative, listed, rfl⟩
      exact (mem_alternatives_iff.mp listed).1
    · intro nonempty
      let bodies := (operation.responsesOf status).map (Response.shape propsOptional)
      exact ⟨⟨status, alternativeType wrap status bodies⟩, mem_alternatives_iff.mpr ⟨nonempty, rfl⟩, rfl⟩
  case bodies =>
    -- The bodies of all classes take the very steps of the walk.
    obtain ⟨after, equal⟩ := value_of_performs named walk
      (responseBodies_performs document propsOptional operation.classified) (List.Subset.refl _)
    refine ⟨_, after, equal, fun status => ?_⟩
    rw [alone, classified_filter]
  case types =>
    intro alternative listed
    exact ⟨_, alone alternative.status, (mem_alternatives_iff.mp listed).2⟩

/-- The alternatives of an operation group its responses. They are the same for every operation with the
same responses in each class, which can be mapped if this one can. -/
theorem responseAlternatives_group (reached : document.Reached propsOptional registry)
    (given : ((responseAlternatives document propsOptional wrap operation).outcome registry).1 =
      .ok alternatives) :
    Groups document propsOptional wrap operation registry alternatives ∧
      ∀ other : Operation, operation.SameClasses other →
        ((responseAlternatives document propsOptional wrap other).outcome registry).1 =
          .ok alternatives := by
  have named := reached.named
  obtain ⟨⟨final, walk⟩, rfl⟩ := walk_of_responseAlternatives named given
  refine ⟨groups_of_walk named walk, fun other same => ?_⟩
  -- Another order of the classes leads through the same steps, if not in the same order.
  obtain ⟨after, equal⟩ := value_of_performs named walk
    (responseAlternatives_performs document propsOptional wrap other) (steps_subset same)
  rw [equal, alternatives_congr same]

def treeAnswer (component : String) : Response :=
  ⟨none, [("application/json", some (.reference ("#/components/schemas/" ++ component)))], none⟩

def mixedOperation : Operation :=
  ⟨"/nodes", .get, "getNodes", [], none,
    [("404", treeAnswer "Tag"), ("200", treeAnswer "Node"), ("default", treeAnswer "Missing"),
      ("2XX", treeAnswer "Tag"), ("5xx", ⟨none, [], none⟩), ("201", treeAnswer "Node")]⟩

def sortedOperation : Operation :=
  { mixedOperation with
    responses := [("200", treeAnswer "Node"), ("202", treeAnswer "Tag"), ("201", treeAnswer "Node"),
      ("404", treeAnswer "Tag"), ("other", treeAnswer "Tag"), ("500", ⟨none, [], none⟩)] }

theorem mixedOperation_group : ∃ registry alternatives, treeDocument.Reached false registry ∧
    registry ≠ [] ∧ ((responseAlternatives treeDocument false true mixedOperation).outcome registry).1 =
      .ok alternatives ∧
    Groups treeDocument false true mixedOperation registry alternatives ∧
    alternatives.map (·.type) = [
      fullResponse (.union [.reference "Node", .reference "Tag"]) .success,
      fullResponse (.reference "Tag") .clientError, fullResponse .unknown .serverError] ∧
    ((responseAlternatives treeDocument false true sortedOperation).outcome registry).1 =
      .ok alternatives := by
  have reached := Document.Reached.next (.reference "#/components/schemas/Tag")
    (@Document.Reached.start treeDocument false)
  have given : ((responseAlternatives treeDocument false true mixedOperation).outcome
    ((treeDocument.typeOf false (.reference "#/components/schemas/Tag")).outcome []).2).1 = .ok _ := rfl
  obtain ⟨groups, others⟩ := responseAlternatives_group reached given
  have same : mixedOperation.SameClasses sortedOperation := by
    intro status
    cases status <;> rfl
  exact ⟨_, _, reached, List.cons_ne_nil _ _, given, groups, rfl, others sortedOperation same⟩

end Grouping

end TypedClient.OpenApi
