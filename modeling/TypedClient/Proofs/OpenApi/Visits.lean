import Mathlib.Data.Finset.Card
import TypedClient.Proofs.OpenApi.Reachability
import TypedClient.Proofs.OpenApi.VisitLog

/-! How often and how deep the mapping of schemas goes into components.

A mapper keeps what it has met, so over all schemas that it is given it enters no reference twice. The
components that are open at a time have different references as well, which bounds how deep visits nest. So
the recursion is at its end after so many turns, whatever a further one would do. The visits are read from
the log of the mapper itself: `Document.Trail` says which they are on a walk, and
`Document.Trail.outcome_visits` that the log holds those and no others.
-/

set_option autoImplicit false

namespace TypedClient.OpenApi

open TypeScript (TypeExpr)

def entries (visits : List Visit) : List String :=
  (visits.filter (·.enters)).map (·.reference)

section Entries
variable {visits others : List Visit}

@[simp] theorem entries_nil : entries [] = [] := rfl

@[simp] theorem entries_append : entries (visits ++ others) = entries visits ++ entries others := by
  simp [entries]

@[simp] theorem entries_passing (reference : String) (within : List String) :
    entries (⟨reference, within, false⟩ :: visits) = entries visits := rfl

@[simp] theorem entries_entering (reference : String) (within : List String) :
    entries (⟨reference, within, true⟩ :: visits) = reference :: entries visits := rfl

end Entries

theorem Registry.nodup_register {registry : Registry} {reference : String}
    (distinct : registry.references.Nodup) (fresh : reference ∉ registry.references) (name : String) :
    (registry.register reference name).references.Nodup := by
  rw [references_register]
  exact distinct.append (List.nodup_singleton _) (by simpa using fresh)

namespace Document

variable (document : Document) (propsOptional : Bool)

inductive Trail :
    List String → List Step → Registry → Except Fault Unit → Registry → List Visit → Prop where
  | done {within : List String} {registry : Registry} : Trail within [] registry (.ok ()) registry []
  | refused {within : List String} {name : String} {rest : List Step} {registry : Registry} :
      Trail within (.refuse name :: rest) registry (.error (.unknownNode .openApiType name)) registry []
  | known {within : List String} {reference : String} {rest : List Step} {registry final : Registry}
      {outcome : Except Fault Unit} {visits : List Visit} :
      reference ∈ registry.references → Trail within rest registry outcome final visits →
      Trail within (.meet reference :: rest) registry outcome final
        (⟨reference, within, false⟩ :: visits)
  | missing {within : List String} {reference : String} {rest : List Step} {registry : Registry} :
      reference ∉ registry.references → document.schemaAt? reference = none →
      Trail within (.meet reference :: rest) registry (.error (.unresolvedReference reference)) registry
        [⟨reference, within, false⟩]
  | broken {within : List String} {reference : String} {rest : List Step} {registry inner : Registry}
      {target : Schema} {fault : Fault} {inside : List Visit} :
      reference ∉ registry.references → document.schemaAt? reference = some target →
      Trail (reference :: within) target.steps (registry.register reference (referenceTypeName reference))
        (.error fault) inner inside →
      Trail within (.meet reference :: rest) registry (.error fault) inner
        (⟨reference, within, true⟩ :: inside)
  | entered {within : List String} {reference : String} {rest : List Step}
      {registry inner final : Registry} {target : Schema} {outcome : Except Fault Unit}
      {inside visits : List Visit} :
      reference ∉ registry.references → document.schemaAt? reference = some target →
      Trail (reference :: within) target.steps (registry.register reference (referenceTypeName reference))
        (.ok ()) inner inside →
      Trail within rest
        (inner.declare reference
          (componentDeclaration (referenceTypeName reference) (target.shape propsOptional)))
        outcome final visits →
      Trail within (.meet reference :: rest) registry outcome final
        (⟨reference, within, true⟩ :: inside ++ visits)

variable {document propsOptional}

theorem Walk.exists_trail {steps : List Step} {registry final : Registry} {outcome : Except Fault Unit}
    (walk : document.Walk propsOptional steps registry outcome final) (within : List String) :
    ∃ visits, document.Trail propsOptional within steps registry outcome final visits := by
  induction walk generalizing within with
  | done => exact ⟨_, .done⟩
  | refused => exact ⟨_, .refused⟩
  | known old _ ih =>
    obtain ⟨visits, made⟩ := ih within
    exact ⟨_, .known old made⟩
  | missing fresh unresolved => exact ⟨_, .missing fresh unresolved⟩
  | broken fresh resolved _ ih =>
    obtain ⟨inside, made⟩ := ih (_ :: within)
    exact ⟨_, .broken fresh resolved made⟩
  | entered fresh resolved _ _ ihTarget ihRest =>
    obtain ⟨inside, made⟩ := ihTarget (_ :: within)
    obtain ⟨visits, others⟩ := ihRest within
    exact ⟨_, .entered fresh resolved made others⟩

namespace Trail

variable {within : List String} {steps : List Step} {registry final : Registry}
  {outcome : Except Fault Unit} {visits : List Visit}

theorem walk (made : document.Trail propsOptional within steps registry outcome final visits) :
    document.Walk propsOptional steps registry outcome final := by
  induction made with
  | done => exact .done
  | refused => exact .refused
  | known old _ ih => exact .known old ih
  | missing fresh unresolved => exact .missing fresh unresolved
  | broken fresh resolved _ ih => exact .broken fresh resolved ih
  | entered fresh resolved _ _ ihTarget ihRest => exact .entered fresh resolved ihTarget ihRest

/-- The references that are entered are those that the registry gains. -/
theorem references_eq (made : document.Trail propsOptional within steps registry outcome final visits) :
    final.references = registry.references ++ entries visits := by
  induction made with
  | done => simp
  | refused => simp
  | known _ _ ih => simpa using ih
  | missing => simp [entries]
  | broken _ _ _ ih =>
    rw [Registry.references_register] at ih
    simpa using ih
  | entered _ _ _ _ ihTarget ihRest =>
    rw [Registry.references_register] at ihTarget
    rw [Registry.references_declare, ihTarget] at ihRest
    simpa using ihRest

/-- Only a new reference is entered. -/
theorem nodup_references (made : document.Trail propsOptional within steps registry outcome final visits)
    (distinct : registry.references.Nodup) : final.references.Nodup := by
  induction made with
  | done => exact distinct
  | refused => exact distinct
  | known _ _ ih => exact ih distinct
  | missing => exact distinct
  | broken fresh _ _ ih => exact ih (Registry.nodup_register distinct fresh _)
  | entered fresh _ _ _ ihTarget ihRest =>
    apply ihRest
    rw [Registry.references_declare]
    exact ihTarget (Registry.nodup_register distinct fresh _)

/-- What is met stands in what is mapped or in the tables of the document. -/
theorem met (made : document.Trail propsOptional within steps registry outcome final visits) :
    ∀ visit ∈ visits, .meet visit.reference ∈ steps ∨ visit.reference ∈ document.references := by
  induction made with
  | done => exact nofun
  | refused => exact nofun
  | known _ _ ih =>
    intro visit member
    rcases List.mem_cons.mp member with rfl | later
    · exact .inl List.mem_cons_self
    · exact (ih visit later).imp_left (List.mem_cons_of_mem _)
  | missing =>
    intro visit member
    rw [List.mem_singleton.mp member]
    exact .inl List.mem_cons_self
  | broken _ resolved _ ih =>
    intro visit member
    rcases List.mem_cons.mp member with rfl | below
    · exact .inl List.mem_cons_self
    · exact .inr ((ih visit below).elim (document.mem_references_of_met resolved) id)
  | entered _ resolved _ _ ihTarget ihRest =>
    intro visit member
    rcases List.mem_cons.mp member with rfl | member
    · exact .inl List.mem_cons_self
    · rcases List.mem_append.mp member with below | later
      · exact .inr ((ihTarget visit below).elim (document.mem_references_of_met resolved) id)
      · exact (ihRest visit later).imp_left (List.mem_cons_of_mem _)

end Trail

end Document

/-- The components that are open on a visit have different references, all of them known in the end. A
reference whose component is entered is not among them. -/
structure Visit.Nests (known : List String) (visit : Visit) : Prop where
  distinct : visit.within.Nodup
  registered : visit.within ⊆ known
  new : visit.enters = true → visit.reference ∉ visit.within ∧ visit.reference ∈ known

namespace Visit.Nests
variable {known more : List String} {visit : Visit}

theorem mono (nests : visit.Nests known) (grown : known ⊆ more) : visit.Nests more :=
  ⟨nests.distinct, List.Subset.trans nests.registered grown,
    fun enters => ⟨(nests.new enters).1, grown (nests.new enters).2⟩⟩

theorem length_le (nests : visit.Nests known) : visit.within.length ≤ known.length :=
  (nests.distinct.subperm nests.registered).length_le

/-- The component that is entered is open as well. -/
theorem length_lt (nests : visit.Nests known) (enters : visit.enters = true) :
    visit.within.length < known.length := by
  obtain ⟨other, member⟩ := nests.new enters
  have stack : (visit.reference :: visit.within).Nodup := List.nodup_cons.mpr ⟨other, nests.distinct⟩
  exact (stack.subperm (List.cons_subset.mpr ⟨member, nests.registered⟩)).length_le

theorem of_entering {reference : String} {within : List String} (distinct : (reference :: within).Nodup)
    (registered : reference :: within ⊆ known) : Visit.Nests known ⟨reference, within, true⟩ := by
  obtain ⟨other, rest⟩ := List.nodup_cons.mp distinct
  obtain ⟨member, outer⟩ := List.cons_subset.mp registered
  exact ⟨rest, outer, fun _ => ⟨other, member⟩⟩

end Visit.Nests

theorem dropLast_cons_subset {α : Type} {first : α} {rest others : List α} (inside : rest.dropLast ⊆ others)
    (member : rest ≠ [] → first ∈ others) : (first :: rest).dropLast ⊆ others := by
  cases rest with
  | nil => exact List.nil_subset _
  | cons second rest => exact List.cons_subset.mpr ⟨member (List.cons_ne_nil _ _), inside⟩

namespace Document
variable {document : Document} {propsOptional : Bool}

namespace Trail

variable {within : List String} {steps : List Step} {registry final : Registry}
  {outcome : Except Fault Unit} {visits : List Visit}

/-- A component that is entered is another one than those that are open. -/
theorem opens {reference : String} (distinct : within.Nodup) (registered : within ⊆ registry.references)
    (fresh : reference ∉ registry.references) (name : String) :
    (reference :: within).Nodup ∧ reference :: within ⊆ (registry.register reference name).references := by
  refine ⟨List.nodup_cons.mpr ⟨fun member => fresh (registered member), distinct⟩, ?_⟩
  rw [Registry.references_register]
  exact List.cons_subset.mpr ⟨by simp, List.subset_append_of_subset_left _ registered⟩

theorem nests (made : document.Trail propsOptional within steps registry outcome final visits)
    (distinct : within.Nodup) (registered : within ⊆ registry.references) :
    ∀ visit ∈ visits, visit.Nests final.references := by
  -- Whatever is open is registered, so a new reference is none of the open ones.
  induction made with
  | done => exact nofun
  | refused => exact nofun
  | known _ made ih =>
    intro visit member
    rcases List.mem_cons.mp member with rfl | later
    · exact ⟨distinct, List.Subset.trans registered made.walk.references_subset, nofun⟩
    · exact ih distinct registered visit later
  | missing =>
    intro visit member
    rw [List.mem_singleton.mp member]
    exact ⟨distinct, registered, nofun⟩
  | broken fresh _ made ih =>
    obtain ⟨stack, known⟩ := opens distinct registered fresh _
    intro visit member
    rcases List.mem_cons.mp member with rfl | below
    · exact .of_entering stack (List.Subset.trans known made.walk.references_subset)
    · exact ih stack known visit below
  | entered fresh _ made others ihTarget ihRest =>
    obtain ⟨stack, known⟩ := opens distinct registered fresh _
    have grown := made.walk.references_subset
    have kept := others.walk.references_subset
    rw [Registry.references_declare] at kept
    have outer := (List.cons_subset.mp (List.Subset.trans known grown)).2
    intro visit member
    rcases List.mem_cons.mp member with rfl | member
    · exact .of_entering stack (List.Subset.trans known (List.Subset.trans grown kept))
    · rcases List.mem_append.mp member with below | later
      · exact (ihTarget stack known visit below).mono kept
      · exact ihRest distinct (by rwa [Registry.references_declare]) visit later

theorem outcome_visits (fault : String → Fault)
    (made : document.Trail propsOptional within steps registry outcome final visits)
    (named : registry.Named) : document.Notes propsOptional fault within steps registry outcome final visits := by
  induction made with
  | done => exact .done
  | refused => exact .refused
  | known old _ ih => exact .known old (ih named)
  | missing fresh unresolved => exact .missing fresh unresolved
  | broken fresh resolved _ ih => exact .broken fresh resolved named (ih (named.register _))
  | entered fresh resolved made _ ihTarget ihRest =>
    have inner := made.walk.named (named.register _)
    exact .entered fresh resolved named (ihTarget (named.register _)) (ihRest (inner.declare _ _))

theorem outcome_iterate (fault : String → Fault)
    (made : document.Trail propsOptional within steps registry outcome final visits)
    (named : registry.Named) {limit : Nat}
    (shallow : ∀ visit ∈ visits, visit.within.length < within.length + limit) :
    (performAll ((document.meetWith propsOptional)^[limit] fun reference => throw (fault reference))
        steps).outcome registry =
      (outcome, final) := by
  have names := names_iterate document propsOptional fault limit
  have erased := Visiting.Erases.performAll (erases_iterate document propsOptional fault limit within) names
    steps ⟨registry, []⟩ named
  rwa [made.outcome_visits fault named [] limit shallow] at erased

/-- All components that are open, the outermost apart, are referred to in the tables of the document. -/
theorem within_subset (made : document.Trail propsOptional within steps registry outcome final visits)
    (outer : within.dropLast ⊆ document.references)
    (inner : within ≠ [] → ∀ reference, .meet reference ∈ steps → reference ∈ document.references) :
    ∀ visit ∈ visits, visit.within.dropLast ⊆ document.references := by
  induction made with
  | done => exact nofun
  | refused => exact nofun
  | known _ _ ih =>
    intro visit member
    rcases List.mem_cons.mp member with rfl | later
    · exact outer
    · exact ih outer (fun opened other met => inner opened other (List.mem_cons_of_mem _ met)) visit later
  | missing =>
    intro visit member
    rwa [List.mem_singleton.mp member]
  | @broken within reference _ _ _ _ _ _ _ resolved _ ih =>
    intro visit member
    rcases List.mem_cons.mp member with rfl | below
    · exact outer
    · refine ih ?_ (fun _ other met => document.mem_references_of_met resolved met) visit below
      exact dropLast_cons_subset outer fun opened => inner opened reference List.mem_cons_self
  | @entered within reference _ _ _ _ _ _ _ _ _ resolved _ _ ihTarget ihRest =>
    intro visit member
    rcases List.mem_cons.mp member with rfl | member
    · exact outer
    · rcases List.mem_append.mp member with below | later
      · refine ihTarget ?_ (fun _ other met => document.mem_references_of_met resolved met) visit below
        exact dropLast_cons_subset outer fun opened => inner opened reference List.mem_cons_self
      · exact ihRest outer (fun opened other met => inner opened other (List.mem_cons_of_mem _ met)) visit later

/-- No visit is deeper than the mapper may go. -/
theorem length_within_lt (made : document.Trail propsOptional [] steps registry outcome final visits)
    {visit : Visit} (member : visit ∈ visits) : visit.within.length < document.visitLimit := by
  have distinct := (made.nests List.nodup_nil (List.nil_subset _) visit member).distinct
  have inside := made.within_subset (List.nil_subset _) (fun opened => absurd rfl opened) visit member
  have bound := ((distinct.sublist (List.dropLast_sublist _)).subperm inside).length_le
  rw [List.length_dropLast] at bound
  unfold visitLimit
  omega

/-- The logging mapper notes the visits of the walk that it takes. -/
theorem outcome_visitType {schema : Schema}
    (made : document.Trail propsOptional [] schema.steps registry outcome final visits)
    (named : registry.Named) (earlier : List Visit) :
    (document.visitType propsOptional schema).outcome ⟨registry, earlier⟩ =
      (outcome.map fun _ => schema.shape propsOptional, ⟨final, earlier ++ visits⟩) := by
  have shallow : ∀ visit ∈ visits, visit.within.length < ([] : List String).length + document.visitLimit := by
    intro visit member
    rw [List.length_nil, Nat.zero_add]
    exact made.length_within_lt member
  have performs := schema.performs propsOptional
    (names_visits document propsOptional .unresolvedReference document.visitLimit [])
  rw [visitType, visit_eq_iterate]
  exact performs.outcome_eq named (made.outcome_visits .unresolvedReference named earlier _ shallow)

end Trail

/-- How many references there are in the tables of a document and in schemas. -/
def referenceCount (document : Document) (schemas : List Schema) : Nat :=
  (document.references ++ schemas.flatMap Schema.references).dedup.length

variable (document propsOptional) in
/-- The life of a mapper: the schemas that it was given, whether they were mapped or failed, the registry
that it has then and the visits that it noted. -/
inductive Life : List Schema → Registry → List Visit → Prop where
  | start : Life [] [] []
  | next {schemas : List Schema} {registry after : Registry} {visits noted : List Visit}
      {outcome : Except Fault TypeExpr} (schema : Schema) :
      Life schemas registry visits →
      (document.visitType propsOptional schema).outcome ⟨registry, visits⟩ = (outcome, ⟨after, noted⟩) →
      Life (schemas ++ [schema]) after noted

/-- From names in order mapping a schema walks through its steps, and the visits of the walk are noted. -/
theorem exists_trail (schema : Schema) {registry : Registry} (named : registry.Named) :
    ∃ outcome after more, document.Trail propsOptional [] schema.steps registry outcome after more ∧
      (document.typeOf propsOptional schema).outcome registry =
        (outcome.map fun _ => schema.shape propsOptional, after) ∧
      ∀ earlier, (document.visitType propsOptional schema).outcome ⟨registry, earlier⟩ =
        (outcome.map fun _ => schema.shape propsOptional, ⟨after, earlier ++ more⟩) := by
  obtain ⟨outcome, after, walk, _⟩ := @typeOf_walk document propsOptional schema registry named
  obtain ⟨more, made⟩ := walk.exists_trail []
  have noted := made.outcome_visitType named
  have mapped := document.erases_visitType propsOptional schema ⟨registry, []⟩ named
  rw [noted] at mapped
  exact ⟨outcome, after, more, made, mapped, noted⟩

namespace Life

variable {schemas : List Schema} {registry : Registry} {visits : List Visit}

theorem named (life : document.Life propsOptional schemas registry visits) : registry.Named := by
  induction life with
  | start => exact nofun
  | next schema _ noted ih =>
    obtain ⟨_, _, _, made, _, visited⟩ := document.exists_trail schema ih
    rw [visited] at noted
    cases noted
    exact made.walk.named ih

/-- Over a life each mapping takes a walk, and the visits of the walks are those that are noted. -/
theorem induction
    {motive : ∀ {schemas registry visits}, document.Life propsOptional schemas registry visits → Prop}
    (start : motive .start)
    (next : ∀ {schemas : List Schema} {registry after : Registry} {visits more : List Visit}
      {outcome : Except Fault Unit} (schema : Schema)
      (life : document.Life propsOptional schemas registry visits)
      (longer : document.Life propsOptional (schemas ++ [schema]) after (visits ++ more)),
      document.Trail propsOptional [] schema.steps registry outcome after more → motive life → motive longer)
    (life : document.Life propsOptional schemas registry visits) : motive life := by
  induction life with
  | start => exact start
  | next schema life noted ih =>
    obtain ⟨_, _, more, made, _, visited⟩ := document.exists_trail schema life.named
    have same := noted
    rw [visited] at same
    cases same
    exact next schema life (.next schema life noted) made ih

theorem references_eq (life : document.Life propsOptional schemas registry visits) :
    registry.references = entries visits := by
  induction life using Life.induction with
  | start => rfl
  | next schema _ _ made ih => rw [made.references_eq, ih, entries_append]

theorem nodup_references (life : document.Life propsOptional schemas registry visits) :
    registry.references.Nodup := by
  induction life using Life.induction with
  | start => exact List.nodup_nil
  | next schema _ _ made ih => exact made.nodup_references ih

theorem nests (life : document.Life propsOptional schemas registry visits) :
    ∀ visit ∈ visits, visit.Nests registry.references := by
  induction life using Life.induction with
  | start => exact nofun
  | next schema _ _ made ih =>
    intro visit member
    rcases List.mem_append.mp member with earlier | later
    · exact (ih visit earlier).mono made.walk.references_subset
    · -- Nothing is open when a mapping begins.
      exact made.nests List.nodup_nil (List.nil_subset _) visit later

/-- What is met stands in the tables of the document or in what was mapped. -/
theorem met (life : document.Life propsOptional schemas registry visits) :
    ∀ visit ∈ visits, visit.reference ∈ document.references ++ schemas.flatMap Schema.references := by
  induction life using Life.induction with
  | start => exact nofun
  | next schema _ _ made ih =>
    intro visit member
    rw [List.flatMap_append, ← List.append_assoc]
    rcases List.mem_append.mp member with earlier | later
    · exact List.mem_append_left _ (ih visit earlier)
    · rcases made.met visit later with step | table
      · have inside := Schema.mem_references_of_met step
        exact List.mem_append_right _ (List.mem_flatMap.mpr ⟨schema, List.mem_singleton_self _, inside⟩)
      · exact List.mem_append_left _ (List.mem_append_left _ table)

theorem length_references_le (life : document.Life propsOptional schemas registry visits) :
    registry.references.length ≤ document.referenceCount schemas := by
  refine (life.nodup_references.subperm fun reference member => ?_).length_le
  rw [life.references_eq] at member
  obtain ⟨visit, entering, rfl⟩ := List.mem_map.mp member
  exact List.mem_dedup.mpr (life.met visit (List.mem_of_mem_filter entering))

theorem length_within_le (life : document.Life propsOptional schemas registry visits) {visit : Visit}
    (member : visit ∈ visits) : visit.within.length ≤ document.referenceCount schemas :=
  Nat.le_trans (life.nests visit member).length_le life.length_references_le

theorem exists_next (life : document.Life propsOptional schemas registry visits) (schema : Schema) :
    ∃ outcome after more, document.Trail propsOptional [] schema.steps registry outcome after more ∧
      (document.typeOf propsOptional schema).outcome registry =
        (outcome.map fun _ => schema.shape propsOptional, after) ∧
      (document.visitType propsOptional schema).outcome ⟨registry, visits⟩ =
        (outcome.map fun _ => schema.shape propsOptional, ⟨after, visits ++ more⟩) ∧
      document.Life propsOptional (schemas ++ [schema]) after (visits ++ more) := by
  obtain ⟨outcome, after, more, made, mapped, noted⟩ := document.exists_trail schema life.named
  exact ⟨outcome, after, more, made, mapped, noted visits, life.next schema (noted visits)⟩

/-- With more turns than there are references mapping never gets to the bottom. -/
theorem typeOf_eq_iterate (life : document.Life propsOptional schemas registry visits) (schema : Schema)
    (fault : String → Fault) {limit : Nat} (enough : document.referenceCount (schemas ++ [schema]) < limit) :
    (document.typeOf propsOptional schema).outcome registry =
      (schema.typeWith propsOptional ((document.meetWith propsOptional)^[limit]
        fun reference => throw (fault reference))).outcome registry := by
  obtain ⟨outcome, after, more, made, mapped, _, longer⟩ := life.exists_next schema
  -- The visits of this mapping are counted with the life that it makes longer.
  have shallow : ∀ visit ∈ more, visit.within.length < 0 + limit := by
    intro visit member
    have bound := longer.length_within_le (List.mem_append_right visits member)
    omega
  have performs := schema.performs propsOptional (names_iterate document propsOptional fault limit)
  rw [mapped, performs.outcome_eq life.named (made.outcome_iterate fault life.named shallow)]

end Life

/-- Mapping ends whatever the components refer to. From every state of a mapper each schema is mapped or
fails, alike with and without notes, in so many turns of the recursion that none is left to be taken at the
bottom. Over its life a mapper enters no reference twice, and so no more of them than there are, and no
reference is met within more components than that. -/
theorem mapping_ends {schemas : List Schema} {registry : Registry} {visits : List Visit}
    (life : document.Life propsOptional schemas registry visits) :
    (∀ schema, ∃ outcome after more,
      (document.typeOf propsOptional schema).outcome registry = (outcome, after) ∧
      (document.visitType propsOptional schema).outcome ⟨registry, visits⟩ =
        (outcome, ⟨after, visits ++ more⟩) ∧
      document.Life propsOptional (schemas ++ [schema]) after (visits ++ more)) ∧
    (∀ schema (bottom : String → Fault) limit, document.referenceCount (schemas ++ [schema]) < limit →
      (document.typeOf propsOptional schema).outcome registry =
        (schema.typeWith propsOptional ((document.meetWith propsOptional)^[limit]
          fun reference => throw (bottom reference))).outcome registry) ∧
    (entries visits).Nodup ∧ registry.references = entries visits ∧
    (entries visits).length ≤ document.referenceCount schemas ∧
    ∀ visit ∈ visits, visit.within.Nodup ∧ visit.within.length ≤ document.referenceCount schemas ∧
      (visit.enters = true → visit.within.length < document.referenceCount schemas) := by
  have bound := life.length_references_le
  refine ⟨?_, ?_, ?_, life.references_eq, ?_, ?_⟩
  · intro schema
    obtain ⟨_, after, more, _, mapped, noted, longer⟩ := life.exists_next schema
    exact ⟨_, after, more, mapped, noted, longer⟩
  · intro schema bottom limit enough
    exact life.typeOf_eq_iterate schema bottom enough
  · rw [← life.references_eq]
    exact life.nodup_references
  · rwa [← life.references_eq]
  · intro visit member
    have nests := life.nests visit member
    exact ⟨nests.distinct, life.length_within_le member,
      fun enters => Nat.lt_of_lt_of_le (nests.length_lt enters) bound⟩

def treeVisits : List Visit :=
  [⟨"#/components/schemas/Node", [], true⟩,
    ⟨"#/components/schemas/Tag", ["#/components/schemas/Node"], true⟩,
    ⟨"#/components/schemas/Node", ["#/components/schemas/Node"], false⟩]

theorem tree_mapping_ends : ∃ registry,
    treeDocument.Life false [.reference "#/components/schemas/Node"] registry treeVisits ∧
      registry.references = ["#/components/schemas/Node", "#/components/schemas/Tag"] ∧
      treeDocument.referenceCount [.reference "#/components/schemas/Node"] = 2 ∧
      ∀ visit ∈ treeVisits, visit.within.length ≤ 2 := by
  have noted : (treeDocument.visitType false (.reference "#/components/schemas/Node")).outcome ⟨[], []⟩ =
      (_, ⟨_, treeVisits⟩) := rfl
  have life := Life.next _ .start noted
  obtain ⟨_, _, _, references, _, nesting⟩ := mapping_ends life
  exact ⟨_, life, references, by decide, fun visit member => (nesting visit member).2.1⟩

end Document

end TypedClient.OpenApi
