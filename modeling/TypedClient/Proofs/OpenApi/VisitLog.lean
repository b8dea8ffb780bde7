import Mathlib.Logic.Function.Iterate
import TypedClient.Proofs.OpenApi.Walk

/-! Mapping with a log of the visits that it makes.

A visit is made whenever a reference is met. It enters the component if the reference is new. The mapper
below does what mapping does and notes every visit first; without its notes it is the mapping.
-/

set_option autoImplicit false

namespace TypedClient.OpenApi

open TypeScript (TypeExpr)

/-- A reference that is met, with the references of the components that are open, the innermost first. -/
structure Visit where
  reference : String
  within : List String
  enters : Bool
  deriving DecidableEq, Repr

structure Journal where
  registry : Registry
  visits : List Visit

namespace Journal

def Named (journal : Journal) : Prop := journal.registry.Named

def log (journal : Journal) (visit : Visit) : Journal :=
  { journal with visits := journal.visits ++ [visit] }

def change (journal : Journal) (step : Registry → Registry) : Journal :=
  { journal with registry := step journal.registry }

end Journal

abbrev Visiting := MappingOn Journal

namespace Visiting
variable {α : Type}

/-- From a registry whose names are in order, what is left of the mapping without its notes is the
other one. -/
def Erases (logged : Visiting α) (plain : Mapping α) : Prop :=
  ∀ journal : Journal, journal.Named →
    plain.outcome journal.registry = ((logged.outcome journal).1, (logged.outcome journal).2.registry)

variable {logged : String → Visiting String} {plain : String → Mapping String}

theorem Erases.names (erases : ∀ reference, (logged reference).Erases (plain reference)) (names : Names plain) :
    NamesOn Journal.Named logged := by
  intro reference journal named
  have given := names reference journal.registry named
  rwa [erases reference journal named] at given

theorem Erases.performAll (erases : ∀ reference, (logged reference).Erases (plain reference))
    (names : Names plain) (steps : List Step) :
    Erases (OpenApi.performAll logged steps) (OpenApi.performAll plain steps) := by
  induction steps with
  | nil => exact fun _ _ => rfl
  | cons step rest ih =>
    cases step with
    | refuse name => exact fun _ _ => rfl
    | meet reference =>
      intro journal named
      have kept := (Erases.names erases names reference journal named).1
      rw [outcome_meet, outcome_meet, erases reference journal named]
      rcases entered : (logged reference).outcome journal with ⟨fault | name, after⟩
      · rfl
      · rw [entered] at kept
        exact ih after kept

theorem Erases.typeWith (erases : ∀ reference, (logged reference).Erases (plain reference))
    (names : Names plain) (propsOptional : Bool) (schema : Schema) :
    Erases (schema.typeWith propsOptional logged) (schema.typeWith propsOptional plain) := by
  intro journal named
  have steps := Erases.performAll erases names schema.steps journal named
  have noted := schema.performs propsOptional (Erases.names erases names)
  rw [(schema.performs propsOptional names).outcome_eq named steps]
  rcases performed : (OpenApi.performAll logged schema.steps).outcome journal with ⟨outcome, after⟩
  rw [noted.outcome_eq named performed]

end Visiting

namespace Document

variable (document : Document) (propsOptional : Bool)

/-- One turn of the recursion, as in `meetWith`, with its visit noted. -/
def visitWith (inside : List String → String → Visiting String) (within : List String) (reference : String) :
    Visiting String := do
  let known := (← get).registry.find? reference
  let enters := known.isNone && (document.schemaAt? reference).isSome
  modify (·.log ⟨reference, within, enters⟩)
  match known with
  | some entry => return entry.name
  | none =>
    let target ← document.schemaAt reference
    let name := referenceTypeName reference
    modify (·.change (·.register reference name))
    let type ← target.typeWith propsOptional (inside (reference :: within))
    modify (·.change (·.declare reference (componentDeclaration name type)))
    return name

def visit : Nat → List String → String → Visiting String
  | 0, _, reference => throw (.unresolvedReference reference)
  | limit + 1, within, reference => document.visitWith propsOptional (visit limit) within reference

def visitType (schema : Schema) : Visiting TypeExpr :=
  schema.typeWith propsOptional (document.visit propsOptional document.visitLimit [])

theorem visitWith_outcome (inside : List String → String → Visiting String) (within : List String)
    (reference : String) (journal : Journal) :
    (document.visitWith propsOptional inside within reference).outcome journal =
      match journal.registry.find? reference with
      | some entry => (.ok entry.name, journal.log ⟨reference, within, false⟩)
      | none =>
        match document.schemaAt? reference with
        | none => (.error (.unresolvedReference reference), journal.log ⟨reference, within, false⟩)
        | some target =>
          match (target.typeWith propsOptional (inside (reference :: within))).outcome
              ((journal.log ⟨reference, within, true⟩).change
                (·.register reference (referenceTypeName reference))) with
          | (.ok type, after) =>
            (.ok (referenceTypeName reference), after.change
              (·.declare reference (componentDeclaration (referenceTypeName reference) type)))
          | (.error fault, after) => (.error fault, after) := by
  rw [visitWith, MappingOn.outcome_bind, MappingOn.outcome_get]
  simp only
  rw [MappingOn.outcome_bind, MappingOn.outcome_modify]
  -- The note is made in front of all branches, so each of them starts with it.
  cases found : journal.registry.find? reference with
  | some entry => rfl
  | none =>
    simp only [Option.isNone_none, Bool.true_and]
    rw [MappingOn.outcome_bind, MappingOn.outcome_lift, schemaAt]
    cases resolved : document.schemaAt? reference with
    | none => rfl
    | some target =>
      simp only [Option.isSome_some]
      rw [MappingOn.outcome_bind, MappingOn.outcome_modify]
      simp only
      rw [MappingOn.outcome_bind]
      rcases (target.typeWith propsOptional (inside (reference :: within))).outcome
        ((journal.log ⟨reference, within, true⟩).change
          (·.register reference (referenceTypeName reference))) with ⟨result | result, after⟩
      · rfl
      · rfl

variable {document propsOptional}

theorem erases_visitWith {inside : List String → String → Visiting String} {plain : String → Mapping String}
    (names : Names plain) (erases : ∀ within reference, (inside within reference).Erases (plain reference))
    (within : List String) (reference : String) :
    (document.visitWith propsOptional inside within reference).Erases
      (document.meetWith propsOptional plain reference) := by
  intro journal named
  rw [visitWith_outcome, meetWith_outcome]
  cases found : journal.registry.find? reference with
  | some entry => rfl
  | none =>
    cases resolved : document.schemaAt? reference with
    | none => rfl
    | some target =>
      have registered := named.register reference
      have mapped := Visiting.Erases.typeWith (erases (reference :: within)) names propsOptional target
        ((journal.log ⟨reference, within, true⟩).change
          (·.register reference (referenceTypeName reference))) registered
      simp only [Journal.change, Journal.log] at mapped ⊢
      rw [mapped]
      rcases (target.typeWith propsOptional (inside (reference :: within))).outcome _ with ⟨_ | _, _⟩ <;> rfl

section Meeting
variable {inside : List String → String → Visiting String} {within : List String} {reference : String}
  {rest : List Step} {registry after : Registry} {earlier noted : List Visit} {target : Schema}

theorem visits_known (old : reference ∈ registry.references) :
    (performAll (document.visitWith propsOptional inside within) (.meet reference :: rest)).outcome
        ⟨registry, earlier⟩ =
      (performAll (document.visitWith propsOptional inside within) rest).outcome
        ⟨registry, earlier ++ [⟨reference, within, false⟩]⟩ := by
  cases found : registry.find? reference with
  | none => exact absurd old (Registry.find?_eq_none_iff.mp found)
  | some entry =>
    rw [outcome_meet, visitWith_outcome, found]
    rfl

theorem visits_missing (fresh : reference ∉ registry.references)
    (unresolved : document.schemaAt? reference = none) :
    (performAll (document.visitWith propsOptional inside within) (.meet reference :: rest)).outcome
        ⟨registry, earlier⟩ =
      (.error (.unresolvedReference reference), ⟨registry, earlier ++ [⟨reference, within, false⟩]⟩) := by
  rw [outcome_meet, visitWith_outcome, Registry.find?_eq_none_iff.mpr fresh, unresolved]
  rfl

theorem visits_broken {fault : Fault} (fresh : reference ∉ registry.references)
    (resolved : document.schemaAt? reference = some target)
    (mapped : (target.typeWith propsOptional (inside (reference :: within))).outcome
      ⟨registry.register reference (referenceTypeName reference), earlier ++ [⟨reference, within, true⟩]⟩ =
        (.error fault, ⟨after, noted⟩)) :
    (performAll (document.visitWith propsOptional inside within) (.meet reference :: rest)).outcome
        ⟨registry, earlier⟩ =
      (.error fault, ⟨after, noted⟩) := by
  rw [outcome_meet, visitWith_outcome, Registry.find?_eq_none_iff.mpr fresh, resolved]
  simp only [Journal.change, Journal.log, mapped]

theorem visits_entered {type : TypeExpr} (fresh : reference ∉ registry.references)
    (resolved : document.schemaAt? reference = some target)
    (mapped : (target.typeWith propsOptional (inside (reference :: within))).outcome
      ⟨registry.register reference (referenceTypeName reference), earlier ++ [⟨reference, within, true⟩]⟩ =
        (.ok type, ⟨after, noted⟩)) :
    (performAll (document.visitWith propsOptional inside within) (.meet reference :: rest)).outcome
        ⟨registry, earlier⟩ =
      (performAll (document.visitWith propsOptional inside within) rest).outcome
        ⟨after.declare reference (componentDeclaration (referenceTypeName reference) type), noted⟩ := by
  rw [outcome_meet, visitWith_outcome, Registry.find?_eq_none_iff.mpr fresh, resolved]
  simp only [Journal.change, Journal.log, mapped]

end Meeting

section Turns
variable (document propsOptional) (fault : String → Fault) (limit : Nat)

theorem names_iterate :
    Names ((document.meetWith propsOptional)^[limit] fun reference => throw (fault reference)) := by
  induction limit with
  | zero => exact names_throw fault
  | succ limit ih =>
    rw [Function.iterate_succ_apply']
    exact names_meetWith ih

theorem erases_iterate (within : List String) (reference : String) :
    ((document.visitWith propsOptional)^[limit] (fun _ reference => throw (fault reference))
        within reference).Erases
      ((document.meetWith propsOptional)^[limit] (fun reference => throw (fault reference)) reference) := by
  induction limit generalizing within reference with
  | zero => exact fun _ _ => rfl
  | succ limit ih =>
    rw [Function.iterate_succ_apply', Function.iterate_succ_apply']
    exact erases_visitWith (names_iterate document propsOptional fault limit) ih within reference

theorem names_visits (within : List String) : NamesOn Journal.Named
    ((document.visitWith propsOptional)^[limit] (fun _ reference => throw (fault reference)) within) :=
  Visiting.Erases.names (erases_iterate document propsOptional fault limit within)
    (names_iterate document propsOptional fault limit)

theorem enter_eq_iterate : document.enter propsOptional limit =
    (document.meetWith propsOptional)^[limit] fun reference => throw (.unresolvedReference reference) := by
  induction limit with
  | zero => rfl
  | succ limit ih => rw [enter_succ, ih, Function.iterate_succ_apply']

theorem visit_eq_iterate : document.visit propsOptional limit =
    (document.visitWith propsOptional)^[limit] fun _ reference => throw (.unresolvedReference reference) := by
  induction limit with
  | zero => rfl
  | succ limit ih =>
    rw [Function.iterate_succ_apply', ← ih]
    rfl

end Turns

section Notes
variable (document propsOptional) (fault : String → Fault)

/-- With as many turns of the recursion as visits nest, performing the steps gives the outcome and the
registry, and these visits are noted. -/
def Notes (within : List String) (steps : List Step) (registry : Registry) (outcome : Except Fault Unit)
    (final : Registry) (visits : List Visit) : Prop :=
  ∀ (earlier : List Visit) (limit : Nat), (∀ visit ∈ visits, visit.within.length < within.length + limit) →
    (performAll ((document.visitWith propsOptional)^[limit] (fun _ reference => throw (fault reference)) within)
        steps).outcome ⟨registry, earlier⟩ =
      (outcome, ⟨final, earlier ++ visits⟩)

end Notes

namespace Notes

variable {fault : String → Fault} {within : List String} {reference : String} {rest : List Step}
  {registry inner final : Registry} {target : Schema} {outcome : Except Fault Unit} {inside visits : List Visit}

theorem done : document.Notes propsOptional fault within [] registry (.ok ()) registry [] := by
  intro earlier limit _
  rw [List.append_nil]
  rfl

theorem refused {name : String} : document.Notes propsOptional fault within (.refuse name :: rest) registry
    (.error (.unknownNode .openApiType name)) registry [] := by
  intro earlier limit _
  rw [List.append_nil]
  rfl

/-- The first visit takes a turn. -/
theorem exists_turn {visit : Visit} {limit : Nat} (here : visit.within = within)
    (shallow : ∀ other ∈ visit :: visits, other.within.length < within.length + limit) :
    ∃ turns, limit = turns + 1 := by
  have room := shallow visit List.mem_cons_self
  rw [here] at room
  exact ⟨limit - 1, by omega⟩

theorem known (old : reference ∈ registry.references)
    (noted : document.Notes propsOptional fault within rest registry outcome final visits) :
    document.Notes propsOptional fault within (.meet reference :: rest) registry outcome final
      (⟨reference, within, false⟩ :: visits) := by
  intro earlier limit shallow
  obtain ⟨turns, rfl⟩ := exists_turn rfl shallow
  have tail := noted (earlier ++ [⟨reference, within, false⟩]) (turns + 1) fun visit later =>
    shallow visit (List.mem_cons_of_mem _ later)
  rw [List.append_assoc, List.singleton_append, Function.iterate_succ_apply'] at tail
  rw [Function.iterate_succ_apply', visits_known old, tail]

theorem missing (fresh : reference ∉ registry.references) (unresolved : document.schemaAt? reference = none) :
    document.Notes propsOptional fault within (.meet reference :: rest) registry
      (.error (.unresolvedReference reference)) registry [⟨reference, within, false⟩] := by
  intro earlier limit shallow
  obtain ⟨turns, rfl⟩ := exists_turn rfl shallow
  rw [Function.iterate_succ_apply', visits_missing fresh unresolved]

/-- Visits in the component that is entered stand one deeper and have one turn less. -/
theorem component (earlier : List Visit) {turns : Nat} (named : registry.Named)
    (noted : document.Notes propsOptional fault (reference :: within) target.steps
      (registry.register reference (referenceTypeName reference)) outcome inner inside)
    (shallow : ∀ visit ∈ inside, visit.within.length < within.length + (turns + 1)) :
    (target.typeWith propsOptional ((document.visitWith propsOptional)^[turns]
        (fun _ reference => throw (fault reference)) (reference :: within))).outcome
        ⟨registry.register reference (referenceTypeName reference), earlier⟩ =
      (outcome.map fun _ => target.shape propsOptional, ⟨inner, earlier ++ inside⟩) := by
  have deeper : ∀ visit ∈ inside, visit.within.length < (reference :: within).length + turns := by
    intro visit member
    have bound := shallow visit member
    rw [List.length_cons]
    omega
  have registered : Journal.Named ⟨_, earlier⟩ := named.register reference
  have performs := target.performs propsOptional
    (names_visits document propsOptional fault turns (reference :: within))
  exact performs.outcome_eq registered (noted earlier turns deeper)

theorem broken {refusal : Fault} (fresh : reference ∉ registry.references)
    (resolved : document.schemaAt? reference = some target) (named : registry.Named)
    (noted : document.Notes propsOptional fault (reference :: within) target.steps
      (registry.register reference (referenceTypeName reference)) (.error refusal) inner inside) :
    document.Notes propsOptional fault within (.meet reference :: rest) registry (.error refusal) inner
      (⟨reference, within, true⟩ :: inside) := by
  intro earlier limit shallow
  obtain ⟨turns, rfl⟩ := exists_turn rfl shallow
  have mapped := noted.component (earlier ++ [⟨reference, within, true⟩]) named fun visit below =>
    shallow visit (List.mem_cons_of_mem _ below)
  rw [Function.iterate_succ_apply', visits_broken fresh resolved mapped, List.append_assoc,
    List.singleton_append]

theorem entered (fresh : reference ∉ registry.references)
    (resolved : document.schemaAt? reference = some target) (named : registry.Named)
    (noted : document.Notes propsOptional fault (reference :: within) target.steps
      (registry.register reference (referenceTypeName reference)) (.ok ()) inner inside)
    (others : document.Notes propsOptional fault within rest
      (inner.declare reference
        (componentDeclaration (referenceTypeName reference) (target.shape propsOptional)))
      outcome final visits) :
    document.Notes propsOptional fault within (.meet reference :: rest) registry outcome final
      (⟨reference, within, true⟩ :: inside ++ visits) := by
  intro earlier limit shallow
  obtain ⟨turns, rfl⟩ := exists_turn rfl shallow
  have mapped := noted.component (earlier ++ [⟨reference, within, true⟩]) named fun visit below =>
    shallow visit (List.mem_cons_of_mem _ (List.mem_append_left _ below))
  have tail := others (earlier ++ [⟨reference, within, true⟩] ++ inside) (turns + 1) fun visit later =>
    shallow visit (List.mem_cons_of_mem _ (List.mem_append_right _ later))
  rw [Function.iterate_succ_apply'] at tail ⊢
  rw [visits_entered fresh resolved mapped, tail]
  simp only [List.append_assoc, List.cons_append, List.nil_append]

end Notes

variable (document propsOptional) in
/-- Without its notes the logging mapper is the mapper. -/
theorem erases_visitType (schema : Schema) :
    (document.visitType propsOptional schema).Erases (document.typeOf propsOptional schema) := by
  have names := document.enter_names propsOptional document.visitLimit
  refine Visiting.Erases.typeWith (fun reference => ?_) names propsOptional schema
  rw [visit_eq_iterate, enter_eq_iterate]
  exact erases_iterate document propsOptional _ _ _ _

end Document

end TypedClient.OpenApi
