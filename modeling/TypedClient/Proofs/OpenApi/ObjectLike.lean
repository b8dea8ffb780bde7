import TypedClient.Proofs.OpenApi.History
import TypedClient.Proofs.TypeScript.TypeTree

/-! Which types are object types, and when that is recognised.

The search for it marks a name as visited for good, also where the first visit ended
well. It therefore finds the object types along which no name is followed twice: neither
around a cycle nor in two members of an intersection.
-/

set_option autoImplicit false

namespace TypedClient.OpenApi

open TypeScript (Body Declaration Field TypeExpr firstDeclared)

inductive ObjectLike (declarations : List Declaration) : TypeExpr → Prop where
  | object {fields : List Field} : ObjectLike declarations (.object fields)
  | record {values : TypeExpr} : ObjectLike declarations (.record values)
  | intersection {members : List TypeExpr} :
      (∀ member ∈ members, ObjectLike declarations member) →
      ObjectLike declarations (.intersection members)
  | interface {name : String} {fields : List Field} :
      firstDeclared declarations name = some (.interface fields) →
      ObjectLike declarations (.reference name)
  | through {name : String} {type : TypeExpr} :
      firstDeclared declarations name = some (.alias type) → ObjectLike declarations type →
      ObjectLike declarations (.reference name)

/-- The names that are followed in an object type, in order and with repetitions. -/
inductive Follows (declarations : List Declaration) : TypeExpr → List String → Prop where
  | object {fields : List Field} : Follows declarations (.object fields) []
  | record {values : TypeExpr} : Follows declarations (.record values) []
  | intersection {members : List TypeExpr} {names : TypeExpr → List String} :
      (∀ member ∈ members, Follows declarations member (names member)) →
      Follows declarations (.intersection members) (members.flatMap names)
  | interface {name : String} {fields : List Field} :
      firstDeclared declarations name = some (.interface fields) →
      Follows declarations (.reference name) [name]
  | through {name : String} {type : TypeExpr} {names : List String} :
      firstDeclared declarations name = some (.alias type) → Follows declarations type names →
      Follows declarations (.reference name) (name :: names)

section Follows
variable {declarations : List Declaration} {type : TypeExpr} {names : List String}

theorem ObjectLike.follows (objectLike : ObjectLike declarations type) :
    ∃ names, Follows declarations type names := by
  induction objectLike with
  | object => exact ⟨[], .object⟩
  | record => exact ⟨[], .record⟩
  | @intersection members _ ih =>
    -- Names are chosen for each member as a type, so a repeated member follows the same ones.
    have each : ∀ member, ∃ names, member ∈ members → Follows declarations member names := by
      intro member
      by_cases inside : member ∈ members
      · obtain ⟨names, follows⟩ := ih member inside
        exact ⟨names, fun _ => follows⟩
      · exact ⟨[], fun member => absurd member inside⟩
    obtain ⟨names, follows⟩ := Classical.axiomOfChoice each
    exact ⟨members.flatMap names, .intersection follows⟩
  | interface declared => exact ⟨_, .interface declared⟩
  | through declared _ ih =>
    obtain ⟨names, follows⟩ := ih
    exact ⟨_, .through declared follows⟩

theorem Follows.objectLike (follows : Follows declarations type names) :
    ObjectLike declarations type := by
  induction follows with
  | object => exact .object
  | record => exact .record
  | intersection _ ih => exact .intersection ih
  | interface declared => exact .interface declared
  | through declared _ ih => exact .through declared ih

theorem Follows.unique {others : List String} (follows : Follows declarations type names)
    (beside : Follows declarations type others) : names = others := by
  induction follows generalizing others with
  | object =>
    cases beside
    rfl
  | record =>
    cases beside
    rfl
  | intersection _ ih =>
    cases beside with
    | intersection beside =>
      exact List.flatMap_congr fun member inside => ih member inside (beside member inside)
  | interface declared =>
    cases beside with
    | interface => rfl
    | through aliased =>
      rw [declared] at aliased
      cases aliased
  | through declared _ ih =>
    cases beside with
    | interface interfaced =>
      rw [declared] at interfaced
      cases interfaced
    | through aliased beside =>
      rw [declared] at aliased
      cases aliased
      rw [ih beside]

theorem Follows.declared (follows : Follows declarations type names) :
    ∀ name ∈ names, name ∈ declarations.map (·.name) := by
  have listed : ∀ {name : String} {body : Body}, firstDeclared declarations name = some body →
      name ∈ declarations.map (·.name) := by
    intro name body found
    obtain ⟨declaration, first, _⟩ := Option.map_eq_some_iff.mp found
    have same := List.find?_some first
    rw [← beq_iff_eq.mp same]
    exact List.mem_map_of_mem (List.mem_of_find?_eq_some first)
  induction follows with
  | object => exact fun name member => absurd member List.not_mem_nil
  | record => exact fun name member => absurd member List.not_mem_nil
  | intersection _ ih =>
    intro name member
    obtain ⟨part, inside, member⟩ := List.mem_flatMap.mp member
    exact ih part inside name member
  | interface found =>
    intro name member
    rw [List.mem_singleton.mp member]
    exact listed found
  | through found _ ih =>
    intro name member
    rcases List.mem_cons.mp member with rfl | inside
    · exact listed found
    · exact ih name inside

end Follows

section Search
variable {registry : Registry}

def Registry.Labelled (registry : Registry) : Prop :=
  ∀ entry ∈ registry, ∀ declaration, entry.declaration = some declaration →
    declaration.name = entry.name

theorem Document.Complete.labelled {document : Document} {propsOptional : Bool}
    (complete : document.Complete propsOptional registry) : registry.Labelled := by
  intro entry member declaration declared
  rw [complete.registrations] at member
  obtain ⟨reference, _, rfl⟩ := List.mem_map.mp member
  simp only [Document.registration] at declared ⊢
  exact document.name_of_declarationOf propsOptional declared

theorem Registry.Labelled.body_eq (labelled : registry.Labelled) (name : String) :
    (registry.declared? name).map (·.body) = firstDeclared registry.declarations name := by
  -- An entry without a declaration is passed over on both sides.
  unfold declared? firstDeclared declarations
  congr 1
  induction registry with
  | nil => rfl
  | cons entry rest ih =>
    have tail := ih fun other member => labelled other (List.mem_cons_of_mem entry member)
    cases declared : entry.declaration with
    | none =>
      rw [List.filterMap_cons_none declared, ← tail, List.filter_cons]
      split
      · rw [List.findSome?_cons, declared]
      · rfl
    | some declaration =>
      have same := labelled entry List.mem_cons_self declaration declared
      rw [List.filterMap_cons_some declared, List.find?_cons, same, List.filter_cons]
      cases entry.name == name with
      | true => simp only [if_true, List.findSome?_cons, declared]
      | false => simpa using tail

theorem Registry.Labelled.followWithin_succ (labelled : registry.Labelled) (limit : Nat)
    (name : String) (visited : List String) :
    registry.followWithin (limit + 1) name visited =
      match firstDeclared registry.declarations name with
      | none => (false, visited)
      | some (.interface _) => (true, visited)
      | some (.alias type) => objectLikeWith (registry.followWithin limit) type visited := by
  rw [followWithin, ← labelled.body_eq]
  rcases registry.declared? name with _ | ⟨other, fields | type⟩ <;> rfl

theorem objectLikeWith_of_all {follow : String → List String → Bool × List String}
    {members : List TypeExpr} {visited after : List String}
    (found : allObjectLikeWith follow members visited = (true, after)) :
    ∀ member ∈ members, ∃ before behind, objectLikeWith follow member before = (true, behind) := by
  induction members generalizing visited with
  | nil => exact fun member inside => absurd inside List.not_mem_nil
  | cons first rest ih =>
    rw [allObjectLikeWith] at found
    split at found
    case h_1 middle head =>
      intro member inside
      rcases List.mem_cons.mp inside with rfl | inside
      · exact ⟨visited, middle, head⟩
      · exact ih found member inside
    case h_2 => cases found

/-- What the search accepts is an object type, if that is so of the names that it follows. -/
theorem objectLike_of_search {declarations : List Declaration}
    {follow : String → List String → Bool × List String}
    (sound : ∀ name visited after, follow name visited = (true, after) →
      ObjectLike declarations (.reference name))
    {type : TypeExpr} {visited after : List String}
    (found : objectLikeWith follow type visited = (true, after)) :
    ObjectLike declarations type := by
  induction type using TypeExpr.induction generalizing visited after with
  | object fields => exact .object
  | record values => exact .record
  | intersection members ih =>
    rw [objectLikeWith] at found
    refine .intersection fun member inside => ?_
    obtain ⟨before, behind, head⟩ := objectLikeWith_of_all found member inside
    exact ih member inside head
  | reference name =>
    rw [objectLikeWith] at found
    split at found
    · cases found
    · exact sound _ _ _ found
  | scalar kind => cases found
  | array item => cases found
  | union members => cases found
  | literal value => cases found
  | generic name arguments => cases found

theorem Registry.Labelled.objectLike_of_follow (labelled : registry.Labelled) (limit : Nat)
    (name : String) (visited after : List String)
    (found : registry.followWithin limit name visited = (true, after)) :
    ObjectLike registry.declarations (.reference name) := by
  induction limit generalizing name visited after with
  | zero => cases found
  | succ limit ih =>
    rw [labelled.followWithin_succ] at found
    split at found
    case h_1 => cases found
    case h_2 fields declared => exact .interface declared
    case h_3 type declared => exact .through declared (objectLike_of_search ih found)

/-- The search accepts only what has fresh names, and marks these. -/
theorem Follows.fresh_of_search (labelled : registry.Labelled) {type : TypeExpr}
    {names : List String} (follows : Follows registry.declarations type names) {limit : Nat}
    {visited after : List String}
    (found : objectLikeWith (registry.followWithin limit) type visited = (true, after)) :
    after = names.reverse ++ visited ∧ Fresh names visited := by
  induction follows generalizing limit visited after with
  | object =>
    cases found
    exact ⟨rfl, fresh_nil⟩
  | record =>
    cases found
    exact ⟨rfl, fresh_nil⟩
  | @intersection members names each ih =>
    -- The members are searched in order, each with the names of those before it.
    clear each
    rw [objectLikeWith] at found
    induction members generalizing visited with
    | nil =>
      cases found
      exact ⟨rfl, fresh_nil⟩
    | cons first rest ihRest =>
      rw [allObjectLikeWith] at found
      split at found
      case h_1 middle head =>
        obtain ⟨rfl, fresh⟩ := ih first List.mem_cons_self head
        obtain ⟨rfl, freshRest⟩ := ihRest
          (fun member inside => ih member (List.mem_cons_of_mem first inside)) found
        rw [List.flatMap_cons, fresh_append, List.reverse_append, List.append_assoc]
        exact ⟨rfl, fresh, freshRest⟩
      case h_2 => cases found
  | @interface name fields declared =>
    rw [objectLikeWith] at found
    split at found
    case isTrue => cases found
    case isFalse unvisited =>
      cases limit with
      | zero => cases found
      | succ limit =>
        rw [labelled.followWithin_succ, declared] at found
        cases found
        refine ⟨rfl, fresh_cons.mpr ⟨?_, fresh_nil⟩⟩
        simpa using unvisited
  | @through name type names declared _ ih =>
    rw [objectLikeWith] at found
    split at found
    case isTrue => cases found
    case isFalse unvisited =>
      cases limit with
      | zero => cases found
      | succ limit =>
        rw [labelled.followWithin_succ, declared] at found
        obtain ⟨rfl, fresh⟩ := ih found
        rw [fresh_cons, List.reverse_cons, List.append_assoc, List.singleton_append]
        exact ⟨rfl, by simpa using unvisited, fresh⟩

/-- The search accepts an object type whose names are fresh, within as many aliases. -/
theorem Follows.search (labelled : registry.Labelled) {type : TypeExpr} {names : List String}
    (follows : Follows registry.declarations type names) {limit : Nat} {visited : List String}
    (enough : names.length ≤ limit) (fresh : Fresh names visited) :
    objectLikeWith (registry.followWithin limit) type visited =
      (true, names.reverse ++ visited) := by
  induction follows generalizing limit visited with
  | object => rfl
  | record => rfl
  | @intersection members names each ih =>
    clear each
    rw [objectLikeWith]
    -- The members share the visited names, so what one has followed is held against the next.
    induction members generalizing visited with
    | nil => rfl
    | cons first rest ihRest =>
      rw [List.flatMap_cons, fresh_append] at fresh
      rw [List.flatMap_cons, List.length_append] at enough
      rw [allObjectLikeWith, ih first List.mem_cons_self (by omega) fresh.1]
      simp only
      rw [ihRest (fun member inside => ih member (List.mem_cons_of_mem first inside)) (by omega)
        fresh.2, List.flatMap_cons, List.reverse_append, List.append_assoc]
  | @interface name fields declared =>
    obtain ⟨unvisited, _⟩ := fresh_cons.mp fresh
    cases limit with
    | zero => cases enough
    | succ limit =>
      rw [objectLikeWith, labelled.followWithin_succ, declared, if_neg (by simpa using unvisited)]
      rfl
  | @through name type names declared _ ih =>
    obtain ⟨unvisited, fresh⟩ := fresh_cons.mp fresh
    cases limit with
    | zero => cases enough
    | succ limit =>
      rw [objectLikeWith, labelled.followWithin_succ, declared, if_neg (by simpa using unvisited),
        List.reverse_cons, List.append_assoc, List.singleton_append]
      exact ih (Nat.le_of_succ_le_succ enough) fresh

theorem Registry.declarations_length_le (registry : Registry) :
    registry.declarations.length ≤ registry.length := List.length_filterMap_le _ _

/-- The search recognises the object types along which no name is followed twice. -/
theorem Registry.Labelled.isObjectLike_iff (labelled : registry.Labelled) (type : TypeExpr) :
    registry.isObjectLike type = true ↔
      ∃ names, Follows registry.declarations type names ∧ names.Nodup := by
  unfold isObjectLike
  constructor
  · intro accepted
    have found : objectLikeWith (registry.followWithin (registry.length + 1)) type [] =
        (true, (objectLikeWith (registry.followWithin (registry.length + 1)) type []).2) := by
      rw [← accepted]
    obtain ⟨names, follows⟩ :=
      (objectLike_of_search (labelled.objectLike_of_follow _) found).follows
    exact ⟨names, follows, (follows.fresh_of_search labelled found).2.1⟩
  · rintro ⟨names, follows, distinct⟩
    -- Distinct names that are all declared are no more than the entries.
    have fewer := distinct.length_le_of_subset follows.declared
    have listed := registry.declarations_length_le
    rw [List.length_map] at fewer
    rw [follows.search labelled (by omega) ⟨distinct, fun _ _ => List.not_mem_nil⟩]

end Search

namespace Document

variable {document : Document} {propsOptional : Bool} {schemas : List Schema} {registry : Registry}

/-- After successful mappings an object type is recognised exactly if its names are distinct. -/
theorem isObjectLike_iff_objectLike
    (mapped : document.Mapped propsOptional schemas registry) (type : TypeExpr) :
    registry.isObjectLike type = true ↔ ObjectLike registry.declarations type ∧
      ∀ names, Follows registry.declarations type names → names.Nodup := by
  rw [mapped.complete.labelled.isObjectLike_iff]
  constructor
  · rintro ⟨names, follows, distinct⟩
    refine ⟨follows.objectLike, fun others beside => ?_⟩
    rw [← follows.unique beside]
    exact distinct
  · rintro ⟨objectLike, distinct⟩
    obtain ⟨names, follows⟩ := objectLike.follows
    exact ⟨names, follows, distinct names follows⟩

def diamondDocument : Document where
  paths := []
  components := { Components.empty with schemas := [
    ("Base", .keywords { Keywords.bare with
      types := some (.one "object")
      properties := some [("id", .keywords { Keywords.bare with types := some (.one "integer") })] }),
    ("Left", .keywords { Keywords.bare with
      allOf := some [.reference "#/components/schemas/Base"] }),
    ("Right", .keywords { Keywords.bare with
      allOf := some [.reference "#/components/schemas/Base"] })] }
  definitions := []

def diamond : Schema := .keywords { Keywords.bare with
  allOf := some [.reference "#/components/schemas/Left", .reference "#/components/schemas/Right"] }

theorem left_isObjectLike_iff_objectLike :
    ∃ registry, diamondDocument.Mapped true [diamond] registry ∧
      (registry.isObjectLike (.reference "Left") = true ↔
        ObjectLike registry.declarations (.reference "Left") ∧
        ∀ names, Follows registry.declarations (.reference "Left") names → names.Nodup) := by
  have mapped : diamondDocument.Mapped true [diamond] _ := .next .start rfl
  exact ⟨_, mapped, isObjectLike_iff_objectLike mapped _⟩

/-- Each of the extensions is recognised as an object type, but not both at once. -/
theorem diamond_not_isObjectLike :
    ∃ registry, diamondDocument.Mapped true [diamond] registry ∧
      registry.isObjectLike (.reference "Left") = true ∧
      registry.isObjectLike (.reference "Right") = true ∧
      ObjectLike registry.declarations
        (.intersection [.reference "Left", .reference "Right"]) ∧
      registry.isObjectLike (.intersection [.reference "Left", .reference "Right"]) = false := by
  refine ⟨_, .next .start rfl, rfl, rfl, .intersection ?_, rfl⟩
  intro member inside
  have base : ∀ {declarations : List Declaration} {name : String} {fields : List Field},
      firstDeclared declarations name = some (.alias (.reference "Base")) →
      firstDeclared declarations "Base" = some (.interface fields) →
      ObjectLike declarations (.reference name) :=
    fun aliased declared => .through aliased (.interface declared)
  rcases List.mem_cons.mp inside with rfl | inside
  · exact base rfl rfl
  · rw [List.mem_singleton.mp inside]
    exact base rfl rfl

end Document

end TypedClient.OpenApi
