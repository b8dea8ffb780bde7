import TypedClient.Proofs.OpenApi.SchemaShape
import TypedClient.Proofs.TypeScript.Parts

/-! The parts of the type of a schema.

The keywords of a schema make solid types around the types of the parts that are mapped. The one
exception is an empty `allOf` with nothing beside it, whose type is the intersection of no types.
-/

set_option autoImplicit false

namespace TypedClient.OpenApi

open TypeScript (Field TypeExpr)

/-- A part that stands in one of the types, or that is made around them. -/
def ComesFrom (part : TypeExpr) (types : List TypeExpr) : Prop :=
  (∃ type ∈ types, part.OccursIn type) ∨ part.Solid

structure Keywords.AllOfNone {σ : Type} (content : Keywords σ) : Prop where
  inconstant : content.constant = none
  empty : content.allOf = some []
  alone : hasSiblingObject content = false

section Keywords
variable {propsOptional : Bool} {content : Keywords TypeExpr} {part : TypeExpr}
  {types more : List TypeExpr}

namespace ComesFrom

theorem bind (comes : ComesFrom part types)
    (each : ∀ type ∈ types, part.OccursIn type → ComesFrom part more) : ComesFrom part more := by
  rcases comes with ⟨type, member, occurs⟩ | solid
  · exact each type member occurs
  · exact .inr solid

theorem mono (comes : ComesFrom part types) (fewer : types ⊆ more) : ComesFrom part more :=
  comes.bind fun type member occurs => .inl ⟨type, fewer member, occurs⟩

theorem of_literalType (value : Json.Value) (occurs : part.OccursIn (literalType value)) :
    ComesFrom part types := by
  refine .inr ?_
  unfold literalType at occurs
  split at occurs
  case h_4 =>
    split at occurs
    · cases occurs
      exact .literal
    · split at occurs <;> cases occurs
      · exact .literal
      · exact .scalar
  all_goals cases occurs; constructor

theorem of_pair {first second : TypeExpr} (occurs : part.OccursIn (.intersection [first, second])) :
    ComesFrom part [first, second] := by
  cases occurs with
  | self => exact .inr .intersection
  | operand inside occurs => exact .inl ⟨_, inside, occurs⟩

theorem of_record {values : TypeExpr} (occurs : part.OccursIn (.record values)) :
    ComesFrom part [values] := by
  cases occurs with
  | self => exact .inr .record
  | values occurs => exact .inl ⟨values, List.mem_cons_self, occurs⟩

theorem of_unknown (occurs : part.OccursIn .unknown) : ComesFrom part types := by
  cases occurs
  exact .inr .scalar

theorem of_object {fields : List Field} (present : fields ≠ [])
    (occurs : part.OccursIn (.object fields)) : ComesFrom part (fields.map (·.type)) := by
  cases occurs with
  | self =>
    obtain ⟨field, rest, rfl⟩ := List.exists_cons_of_ne_nil present
    exact .inr .object
  | field inside occurs => exact .inl ⟨_, List.mem_map_of_mem inside, occurs⟩

theorem of_objectType {fields : List Field} {values : Option TypeExpr}
    (occurs : part.OccursIn (objectType fields values)) :
    ComesFrom part (fields.map (·.type) ++ values.toList) := by
  unfold objectType at occurs
  split at occurs
  case h_1 =>
    refine (of_record occurs).bind fun type member occurs => ?_
    rw [List.mem_singleton.mp member] at occurs
    exact of_unknown occurs
  case h_2 => exact of_record occurs
  case h_3 present =>
    exact (of_object present occurs).mono (List.subset_append_left _ _)
  case h_4 values present =>
    refine (of_pair occurs).bind fun type member occurs => ?_
    simp only [List.mem_cons, List.not_mem_nil, or_false] at member
    rcases member with rfl | rfl
    · exact (of_object present occurs).mono (List.subset_append_left _ _)
    · exact (of_record occurs).mono (List.subset_append_right _ _)

theorem of_objectShape (occurs : part.OccursIn (objectShape propsOptional content)) :
    ComesFrom part content.objectParts := by
  refine (of_objectType occurs).bind fun type member occurs => ?_
  rcases List.mem_append.mp member with field | extra
  · refine .inl ⟨type, List.mem_append_left _ ?_, occurs⟩
    simpa [fieldShapes] using field
  · rw [Option.mem_toList, extraShape] at extra
    split at extra
    case h_1 => cases extra
    case h_2 allowed _ =>
      cases allowed <;> cases extra
      exact of_unknown occurs
    case h_3 values found =>
      cases extra
      refine .inl ⟨type, List.mem_append_right _ ?_, occurs⟩
      rw [Keywords.extraPart, found]
      exact List.mem_cons_self

theorem of_siblingShape {type : TypeExpr} (beside : siblingShape propsOptional content = some type)
    (occurs : part.OccursIn type) : ComesFrom part content.siblingParts := by
  unfold siblingShape at beside
  unfold Keywords.siblingParts
  split at beside
  case isTrue counts =>
    cases beside
    rw [if_pos counts]
    exact of_objectShape occurs
  case isFalse => cases beside

theorem of_namedShape {name : String} (occurs : part.OccursIn (namedShape propsOptional content name)) :
    ComesFrom part (content.namedParts name) := by
  unfold namedShape at occurs
  unfold Keywords.namedParts
  split at occurs
  case h_6 =>
    cases occurs with
    | self => exact .inr .array
    | item occurs =>
      cases found : content.items with
      | none =>
        rw [found] at occurs
        exact of_unknown occurs
      | some item =>
        rw [found] at occurs
        exact .inl ⟨item, List.mem_cons_self, occurs⟩
  case h_7 => exact of_objectShape occurs
  all_goals cases occurs; exact .inr .scalar

theorem of_unionOf (occurs : part.OccursIn (TypeExpr.unionOf types)) : ComesFrom part types :=
  occurs.of_unionOf

theorem of_besideObject {union : TypeExpr} {object : Option TypeExpr}
    (occurs : part.OccursIn (besideObject union object)) :
    ComesFrom part (union :: object.toList) := by
  cases object with
  | none => exact .inl ⟨union, List.mem_cons_self, occurs⟩
  | some object => exact of_pair occurs

theorem of_allOfType (present : types ≠ []) (occurs : part.OccursIn (allOfType types)) :
    ComesFrom part types := by
  unfold allOfType at occurs
  split at occurs
  case h_1 member => exact .inl ⟨member, List.mem_cons_self, occurs⟩
  case h_2 several =>
    cases occurs with
    | self =>
      rcases types with _ | ⟨first, _ | ⟨second, rest⟩⟩
      · exact absurd rfl present
      · exact absurd rfl (several first)
      · exact .inr .intersection
    | operand inside occurs => exact .inl ⟨_, inside, occurs⟩

end ComesFrom

theorem Keywords.decision_of_allOfNone {σ : Type} {content : Keywords σ}
    (none : content.AllOfNone) : content.decision = .all [] := by
  simp [decision, none.inconstant, none.empty]

theorem Keywords.allOfNone_iff {σ : Type} {content : Keywords σ} :
    content.AllOfNone ↔ content.decision = .all [] ∧ hasSiblingObject content = false := by
  refine ⟨fun none => ⟨decision_of_allOfNone none, none.alone⟩, ?_⟩
  rintro ⟨decided, alone⟩
  have decides := content.decides_decision
  rw [decided] at decides
  cases decides with
  | allOf inconstant empty => exact ⟨inconstant, empty, alone⟩

/-- Without members and without an object there is nothing to intersect. -/
theorem comesFrom_or_of_besideMembers {members : List TypeExpr}
    (occurs : part.OccursIn (allOfType (members ++ (siblingShape propsOptional content).toList))) :
    ComesFrom part (members ++ content.siblingParts) ∨
      part = .intersection [] ∧ members = [] ∧ hasSiblingObject content = false := by
  by_cases present : members ++ (siblingShape propsOptional content).toList = []
  · obtain ⟨rfl, beside⟩ := List.append_eq_nil_iff.mp present
    have alone : hasSiblingObject content = false := by
      by_contra counts
      simp [siblingShape, counts] at beside
    rw [present] at occurs
    refine .inr ⟨?_, rfl, alone⟩
    cases occurs with
    | self => rfl
    | operand inside => cases inside
  · refine .inl ((ComesFrom.of_allOfType present occurs).bind fun type member occurs => ?_)
    rcases List.mem_append.mp member with inside | beside
    · exact .inl ⟨type, List.mem_append_left _ inside, occurs⟩
    · exact (ComesFrom.of_siblingShape (Option.mem_toList.mp beside) occurs).mono
        (List.subset_append_right _ _)

theorem comesFrom_or_of_decidedShape (occurs : part.OccursIn (decidedShape propsOptional content)) :
    ComesFrom part content.visited ∨ part = .intersection [] ∧ content.AllOfNone := by
  unfold decidedShape at occurs
  unfold Keywords.visited
  cases decided : content.decision with
  | constant value =>
    simp only [decided] at occurs
    exact .inl (.of_literalType value occurs)
  | all members =>
    simp only [decided] at occurs ⊢
    refine (comesFrom_or_of_besideMembers occurs).imp_right ?_
    rintro ⟨rfl, rfl, alone⟩
    exact ⟨rfl, Keywords.allOfNone_iff.mpr ⟨decided, alone⟩⟩
  | variants members =>
    simp only [decided] at occurs ⊢
    refine .inl ((ComesFrom.of_besideObject occurs).bind fun type member occurs => ?_)
    rcases List.mem_cons.mp member with rfl | beside
    · exact (ComesFrom.of_unionOf occurs).mono (List.subset_append_left _ _)
    · exact (ComesFrom.of_siblingShape (Option.mem_toList.mp beside) occurs).mono
        (List.subset_append_right _ _)
  | enumeration values =>
    simp only [decided] at occurs
    refine .inl ((ComesFrom.of_unionOf occurs).bind fun type member occurs => ?_)
    obtain ⟨value, -, rfl⟩ := List.mem_map.mp member
    exact .of_literalType value occurs
  | types names =>
    simp only [decided] at occurs ⊢
    refine .inl ((ComesFrom.of_unionOf occurs).bind fun type member occurs => ?_)
    obtain ⟨name, listed, rfl⟩ := List.mem_map.mp member
    exact (ComesFrom.of_namedShape occurs).mono fun inner inside =>
      List.mem_flatMap.mpr ⟨name, listed, inside⟩
  | object =>
    simp only [decided] at occurs
    exact .inl (.of_objectShape occurs)
  | items item =>
    simp only [decided] at occurs
    cases occurs with
    | self => exact .inl (.inr .array)
    | item occurs => exact .inl (.inl ⟨item, List.mem_cons_self, occurs⟩)
  | nothing =>
    simp only [decided] at occurs
    exact .inl (.of_unknown occurs)

/-- A part of the type of keywords stands in the type of a part that is mapped, or is solid, or is the
intersection of no types. -/
theorem comesFrom_or_of_keywordsShape (occurs : part.OccursIn (keywordsShape propsOptional content)) :
    ComesFrom part content.visited ∨ part = .intersection [] ∧ content.AllOfNone := by
  unfold keywordsShape at occurs
  split at occurs
  · rcases ComesFrom.of_unionOf occurs with ⟨member, inside, occurs⟩ | solid
    · rcases List.mem_cons.mp inside with rfl | inside
      · exact comesFrom_or_of_decidedShape occurs
      · rw [List.mem_singleton.mp inside] at occurs
        cases occurs
        exact .inl (.inr .scalar)
    · exact .inl (.inr solid)
  · exact comesFrom_or_of_decidedShape occurs

/-! The other way, nothing of the parts is lost but repetitions in unions, where one type gives way to
another that counts as the same. So the empty intersection stays. -/

section Kept
variable {type : TypeExpr}

theorem occursIn_objectType {fields : List Field} {values : Option TypeExpr}
    (inside : type ∈ fields.map (·.type) ++ values.toList) (occurs : part.OccursIn type) :
    part.OccursIn (objectType fields values) := by
  have member : ∀ fields : List Field, type ∈ fields.map (·.type) → part.OccursIn (.object fields) := by
    intro fields inside
    obtain ⟨field, listed, rfl⟩ := List.mem_map.mp inside
    exact .field listed occurs
  cases fields with
  | nil =>
    cases values with
    | none => cases inside
    | some values =>
      obtain rfl := List.mem_singleton.mp inside
      exact .values occurs
  | cons field fields =>
    cases values with
    | none => exact member _ (by simpa using inside)
    | some values =>
      rcases List.mem_append.mp inside with named | extra
      · exact .operand List.mem_cons_self (member _ named)
      · obtain rfl := List.mem_singleton.mp extra
        exact .operand (List.mem_cons_of_mem _ List.mem_cons_self) (.values occurs)

theorem occursIn_objectShape (inside : type ∈ content.objectParts) (occurs : part.OccursIn type) :
    part.OccursIn (objectShape propsOptional content) := by
  refine occursIn_objectType ?_ occurs
  rcases List.mem_append.mp inside with named | extra
  · refine List.mem_append_left _ ?_
    simpa [fieldShapes] using named
  · refine List.mem_append_right _ ?_
    unfold Keywords.extraPart at extra
    split at extra
    case h_1 values found =>
      obtain rfl := List.mem_singleton.mp extra
      rw [extraShape, found]
      exact List.mem_cons_self
    case h_2 => cases extra

theorem exists_siblingShape (inside : type ∈ content.siblingParts) (occurs : part.OccursIn type) :
    ∃ object, siblingShape propsOptional content = some object ∧ part.OccursIn object := by
  unfold Keywords.siblingParts at inside
  unfold siblingShape
  split at inside
  case isTrue counts =>
    rw [if_pos counts]
    exact ⟨_, rfl, occursIn_objectShape inside occurs⟩
  case isFalse => cases inside

theorem occursIn_namedShape {name : String} (inside : type ∈ content.namedParts name)
    (occurs : part.OccursIn type) : part.OccursIn (namedShape propsOptional content name) := by
  unfold Keywords.namedParts at inside
  unfold namedShape
  split at inside
  case h_1 =>
    rw [Option.mem_toList] at inside
    rw [inside]
    exact .item occurs
  case h_2 => exact occursIn_objectShape inside occurs
  case h_3 => cases inside

theorem occursIn_besideObject {union : TypeExpr} {object : Option TypeExpr}
    (inside : type ∈ union :: object.toList) (occurs : part.OccursIn type) :
    part.OccursIn (besideObject union object) := by
  cases object with
  | none =>
    obtain rfl := List.mem_singleton.mp inside
    exact occurs
  | some object => exact .operand inside occurs

theorem occursIn_allOfType (inside : type ∈ types) (occurs : part.OccursIn type) :
    part.OccursIn (allOfType types) := by
  unfold allOfType
  split
  case h_1 =>
    obtain rfl := List.mem_singleton.mp inside
    exact occurs
  case h_2 => exact .operand inside occurs

variable (occurs : (TypeExpr.intersection []).OccursIn type)
include occurs

theorem occursIn_decidedShape (inside : type ∈ content.visited) :
    (TypeExpr.intersection []).OccursIn (decidedShape propsOptional content) := by
  unfold Keywords.visited at inside
  unfold decidedShape
  cases decided : content.decision with
  | constant value => simp [decided] at inside
  | all members =>
    simp only [decided] at inside ⊢
    rcases List.mem_append.mp inside with member | beside
    · exact occursIn_allOfType (List.mem_append_left _ member) occurs
    · obtain ⟨object, found, occurs⟩ := exists_siblingShape beside occurs
      exact occursIn_allOfType (List.mem_append_right _ (Option.mem_toList.mpr found)) occurs
  | variants members =>
    simp only [decided] at inside ⊢
    rcases List.mem_append.mp inside with member | beside
    · exact occursIn_besideObject List.mem_cons_self (TypeExpr.occursIn_unionOf member occurs)
    · obtain ⟨object, found, occurs⟩ := exists_siblingShape beside occurs
      exact occursIn_besideObject (List.mem_cons_of_mem _ (Option.mem_toList.mpr found)) occurs
  | enumeration values => simp [decided] at inside
  | types names =>
    simp only [decided] at inside ⊢
    obtain ⟨name, listed, named⟩ := List.mem_flatMap.mp inside
    exact TypeExpr.occursIn_unionOf (List.mem_map_of_mem listed) (occursIn_namedShape named occurs)
  | object =>
    simp only [decided] at inside ⊢
    exact occursIn_objectShape inside occurs
  | items item =>
    simp only [decided] at inside ⊢
    obtain rfl := List.mem_singleton.mp inside
    exact .item occurs
  | nothing => simp [decided] at inside

theorem occursIn_keywordsShape (inside : type ∈ content.visited) :
    (TypeExpr.intersection []).OccursIn (keywordsShape propsOptional content) := by
  unfold keywordsShape
  split
  · exact TypeExpr.occursIn_unionOf List.mem_cons_self (occursIn_decidedShape occurs inside)
  · exact occursIn_decidedShape occurs inside

end Kept

theorem occursIn_keywordsShape_of_allOfNone (none : content.AllOfNone) :
    (TypeExpr.intersection []).OccursIn (keywordsShape propsOptional content) := by
  have decided : decidedShape propsOptional content = .intersection [] := by
    simp [decidedShape, Keywords.decision_of_allOfNone none, siblingShape, none.alone, allOfType]
  unfold keywordsShape
  rw [decided]
  split
  · exact TypeExpr.occursIn_unionOf List.mem_cons_self .self
  · exact .self

end Keywords

/-- The schemas that a type is made of: the schema and the parts that are mapped, at any depth, but no
components. -/
inductive Schema.InPlace : Schema → Schema → Prop where
  | self {schema : Schema} : InPlace schema schema
  | part {content : Keywords Schema} {part other : Schema} :
      part ∈ content.visited → InPlace part other → InPlace (.keywords content) other

section Shape
variable {propsOptional : Bool} {schema : Schema} {part : TypeExpr}

theorem Keywords.allOfNone_map {σ τ : Type} {f : σ → τ} {content : Keywords σ} :
    (content.map f).AllOfNone ↔ content.AllOfNone := by
  rw [allOfNone_iff, allOfNone_iff, decision_map, hasSiblingObject_map]
  refine and_congr_left' ?_
  cases content.decision <;> simp [Decision.map]

/-- A part of the type of a schema is solid, or the name of a reference, or the intersection of no
types that an empty `allOf` leaves. -/
theorem Schema.parts_of_shape (occurs : part.OccursIn (schema.shape propsOptional)) :
    part.Solid ∨ (∃ target, part = .reference (referenceTypeName target)) ∨
      part = .intersection [] ∧ ∃ content, schema.InPlace (.keywords content) ∧ content.AllOfNone := by
  induction schema using Schema.induction with
  | reference target =>
    rw [shape, fold_reference] at occurs
    cases occurs
    exact .inr (.inl ⟨target, rfl⟩)
  | keywords content ih =>
    rw [shape, fold_keywords] at occurs
    rcases comesFrom_or_of_keywordsShape occurs with comes | ⟨same, none⟩
    · rcases comes with ⟨type, inside, occurs⟩ | solid
      · rw [Keywords.visited_map] at inside
        obtain ⟨inner, visited, rfl⟩ := List.mem_map.mp inside
        refine (ih inner (content.visited_subset visited) occurs).imp_right (Or.imp_right ?_)
        rintro ⟨same, origin, inPlace, none⟩
        exact ⟨same, origin, .part visited inPlace, none⟩
      · exact .inl solid
    · exact .inr (.inr ⟨same, content, .self, Keywords.allOfNone_map.mp none⟩)

theorem Schema.occursIn_shape {content : Keywords Schema} (inPlace : schema.InPlace (.keywords content))
    (none : content.AllOfNone) : (TypeExpr.intersection []).OccursIn (schema.shape propsOptional) := by
  generalize same : Schema.keywords content = origin at inPlace
  induction inPlace with
  | self =>
    subst same
    rw [shape, fold_keywords]
    exact occursIn_keywordsShape_of_allOfNone (Keywords.allOfNone_map.mpr none)
  | part visited _ ih =>
    rw [shape, fold_keywords]
    refine occursIn_keywordsShape (ih same) ?_
    rw [Keywords.visited_map]
    exact List.mem_map_of_mem visited

end Shape

end TypedClient.OpenApi
