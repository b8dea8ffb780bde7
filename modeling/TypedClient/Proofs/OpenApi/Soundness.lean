import TypedClient.Proofs.OpenApi.History
import TypedClient.Proofs.OpenApi.Validation
import TypedClient.Proofs.TypeScript.Inhabits

/-! The type of a schema has every value that the schema admits.

This holds of schemas whose object and array keywords come with a `type`, and of documents
whose references keep their names apart.
-/

set_option autoImplicit false

namespace TypedClient.OpenApi

open Json (Value)
open TypeScript (Body Declaration Field Inhabits TypeExpr firstDeclared
  firstDeclared_eq_of_unique)

variable {declarations : List Declaration} {propsOptional : Bool}

structure Keywords.Regular {σ : Type} (content : Keywords σ) : Prop where
  /-- Object and array keywords come with a type. -/
  typed : (content.properties.isSome ∨ content.extra.isSome ∨ content.items.isSome) →
    content.types.isSome
  /-- Beside a composition that type is the object type alone. -/
  composed : (content.allOf.isSome ∨ content.anyOf.isSome ∨ content.oneOf.isSome) →
    (content.properties.isSome ∨ content.extra.isSome ∨ content.items.isSome) →
    content.types.map TypeNames.toList = some ["object"]
  /-- Members with a name and a schema for all others do not meet. -/
  apart : content.properties.getD [] = [] ∨ content.extraPart = []
  /-- Numbers among the constants are integers of 64 bits. -/
  whole : ∀ value ∈ content.constant.toList ++ content.enumeration.getD [],
    value.number?.isSome → ∃ number, value = .integer number ∧ Value.isInt64 number = true

inductive Schema.Regular : Schema → Prop where
  | reference {target : String} : Regular (.reference target)
  | keywords {content : Keywords Schema} : content.Regular →
      (∀ part ∈ content.visited, Regular part) → Regular (.keywords content)

theorem inhabits_literalType {value constant : Value}
    (whole : constant.number?.isSome → ∃ number, constant = .integer number ∧
      Value.isInt64 number = true)
    (same : value.same constant = true) : Inhabits declarations value (literalType constant) := by
  cases constant with
  | integer number =>
    obtain ⟨other, equal, small⟩ := whole rfl
    cases equal
    rw [literalType, if_pos small]
    exact .literal rfl same
  | float number =>
    obtain ⟨other, equal, _⟩ := whole rfl
    cases equal
  | array items => exact .unknown
  | object members => exact .unknown
  | _ => exact .literal rfl same

section Keywords
variable {check : Schema → Value → Verdict} {content : Keywords Schema}

/-- What the check admits of a part is of the part's type. -/
def Sound (declarations : List Declaration) (propsOptional : Bool)
    (check : Schema → Value → Verdict) (part : Schema) : Prop :=
  ∀ value, check part value = some true → Inhabits declarations value (part.shape propsOptional)

theorem inhabits_fields {members : Json.Members}
    (sound : ∀ part ∈ content.objectParts, Sound declarations propsOptional check part)
    (required : (content.required.all fun name => (members.lookup name).isSome) = true)
    (properties : content.propertiesVerdict check members = some true) :
    Inhabits declarations (.object members)
      (.object (fieldShapes propsOptional (content.map (Schema.shape propsOptional)))) := by
  have fields : fieldShapes propsOptional (content.map (Schema.shape propsOptional)) =
      (content.properties.getD []).map fun property => ⟨property.1,
        property.2.shape propsOptional, isOptional propsOptional content.required property.1⟩ := by
    unfold fieldShapes
    cases found : content.properties <;> simp [Keywords.map, found]
  rw [fields]
  refine .object ?_ ?_
  · intro field listed absent
    obtain ⟨property, _, rfl⟩ := List.mem_map.mp listed
    -- A property that may not be left out is required, and the value was asked for it.
    cases propsOptional with
    | true => rfl
    | false =>
      have optional : property.1 ∉ content.required := by
        intro member
        have present := List.all_eq_true.mp required property.1 member
        rw [absent] at present
        cases present
      simp [isOptional, optional]
  · intro field listed value present
    obtain ⟨property, member, rfl⟩ := List.mem_map.mp listed
    have admitted := Verdict.all_eq_true.mp properties _ (List.mem_map_of_mem member)
    simp only at present
    simp only [present] at admitted
    apply sound property.2 _ value admitted
    exact List.mem_append_left _ (List.mem_map_of_mem member)

/-- Members without a name of their own, where no others are declared. -/
theorem inhabits_extra {members : Json.Members} {type : TypeExpr}
    (sound : ∀ part ∈ content.objectParts, Sound declarations propsOptional check part)
    (apart : content.properties.getD [] = [] ∨ content.extraPart = [])
    (extra : content.extraVerdict check members = some true)
    (shape : extraShape (content.map (Schema.shape propsOptional)) = some type) :
    Inhabits declarations (.object members) (.record type) := by
  refine .record fun member inside => ?_
  unfold extraShape Keywords.map at shape
  cases found : content.extra with
  | none => simp [found] at shape
  | some extraProperties =>
    cases extraProperties with
    | anyValue allowed =>
      cases allowed
      · simp [found, ExtraProperties.map] at shape
      · simp only [found, Option.map_some, ExtraProperties.map, if_true, Option.some.injEq] at shape
        rw [← shape]
        exact .unknown
    | each part =>
      simp only [found, Option.map_some, ExtraProperties.map, Option.some.injEq] at shape
      have part_mem : part ∈ content.objectParts :=
        List.mem_append_right _ (by simp [Keywords.extraPart, found])
      -- A schema for the others leaves no names, so it was asked about every member.
      have unnamed : content.names = [] := by
        rcases apart with none | none
        · rw [Keywords.names, none, List.map_nil]
        · simp [Keywords.extraPart, found] at none
      simp only [Keywords.extraVerdict, found, unnamed] at extra
      rw [← shape]
      apply sound part part_mem member.2
      apply Verdict.all_eq_true.mp extra
      exact List.mem_map.mpr ⟨member, by simpa using inside, rfl⟩

theorem inhabits_objectShape {members : Json.Members}
    (sound : ∀ part ∈ content.objectParts, Sound declarations propsOptional check part)
    (apart : content.properties.getD [] = [] ∨ content.extraPart = [])
    (admitted : content.objectVerdict check (.object members) = some true) :
    Inhabits declarations (.object members)
      (objectShape propsOptional (content.map (Schema.shape propsOptional))) := by
  rw [Keywords.objectVerdict, Verdict.both_eq_true, Verdict.both_eq_true] at admitted
  obtain ⟨required, properties, extra⟩ := admitted
  have fields := inhabits_fields sound (Option.some.inj required) properties
  have values := fun type => @inhabits_extra _ _ _ _ _ type sound apart extra
  unfold objectShape objectType
  split
  case h_1 => exact .record fun _ _ => .unknown
  case h_2 type _ found => exact values type found
  case h_3 => exact fields
  case h_4 type found _ =>
    refine .intersection fun member inside => ?_
    rcases List.mem_cons.mp inside with rfl | inside
    · exact fields
    · rw [List.mem_singleton.mp inside]
      exact values type found

/-- A value of a type that the keywords name has the type of that name. -/
theorem inhabits_namedShape {name : String} {value : Value}
    (sound : ∀ part ∈ content.namedParts name, Sound declarations propsOptional check part)
    (apart : content.properties.getD [] = [] ∨ content.extraPart = [])
    (object : content.objectVerdict check value = some true)
    (items : content.itemsVerdict check value = some true) (typed : hasType name value = true) :
    Inhabits declarations value
      (namedShape propsOptional (content.map (Schema.shape propsOptional)) name) := by
  unfold hasType at typed
  unfold Keywords.namedParts at sound
  split at typed
  case h_1 => exact .string
  case h_2 =>
    obtain ⟨number, given, _⟩ := (Option.any_eq_true _ _).mp typed
    exact .number given
  case h_3 =>
    obtain ⟨number, given⟩ := Option.isSome_iff_exists.mp typed
    exact .number given
  case h_4 => exact .boolean
  case h_5 => exact .null
  case h_6 values =>
    refine .array fun item inside => ?_
    cases found : content.items with
    | none =>
      simp only [Keywords.map, found]
      exact .unknown
    | some part =>
      simp only [Keywords.itemsVerdict, found] at items
      simp only [Keywords.map, found]
      apply sound part (by simp [found])
      exact Verdict.all_eq_true.mp items _ (List.mem_map_of_mem inside)
  case h_7 => exact inhabits_objectShape sound apart object
  case h_8 => cases typed

theorem hasType_object {value : Value} (typed : hasType "object" value = true) :
    ∃ members, value = .object members := by
  cases value with
  | object members => exact ⟨members, rfl⟩
  | _ => simp [hasType] at typed

theorem inhabits_siblingShape {value : Value} {type : TypeExpr}
    (sound : ∀ part ∈ content.siblingParts, Sound declarations propsOptional check part)
    (regular : content.Regular)
    (composition : content.allOf.isSome ∨ content.anyOf.isSome ∨ content.oneOf.isSome)
    (typed : ∀ types ∈ content.types, types.toList.any (hasType · value) = true)
    (object : content.objectVerdict check value = some true)
    (beside : siblingShape propsOptional (content.map (Schema.shape propsOptional)) = some type) :
    Inhabits declarations value type := by
  rw [siblingShape, Keywords.hasSiblingObject_map] at beside
  unfold Keywords.siblingParts at sound
  split at beside
  case isFalse => cases beside
  case isTrue counts =>
    rw [if_pos counts] at sound
    -- What stands beside a composition comes with the object type, so the value is an object.
    have structured : content.properties.isSome ∨ content.extra.isSome ∨ content.items.isSome := by
      unfold hasSiblingObject at counts
      cases properties : content.properties with
      | some _ => exact .inl rfl
      | none =>
        cases extra : content.extra with
        | some _ => exact .inr (.inl rfl)
        | none => simp [properties, extra] at counts
    obtain ⟨types, found, named⟩ := Option.map_eq_some_iff.mp
      (regular.composed composition structured)
    have isObject := typed types found
    rw [named, List.any_cons, List.any_nil, Bool.or_false] at isObject
    obtain ⟨members, rfl⟩ := hasType_object isObject
    cases beside
    exact inhabits_objectShape sound regular.apart object

structure Admits (check : Schema → Value → Verdict) (content : Keywords Schema) (value : Value) :
    Prop where
  constant : ∀ constant ∈ content.constant, value.same constant = true
  enumeration : ∀ values ∈ content.enumeration, values.any value.same = true
  typed : ∀ types ∈ content.types, types.toList.any (hasType · value) = true
  allOf : ∀ part ∈ content.allOf.getD [], check part value = some true
  anyOf : content.anyOfVerdict check value = some true
  oneOf : content.oneOfVerdict check value = some true
  object : content.objectVerdict check value = some true
  items : content.itemsVerdict check value = some true

theorem admits_of_verdict {value : Value} (admitted : content.verdict check value = some true) :
    (content.nullable = true ∧ value = .null) ∨ Admits check content value := by
  unfold Keywords.verdict at admitted
  split at admitted
  case isTrue null =>
    rw [Bool.and_eq_true] at null
    refine .inl ⟨null.1, ?_⟩
    cases value with
    | null => rfl
    | _ => simp [Value.same, Value.number?] at null
  case isFalse =>
    simp only [Verdict.both_eq_true, Keywords.ownVerdict, Option.some.injEq, Bool.and_eq_true]
      at admitted
    obtain ⟨⟨⟨constant, enumeration⟩, types⟩, allOf, anyOf, oneOf, object, items⟩ := admitted
    refine .inr ⟨(Option.all_eq_true _ _).mp constant, (Option.all_eq_true _ _).mp enumeration,
      (Option.all_eq_true _ _).mp types, ?_, anyOf, oneOf, object, items⟩
    intro part inside
    exact Verdict.all_eq_true.mp allOf _ (List.mem_map_of_mem inside)

theorem inhabits_besideObject {value : Value} {members : List Schema}
    (sound : ∀ part ∈ members ++ content.siblingParts, Sound declarations propsOptional check part)
    (regular : content.Regular) (admits : Admits check content value)
    (composition : content.allOf.isSome ∨ content.anyOf.isSome ∨ content.oneOf.isSome)
    (admitted : ∃ part ∈ members, check part value = some true) :
    Inhabits declarations value
      (besideObject (TypeExpr.unionOf (members.map (Schema.shape propsOptional)))
        (siblingShape propsOptional (content.map (Schema.shape propsOptional)))) := by
  obtain ⟨part, inside, admitted⟩ := admitted
  have union : Inhabits declarations value
      (TypeExpr.unionOf (members.map (Schema.shape propsOptional))) := by
    apply Inhabits.unionOf (List.mem_map_of_mem inside)
    exact sound part (List.mem_append_left _ inside) value admitted
  unfold besideObject
  split
  case h_1 type beside =>
    have object := inhabits_siblingShape
      (fun part inside => sound part (List.mem_append_right _ inside)) regular composition
      admits.typed admits.object beside
    refine .intersection fun member inside => ?_
    rcases List.mem_cons.mp inside with rfl | inside
    · exact union
    · rw [List.mem_singleton.mp inside]
      exact object
  case h_2 => exact union

theorem inhabits_besideMembers {value : Value} {members : List Schema}
    (sound : ∀ part ∈ members ++ content.siblingParts, Sound declarations propsOptional check part)
    (regular : content.Regular) (admits : Admits check content value)
    (composition : content.allOf.isSome ∨ content.anyOf.isSome ∨ content.oneOf.isSome)
    (admitted : ∀ part ∈ members, check part value = some true) :
    Inhabits declarations value
      (allOfType (members.map (Schema.shape propsOptional) ++
        (siblingShape propsOptional (content.map (Schema.shape propsOptional))).toList)) := by
  have each : ∀ member ∈ members.map (Schema.shape propsOptional) ++
      (siblingShape propsOptional (content.map (Schema.shape propsOptional))).toList,
      Inhabits declarations value member := by
    intro member inside
    rcases List.mem_append.mp inside with inside | beside
    · obtain ⟨part, listed, rfl⟩ := List.mem_map.mp inside
      exact sound part (List.mem_append_left _ listed) value (admitted part listed)
    · exact inhabits_siblingShape (fun part listed => sound part (List.mem_append_right _ listed))
        regular composition admits.typed admits.object (Option.mem_toList.mp beside)
  unfold allOfType
  split
  case h_1 single =>
    rw [single] at each
    exact each _ List.mem_cons_self
  case h_2 => exact .intersection each

theorem inhabits_decidedShape {value : Value}
    (sound : ∀ part ∈ content.visited, Sound declarations propsOptional check part)
    (regular : content.Regular) (admits : Admits check content value) :
    Inhabits declarations value
      (decidedShape propsOptional (content.map (Schema.shape propsOptional))) := by
  -- Each keyword was asked about the value, so the one that decides was.
  have decides := content.decides_decision
  unfold decidedShape
  unfold Keywords.visited at sound
  rw [Keywords.decision_map]
  generalize content.decision = decision at decides sound
  cases decides with
  | constant found =>
    exact inhabits_literalType (regular.whole _ (by simp [found])) (admits.constant _ found)
  | @allOf members _ found =>
    apply inhabits_besideMembers sound regular admits (.inl (by rw [found]; rfl))
    exact fun part inside => admits.allOf part (by rwa [found])
  | @anyOf members _ _ found =>
    apply inhabits_besideObject sound regular admits (.inr (.inl (by rw [found]; rfl)))
    have admitted := admits.anyOf
    simp only [Keywords.anyOfVerdict, found] at admitted
    obtain ⟨_, inside, holds⟩ := Verdict.any_eq_true.mp admitted
    obtain ⟨part, listed, rfl⟩ := List.mem_map.mp inside
    exact ⟨part, listed, holds⟩
  | @oneOf members _ _ _ found =>
    apply inhabits_besideObject sound regular admits (.inr (.inr (by rw [found]; rfl)))
    have admitted := admits.oneOf
    simp only [Keywords.oneOfVerdict, found] at admitted
    obtain ⟨_, inside, holds⟩ := Verdict.exists_of_one admitted
    obtain ⟨part, listed, rfl⟩ := List.mem_map.mp inside
    exact ⟨part, listed, holds⟩
  | @enumeration values _ _ _ _ found =>
    obtain ⟨constant, listed, same⟩ := List.any_eq_true.mp (admits.enumeration values found)
    apply Inhabits.unionOf (List.mem_map_of_mem listed)
    exact inhabits_literalType (regular.whole _ (by simp [found, listed])) same
  | @types types _ _ _ _ _ found =>
    obtain ⟨name, listed, typed⟩ := List.any_eq_true.mp (admits.typed types found)
    apply Inhabits.unionOf (List.mem_map_of_mem listed)
    refine inhabits_namedShape ?_ regular.apart admits.object admits.items typed
    exact fun part inside => sound part (List.mem_flatMap.mpr ⟨name, listed, inside⟩)
  | object _ _ _ _ _ noTypes structured =>
    -- These keywords do not stand without a type.
    have typed := regular.typed (by
      rw [Bool.or_eq_true] at structured
      exact structured.imp_right .inl)
    rw [noTypes] at typed
    cases typed
  | items _ _ _ _ _ noTypes _ found =>
    have typed := regular.typed (.inr (.inr (by rw [found]; rfl)))
    rw [noTypes] at typed
    cases typed
  | nothing => exact .unknown

theorem inhabits_keywordsShape {value : Value}
    (sound : ∀ part ∈ content.visited, Sound declarations propsOptional check part)
    (regular : content.Regular) (admitted : content.verdict check value = some true) :
    Inhabits declarations value
      (keywordsShape propsOptional (content.map (Schema.shape propsOptional))) := by
  have nullable : (content.map (Schema.shape propsOptional)).nullable = content.nullable := rfl
  unfold keywordsShape
  rw [nullable]
  rcases admits_of_verdict admitted with ⟨null, rfl⟩ | admits
  · rw [if_pos null]
    exact .unionOf (List.mem_cons_of_mem _ List.mem_cons_self) .null
  · have decided := inhabits_decidedShape sound regular admits
    split
    · exact .unionOf List.mem_cons_self decided
    · exact decided

end Keywords

namespace Document

variable {document : Document} {registry : Registry}

/-- Different references that the schemas reach have different type names. -/
def NamesApart (document : Document) (schemas : List Schema) : Prop :=
  ∀ first second, (∃ schema ∈ schemas, document.Reaches schema first) →
    (∃ schema ∈ schemas, document.Reaches schema second) →
    referenceTypeName first = referenceTypeName second → first = second

/-- The schema and the components that it reaches are regular. -/
def RegularFrom (document : Document) (schema : Schema) : Prop :=
  schema.Regular ∧ ∀ reference target, document.Reaches schema reference →
    document.schemaAt? reference = some target → target.Regular

/-- Where names are kept apart, the first declaration of a name is that of its reference. -/
theorem Complete.firstDeclared_eq (complete : document.Complete propsOptional registry)
    (apart : ∀ first ∈ registry.references, ∀ second ∈ registry.references,
      referenceTypeName first = referenceTypeName second → first = second)
    {reference : String} {target : Schema} (member : reference ∈ registry.references)
    (resolved : document.schemaAt? reference = some target) :
    firstDeclared registry.declarations (referenceTypeName reference) =
      some (componentDeclaration (referenceTypeName reference)
        (target.shape propsOptional)).body := by
  have declared := document.declarationOf_of_schemaAt propsOptional resolved
  have name := componentDeclaration_name (referenceTypeName reference) (target.shape propsOptional)
  have first := firstDeclared_eq_of_unique
    (complete.mem_declarations_iff.mpr ⟨reference, member, declared⟩) ?_
  · rwa [name] at first
  · intro declaration listed same
    -- Another declaration of the name would be that of another reference.
    obtain ⟨other, inside, beside⟩ := complete.mem_declarations_iff.mp listed
    rw [name, document.name_of_declarationOf propsOptional beside] at same
    rw [apart other inside reference member same, declared] at beside
    exact (Option.some.inj beside).symm

theorem inhabits_of_verdict (complete : document.Complete propsOptional registry)
    (apart : ∀ first ∈ registry.references, ∀ second ∈ registry.references,
      referenceTypeName first = referenceTypeName second → first = second)
    (depth : Nat) {schema : Schema} {value : Value} (regular : document.RegularFrom schema)
    (reached : ∀ reference, document.Reaches schema reference → reference ∈ registry.references)
    (admitted : document.verdict depth schema value = some true) :
    Inhabits registry.declarations value (schema.shape propsOptional) := by
  -- Components may be cyclic, so the induction is on the depth of the answer, not on the schema.
  induction depth generalizing schema value with
  | zero => cases admitted
  | succ depth ih =>
    cases schema with
    | reference target =>
      rw [verdict] at admitted
      split at admitted
      case h_1 component resolved =>
        have declared := complete.firstDeclared_eq apart (reached target .met) resolved
        rw [Schema.shape, Schema.fold_reference]
        refine .reference declared ?_
        rw [componentDeclaration_type]
        refine ih ⟨regular.2 target component .met resolved, ?_⟩ ?_ admitted
        · exact fun other found reaches => regular.2 other found (.component resolved reaches)
        · exact fun other reaches => reached other (.component resolved reaches)
      case h_2 => cases admitted
    | keywords content =>
      have shape : (Schema.keywords content).shape propsOptional =
          keywordsShape propsOptional (content.map (Schema.shape propsOptional)) := by
        rw [Schema.shape, Schema.fold_keywords]
      rw [shape]
      cases regular.1 with
      | keywords own parts =>
        refine inhabits_keywordsShape (fun part visited value admitted => ?_) own admitted
        refine ih ⟨parts part visited, ?_⟩ ?_ admitted
        · exact fun other found reaches => regular.2 other found (.part visited reaches)
        · exact fun other reaches => reached other (.part visited reaches)

/-- Every value that a schema admits is of the type that the schema is mapped to, whatever was
mapped before. -/
theorem typeOf_sound {earlier : List Schema} {schema : Schema} {after : Registry}
    {type : TypeExpr} (mapped : document.Mapped propsOptional earlier registry)
    (mapping : (document.typeOf propsOptional schema).outcome registry = (.ok type, after))
    (apart : document.NamesApart (earlier ++ [schema])) (regular : document.RegularFrom schema)
    {value : Value} (valid : document.Validates schema value) :
    Inhabits after.declarations value type := by
  have mappedAfter := mapped.next mapping
  have shape := (Walk.of_typeOf mapped.complete.named mapping).2
  obtain ⟨depth, admitted⟩ := valid
  rw [shape]
  refine inhabits_of_verdict mappedAfter.complete ?_ depth regular ?_ admitted
  · intro first member second inside
    exact apart first second ((mappedAfter.mem_references_iff first).mp member)
      ((mappedAfter.mem_references_iff second).mp inside)
  · intro reference reaches
    exact (mappedAfter.mem_references_iff reference).mpr ⟨schema, by simp, reaches⟩

def sampleTree : Value :=
  .object [("tag", .string "root"), ("children", .array [.object [("tag", .null)]])]

def treeReferences : List String := ["#/components/schemas/Node", "#/components/schemas/Tag"]

theorem tree_regular {reference : String} {target : Schema} (member : reference ∈ treeReferences)
    (resolved : treeDocument.schemaAt? reference = some target) : target.Regular := by
  have node : ∀ part ∈ [Schema.reference "#/components/schemas/Node"], part.Regular := by
    intro part inside
    rw [List.mem_singleton.mp inside]
    exact .reference
  rcases List.mem_cons.mp member with rfl | member
  · cases resolved
    refine .keywords ⟨fun _ => rfl, by simp [Keywords.bare], .inr rfl, by simp [Keywords.bare]⟩ ?_
    intro part inside
    rcases List.mem_cons.mp inside with rfl | inside
    · exact .reference
    · rw [List.mem_singleton.mp inside]
      exact .keywords ⟨fun _ => rfl, by simp [Keywords.bare], .inl rfl, by simp [Keywords.bare]⟩ node
  · rw [List.mem_singleton.mp member] at resolved
    cases resolved
    exact .keywords ⟨fun _ => rfl, by simp [Keywords.bare], .inl rfl, by simp [Keywords.bare]⟩
      fun _ inside => absurd inside List.not_mem_nil

theorem tree_typeOf_sound :
    ∃ after type,
      (treeDocument.typeOf false (.reference "#/components/schemas/Node")).outcome [] =
        (.ok type, after) ∧
      treeDocument.Validates (.reference "#/components/schemas/Node") sampleTree ∧
      Inhabits after.declarations sampleTree type := by
  have mapping : (treeDocument.typeOf false (.reference "#/components/schemas/Node")).outcome [] =
    (.ok (.reference "Node"), _) := rfl
  have mapped : treeDocument.Mapped false [.reference "#/components/schemas/Node"] _ :=
    .next .start mapping
  have valid : treeDocument.Validates (.reference "#/components/schemas/Node") sampleTree :=
    ⟨10, by decide⟩
  have apart : ∀ first ∈ treeReferences, ∀ second ∈ treeReferences,
      referenceTypeName first = referenceTypeName second → first = second := by decide
  refine ⟨_, _, mapping, valid, typeOf_sound .start mapping ?_ ⟨.reference, ?_⟩ valid⟩
  · intro first second firstReached secondReached
    exact apart first ((mapped.mem_references_iff first).mpr firstReached) second
      ((mapped.mem_references_iff second).mpr secondReached)
  · intro reference target reaches resolved
    have member : reference ∈ treeReferences :=
      (mapped.mem_references_iff reference).mpr ⟨_, List.mem_cons_self, reaches⟩
    exact tree_regular member resolved

end Document

end TypedClient.OpenApi
