import TypedClient.OpenApi.Reference
import TypedClient.Proofs.Lists
import TypedClient.Proofs.Text.Pieces

/-! References to the components of a document.

In a reference each tilde of a name gives way to `~0`, and then each slash to `~1`. Undoing this is
two replacements in the opposite order, and what the first puts in is no part of an escape for the second.
As a name has no slash left in a reference, the last one is in front of it, and so
the name is what is behind the section and also what is behind the last slash.
-/

set_option autoImplicit false

namespace TypedClient.Text

section Replacing
variable {c d e : Char} {new rest : List Char}

/-- Each occurrence of `old`, from left to right, gives way to `new`. The first characters, as many as
`skip`, belong to one that has done so. -/
def replaceFrom (old new : List Char) : Nat → List Char → List Char
  | _, [] => []
  | skip + 1, _ :: rest => replaceFrom old new skip rest
  | 0, c :: rest =>
    if (dropLead? old (c :: rest)).isSome then new ++ replaceFrom old new (old.length - 1) rest
    else c :: replaceFrom old new 0 rest

def replaceAll (old new text : List Char) : List Char := replaceFrom old new 0 text

theorem replaceAll_singleton (text : List Char) :
    replaceAll [c] new text = text.flatMap fun d => if d = c then new else [d] := by
  induction text with
  | nil => rfl
  | cons d rest ih =>
    by_cases same : d = c
    · subst same
      rw [List.flatMap_cons, if_pos rfl, ← ih]
      simp [replaceAll, replaceFrom, dropLead?]
    · rw [List.flatMap_cons, if_neg same, ← ih]
      simp [replaceAll, replaceFrom, dropLead?, Ne.symm same]

theorem replaceAll_pair : replaceAll [c, d] new (c :: d :: rest) = new ++ replaceAll [c, d] new rest := by
  simp [replaceAll, replaceFrom, dropLead?]

theorem replaceAll_cons (other : e = c → rest.head? ≠ some d) :
    replaceAll [c, d] new (e :: rest) = e :: replaceAll [c, d] new rest := by
  have absent : (dropLead? [c, d] (e :: rest)).isSome = false := by
    cases rest with
    | nil => simp [dropLead?]
    | cons f rest =>
      rw [List.head?_cons, Ne, Option.some.injEq] at other
      by_cases same : e = c
      · simp [dropLead?, same, Ne.symm (other same)]
      · simp [dropLead?, Ne.symm same]
  simp [replaceAll, replaceFrom, absent]

/-- What comes first is what has been put there, or it has been there before. -/
theorem head?_replaceAll (old : List Char) (first : Char) (more text : List Char) :
    (replaceAll old (first :: more) text).head? = some first ∨
      (replaceAll old (first :: more) text).head? = text.head? := by
  cases text with
  | nil => exact .inr rfl
  | cons c rest =>
    rw [replaceAll, replaceFrom]
    split_ifs with here
    · exact .inl rfl
    · exact .inr rfl

end Replacing

end TypedClient.Text

namespace TypedClient.OpenApi

open Text (replaceAll)

section Escapes

/-- The escapes are undone by two replacements, one after the other. -/
theorem unescapeName_eq (text : List Char) :
    unescapeName text = replaceAll ['~', '0'] ['~'] (replaceAll ['~', '1'] ['/'] text) := by
  induction text using unescapeName.induct with
  | case1 => rfl
  | case2 rest ih =>
    rw [unescapeName, Text.replaceAll_pair, List.singleton_append, Text.replaceAll_cons (by simp), ih]
  | case3 rest ih =>
    have kept : replaceAll ['~', '1'] ['/'] ('~' :: '0' :: rest) =
        '~' :: '0' :: replaceAll ['~', '1'] ['/'] rest := by
      rw [Text.replaceAll_cons (by simp), Text.replaceAll_cons (by simp)]
    rw [unescapeName, kept, Text.replaceAll_pair, List.singleton_append, ih]
  | case4 c rest noSlash noTilde ih =>
    have first : c = '~' → rest.head? ≠ some '1' := fun tilde one =>
      noSlash rest.tail tilde (List.eq_cons_of_mem_head? one)
    -- Only a slash can newly come behind a tilde, so that the first replacement makes no escape.
    have second : c = '~' → (replaceAll ['~', '1'] ['/'] rest).head? ≠ some '0' := by
      intro tilde zero
      obtain slash | same := Text.head?_replaceAll ['~', '1'] '/' [] rest
      · rw [slash] at zero
        cases zero
      · exact noTilde rest.tail tilde (List.eq_cons_of_mem_head? (same.symm.trans zero))
    rw [Text.replaceAll_cons first, Text.replaceAll_cons second, ← ih, unescapeName]
    · exact noSlash
    · exact noTilde

/-- A name as it stands in a reference. The tildes come first, since slashes bring in new ones. -/
def escapeName (name : List Char) : List Char :=
  replaceAll ['/'] ['~', '1'] (replaceAll ['~'] ['~', '0'] name)

def escapedChar (c : Char) : List Char :=
  if c = '~' then ['~', '0'] else if c = '/' then ['~', '1'] else [c]

theorem escapeName_eq (name : List Char) : escapeName name = name.flatMap escapedChar := by
  rw [escapeName, Text.replaceAll_singleton, Text.replaceAll_singleton, List.flatMap_assoc]
  refine List.flatMap_congr fun c _ => ?_
  unfold escapedChar
  split_ifs with tilde slash
  · rfl
  · rw [slash]
    rfl
  · simp [slash]

theorem slash_not_mem_escapeName (name : List Char) : '/' ∉ escapeName name := by
  rw [escapeName_eq, List.mem_flatMap]
  rintro ⟨c, _, inside⟩
  unfold escapedChar at inside
  split_ifs at inside with tilde slash
  · simp at inside
  · simp at inside
  · exact slash (List.mem_singleton.mp inside).symm

/-- Each tilde of the name has a zero behind it, so that only what a slash has given way to is taken for
an escaped slash. -/
theorem replaceAll_escapeName (name : List Char) :
    replaceAll ['~', '1'] ['/'] (escapeName name) = replaceAll ['~'] ['~', '0'] name := by
  rw [escapeName_eq, Text.replaceAll_singleton]
  induction name with
  | nil => rfl
  | cons c name ih =>
    rw [List.flatMap_cons, List.flatMap_cons, ← ih]
    unfold escapedChar
    split_ifs with tilde slash
    · exact (Text.replaceAll_cons (by simp)).trans (congrArg _ (Text.replaceAll_cons (by simp)))
    · rw [slash]
      exact Text.replaceAll_pair
    · exact Text.replaceAll_cons fun same => absurd same tilde

theorem replaceAll_tildes (name : List Char) :
    replaceAll ['~', '0'] ['~'] (replaceAll ['~'] ['~', '0'] name) = name := by
  rw [Text.replaceAll_singleton]
  induction name with
  | nil => rfl
  | cons c name ih =>
    rw [List.flatMap_cons]
    split_ifs with tilde
    · rw [tilde]
      exact Text.replaceAll_pair.trans (congrArg _ ih)
    · exact (Text.replaceAll_cons fun same => absurd same tilde).trans (congrArg _ ih)

theorem unescapeName_escapeName (name : List Char) : unescapeName (escapeName name) = name := by
  rw [unescapeName_eq, replaceAll_escapeName, replaceAll_tildes]

end Escapes

def referenceTo (place name : String) : String := place ++ String.ofList (escapeName name.toList)

example : referenceTo definitionsSection "~1/a" = "#/definitions/~01~1a" := by decide +kernel

section References
variable {α : Type} {table : List (String × α)} {place : String} {resolve : String → Except Fault α}

theorem toList_referenceTo (place name : String) :
    (referenceTo place name).toList = place.toList ++ escapeName name.toList := by
  rw [referenceTo, String.toList_append, String.toList_ofList]

/-- What is behind the place is the name. -/
theorem nameIn?_referenceTo (place name : String) :
    nameIn? place (referenceTo place name) = some name := by
  rw [nameIn?, toList_referenceTo, Text.dropLead?_append, Option.map_some, unescapeName_escapeName,
    String.ofList_toList]

theorem referenceTo_injective (place : String) : Function.Injective (referenceTo place) := by
  intro first second same
  have named := nameIn?_referenceTo place second
  rw [← same, nameIn?_referenceTo] at named
  exact Option.some.inj named

/-- What is behind the last slash is the name too. -/
theorem referenceName_referenceTo (slash : place.toList.getLast? = some '/') (name : String) :
    referenceName (referenceTo place name) = name := by
  obtain ⟨before, ends⟩ := List.getLast?_eq_some_iff.mp slash
  have last : Text.splitAt (· == '/') (escapeName name.toList) = [escapeName name.toList] :=
    Text.splitAt_of_stays fun c inside => by
      rw [beq_eq_false_iff_ne]
      rintro rfl
      exact slash_not_mem_escapeName name.toList inside
  have cut : Text.splitAt (· == '/') (referenceTo place name).toList =
      Text.splitAt (· == '/') before ++ [escapeName name.toList] := by
    rw [toList_referenceTo, ends, List.append_assoc, List.singleton_append,
      Text.splitAt_append_cons rfl, last]
  simp only [referenceName]
  rw [cut, List.getLast?_concat, Option.getD_some, unescapeName_escapeName, String.ofList_toList]

/-- For any name, the reference at the place leads to what the table has under the name and to nothing
else; no two names have the same reference, and the name can be read off it. -/
structure Addresses (table : List (String × α)) (place : String)
    (resolve : String → Except Fault α) : Prop where
  resolve_ok_iff : ∀ name component,
    resolve (referenceTo place name) = .ok component ↔ table.lookup name = some component
  resolve_error : ∀ name, table.lookup name = none →
    resolve (referenceTo place name) = .error (.unresolvedReference (referenceTo place name))
  /-- When no name is used twice, there is just one entry that it can lead to. -/
  resolve_ok_iff_mem : (table.map Prod.fst).Nodup → ∀ name component,
    resolve (referenceTo place name) = .ok component ↔ (name, component) ∈ table
  referenceName_eq : ∀ name, referenceName (referenceTo place name) = name
  injective : Function.Injective (referenceTo place)

theorem addresses_of_lookup (slash : place.toList.getLast? = some '/')
    (found : ∀ name component, table.lookup name = some component →
      resolve (referenceTo place name) = .ok component)
    (missed : ∀ name, table.lookup name = none →
      resolve (referenceTo place name) = .error (.unresolvedReference (referenceTo place name))) :
    Addresses table place resolve := by
  have resolve_ok_iff (name : String) (component : α) :
      resolve (referenceTo place name) = .ok component ↔ table.lookup name = some component := by
    refine ⟨fun given => ?_, found name component⟩
    cases stored : table.lookup name with
    | none =>
      rw [missed name stored] at given
      cases given
    | some other =>
      rw [found name other stored] at given
      cases given
      rfl
  refine ⟨resolve_ok_iff, missed, ?_, referenceName_referenceTo slash, referenceTo_injective place⟩
  intro distinct name component
  rw [resolve_ok_iff]
  refine ⟨fun stored => ?_, lookup_of_mem distinct⟩
  obtain ⟨before, behind, rfl, _⟩ := List.lookup_eq_some_iff.mp stored
  exact List.mem_append_right before List.mem_cons_self

/-- A reference that stands in place of an object. -/
theorem RefOr.addresses (table : List (String × α)) (slash : place.toList.getLast? = some '/') :
    Addresses table place fun target => (RefOr.reference target).resolve table place := by
  refine addresses_of_lookup slash (fun name component stored => ?_) fun name absent => ?_
  · simp only [RefOr.resolve, nameIn?_referenceTo, Option.bind_some, stored]
  · simp only [RefOr.resolve, nameIn?_referenceTo, Option.bind_some, absent]

namespace Document

variable (document : Document)

theorem addresses_schemas :
    Addresses document.components.schemas schemasSection document.schemaAt := by
  refine addresses_of_lookup rfl (fun name schema stored => ?_) fun name absent => ?_
  · simp only [schemaAt, schemaAt?, nameIn?_referenceTo, stored]
  · simp only [schemaAt, schemaAt?, nameIn?_referenceTo, absent]

/-- A reference to a definition is not taken for one to a component. -/
theorem addresses_definitions :
    Addresses document.definitions definitionsSection document.schemaAt := by
  have apart (name : String) : nameIn? schemasSection (referenceTo definitionsSection name) = none := by
    rw [nameIn?, toList_referenceTo]
    rfl
  refine addresses_of_lookup rfl (fun name schema stored => ?_) fun name absent => ?_
  · simp only [schemaAt, schemaAt?, apart, nameIn?_referenceTo, stored]
  · simp only [schemaAt, schemaAt?, apart, nameIn?_referenceTo, absent]

end Document

end References

/-- Every table of a document is addressed by references. -/
theorem references_address (document : Document) :
    Addresses document.components.schemas schemasSection document.schemaAt ∧
    Addresses document.definitions definitionsSection document.schemaAt ∧
    Addresses document.components.parameters parametersSection
      (fun target => (RefOr.reference target).resolve document.components.parameters parametersSection) ∧
    Addresses document.components.requestBodies requestBodiesSection
      (fun target =>
        (RefOr.reference target).resolve document.components.requestBodies requestBodiesSection) ∧
    Addresses document.components.responses responsesSection
      (fun target => (RefOr.reference target).resolve document.components.responses responsesSection) :=
  ⟨document.addresses_schemas, document.addresses_definitions, RefOr.addresses _ rfl,
    RefOr.addresses _ rfl, RefOr.addresses _ rfl⟩

end TypedClient.OpenApi
