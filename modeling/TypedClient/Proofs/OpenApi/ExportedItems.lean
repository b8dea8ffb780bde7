import TypedClient.Proofs.OpenApi.FetchTrees
import TypedClient.Proofs.Text.Identifiers

/-! The types that the items of a declaration file export.

The name of an exported type is read off the line or the header that begins it, up to
the first character that is not part of identifiers. Comments, imports and functions
export no type.
-/

set_option autoImplicit false

namespace TypedClient

open Text

section Reading

def exportLeads : List String := ["export interface ", "export type "]

def exportedName? (line : String) : Option String :=
  (exportLeads.findSome? fun lead => dropLead? lead.toList line.toList).map fun rest =>
    String.ofList (rest.takeWhile isIdentifierChar)

def Item.exportedType? : Item → Option String
  | .line text => exportedName? text
  | .blank => none
  | .block header _ _ => exportedName? header

def exportedTypes (items : List Item) : List String := items.filterMap Item.exportedType?

variable {name line : String} {rest : List Char}

theorem takeWhile_usable {text : List Char} (usable : Usable text)
    (ends : ∀ c ∈ rest.head?, isIdentifierChar c = false) :
    (text ++ rest).takeWhile isIdentifierChar = text := by
  rw [List.takeWhile_append_of_pos usable]
  cases rest with
  | nil => simp
  | cons c rest => simp [ends c rfl]

theorem exportedName?_eq_some (lead : String) (rest : List Char) (listed : lead ∈ exportLeads)
    (usable : Usable name.toList) (text : line.toList = lead.toList ++ (name.toList ++ rest))
    (ends : ∀ c ∈ rest.head?, isIdentifierChar c = false) :
    exportedName? line = some name := by
  have found : exportLeads.findSome? (fun lead => dropLead? lead.toList line.toList) =
      some (name.toList ++ rest) := by
    rw [text]
    simp only [exportLeads, List.mem_cons, List.not_mem_nil, or_false] at listed
    rcases listed with rfl | rfl
    · simp only [exportLeads, List.findSome?_cons, dropLead?_append]
    · -- The leads differ before their ends, so the first does not match.
      have other : dropLead? "export interface ".toList
          ("export type ".toList ++ (name.toList ++ rest)) = none := rfl
      simp only [exportLeads, List.findSome?_cons, dropLead?_append, other]
  rw [exportedName?, found, Option.map_some, takeWhile_usable usable ends, String.ofList_toList]

theorem exportedTypes_append (first rest : List Item) :
    exportedTypes (first ++ rest) = exportedTypes first ++ exportedTypes rest :=
  List.filterMap_append

theorem exportedTypes_eq_nil {items : List Item}
    (none : ∀ item ∈ items, item.exportedType? = none) : exportedTypes items = [] :=
  List.filterMap_eq_nil_iff.mpr none

end Reading

namespace OpenApi

open TypeScript (Declaration TypeExpr aliasLine)

section Items
variable (quotes : QuoteStyle) {name : String}

theorem exportedType?_aliasLine (usable : Usable name.toList) (type : TypeExpr) :
    (aliasLine quotes name type).exportedType? = some name := by
  refine exportedName?_eq_some "export type " (" = " ++ type.text quotes ++ ";").toList (by decide)
    usable ?_ ?_
  · simp only [TypeScript.aliasText, String.toList_append, List.append_assoc]
  · rw [String.toList_append, String.toList_append]
    rintro c ⟨⟩
    rfl

theorem exportedType?_declaration {declaration : Declaration}
    (usable : Usable declaration.name.toList) :
    (declaration.item quotes).exportedType? = some declaration.name := by
  unfold Declaration.item
  split
  · exact exportedName?_eq_some "export interface " [] (by decide) usable
      (by rw [String.toList_append, List.append_nil]) (by rintro c ⟨⟩)
  · refine exportedName?_eq_some "export type " " =".toList (by decide) usable ?_ ?_
    · simp only [String.toList_append, List.append_assoc]
    · rintro c ⟨⟩
      rfl
  · exact exportedType?_aliasLine quotes usable _

theorem exportedTypes_interfaceItems (usable : Usable name.toList)
    (methods : List MethodSignature) :
    exportedTypes (interfaceItems name methods) = [name] := by
  have header : exportedName? ("export interface " ++ name) = some name :=
    exportedName?_eq_some "export interface " [] (by decide) usable
      (by rw [String.toList_append, List.append_nil]) (by rintro c ⟨⟩)
  simp only [exportedTypes, interfaceItems, List.filterMap_cons, Item.exportedType?, header,
    List.filterMap_nil]

theorem exportedTypes_fullResponseItems :
    exportedTypes (fullResponseItems quotes) = ["FullResponse"] := rfl

theorem exportedTypes_map {α : Type} {items : List α} {item : α → Item} {name : α → String}
    (each : ∀ one ∈ items, (item one).exportedType? = some (name one)) :
    exportedTypes (items.map item) = items.map name := by
  unfold exportedTypes
  rw [List.filterMap_map, ← List.filterMap_eq_map]
  exact List.filterMap_congr each

theorem exportedTypes_codesItems :
    exportedTypes (StatusClass.all.map FetchClient.codesItem) =
      StatusClass.all.map StatusClass.typeName := by
  refine exportedTypes_map fun status _ => ?_
  refine exportedName?_eq_some "export type " (" = " ++
    Text.join " | " (status.codes.map fun code => toString code) ++ ";").toList (by decide) ?_ ?_ ?_
  · cases status <;> exact usable_of_all (by decide)
  · simp only [FetchClient.codesText, String.toList_append, List.append_assoc]
  · rw [String.toList_append, String.toList_append]
    rintro c ⟨⟩
    rfl

theorem exportedTypes_comment (text : Option String) :
    exportedTypes (Factory.comment text) = [] := by
  refine exportedTypes_eq_nil fun item member => ?_
  cases text with
  | none => cases member
  | some text =>
    obtain ⟨line, _, rfl⟩ := List.mem_map.mp member
    -- A comment does not begin like an export, whatever its line is.
    rw [Item.exportedType?, exportedName?, String.toList_append]
    rfl

theorem exportedTypes_import (names source : String) :
    exportedTypes [.line ("import \x7b " ++ names ++ " \x7d from " ++ source)] = [] := by
  refine exportedTypes_eq_nil fun item member => ?_
  rw [List.mem_singleton.mp member]
  simp only [Item.exportedType?, exportedName?, String.toList_append, List.append_assoc]
  rfl

theorem exportedTypes_build (promised : String) :
    exportedTypes [.blank,
      .block "type BuildOptions =" [.line "headers?: Record<string, string>;"] "",
      .line (FetchClient.buildText promised)] = [] := by
  refine exportedTypes_eq_nil fun item member => ?_
  simp only [List.mem_cons, List.not_mem_nil, or_false] at member
  rcases member with rfl | rfl | rfl
  · rfl
  · rfl
  · unfold FetchClient.buildText
    simp only [Item.exportedType?, exportedName?, String.toList_append, List.append_assoc]
    rfl

theorem exportedTypes_factory (client : ClientName) (promised : String) :
    exportedTypes (Factory.declaration client promised) = [] := by
  refine exportedTypes_eq_nil fun item member => ?_
  simp only [Factory.declaration, List.mem_cons, List.not_mem_nil, or_false] at member
  rcases member with rfl | rfl | rfl
  · rfl
  · simp only [Item.exportedType?, exportedName?, String.toList_append, List.append_assoc]
    rfl
  · simp only [Item.exportedType?, exportedName?, String.toList_append, List.append_assoc]
    rfl

end Items

end OpenApi

end TypedClient
