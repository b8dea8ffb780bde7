import TypedClient.Fault
import TypedClient.OpenApi.Document
import TypedClient.Text.Pieces

/-!
References to the components of a document. Behind its section a reference holds the
component's name, in which a slash is written `~1` and a tilde `~0`.
-/

set_option autoImplicit false

namespace TypedClient.OpenApi

def unescapeName : List Char → List Char
  | [] => []
  | '~' :: '1' :: rest => '/' :: unescapeName rest
  | '~' :: '0' :: rest => '~' :: unescapeName rest
  | c :: rest => c :: unescapeName rest

def nameIn? (place reference : String) : Option String :=
  (Text.dropLead? place.toList reference.toList).map fun name =>
    String.ofList (unescapeName name)

def schemasSection : String := "#/components/schemas/"

def definitionsSection : String := "#/definitions/"

def Document.schemaAt? (document : Document) (reference : String) : Option Schema :=
  match nameIn? schemasSection reference with
  | some name => document.components.schemas.lookup name
  | none => match nameIn? definitionsSection reference with
    | some name => document.definitions.lookup name
    | none => none

def Document.schemaAt (document : Document) (reference : String) : Except Fault Schema :=
  match document.schemaAt? reference with
  | some schema => .ok schema
  | none => .error (.unresolvedReference reference)

def RefOr.resolve {α : Type} (table : List (String × α)) (place : String) :
    RefOr α → Except Fault α
  | .item value => .ok value
  | .reference target =>
    match (nameIn? place target).bind fun name => table.lookup name with
    | some value => .ok value
    | none => .error (.unresolvedReference target)

def parametersSection : String := "#/components/parameters/"

def requestBodiesSection : String := "#/components/requestBodies/"

def responsesSection : String := "#/components/responses/"

def referenceName (reference : String) : String :=
  let segments := Text.splitAt (· == '/') reference.toList
  String.ofList (unescapeName (segments.getLast?.getD []))

end TypedClient.OpenApi
