import TypedClient.Json.Record
import TypedClient.OpenApi.Document

/-!
OpenAPI documents out of JSON values. Every modelled field must fit, used or not.
-/

set_option autoImplicit false

namespace TypedClient.OpenApi

open Json (Decoder Fields Value)

def TypeNames.decoder : Decoder TypeNames :=
  (Decoder.string.map .one).orElse ((Decoder.list .string).map .several)

def Schema.decoderWithin : Nat → Decoder Schema
  | 0 => fun _ => none
  | depth + 1 =>
    let schema := Schema.decoderWithin depth
    let extra : Decoder (ExtraProperties Schema) :=
      (Decoder.bool.map .anyValue).orElse (schema.map .each)
    .record do
      let types ← Fields.optional "type" TypeNames.decoder
      let reference ← Fields.optional "$ref" .string
      let properties ← Fields.optional "properties" (.table schema)
      let required ← Fields.defaulted "required" [] (.list .string)
      let items ← Fields.optional "items" schema
      let enumeration ← Fields.optional "enum" (.list .any)
      let anyOf ← Fields.optional "anyOf" (.list schema)
      let oneOf ← Fields.optional "oneOf" (.list schema)
      let allOf ← Fields.optional "allOf" (.list schema)
      let extra ← Fields.optional "additionalProperties" extra
      -- No type depends on the format, but it has to be a text.
      let _ ← Fields.optional "format" .string
      let constant ← Fields.optional "const" .any
      let nullable ← Fields.optional "nullable" .bool
      match reference with
      | some target => return .reference target
      | none =>
        return .keywords
          { types, properties, required, items, enumeration, anyOf, oneOf, allOf, extra, constant
            nullable := nullable.getD false }

/-- A schema is never nested deeper than the value that holds it. -/
def Schema.decoder : Decoder Schema := fun value =>
  Schema.decoderWithin (value.depth + 1) value

/-- A reference if there is a reference text, else the object itself. References have names for
their members, so an array is never one. -/
def RefOr.decoder {α : Type} (item : Decoder α) : Decoder (RefOr α) :=
  (Decoder.map .reference (.namedRecord (Fields.required "$ref" .string))).orElse (item.map .item)

def Parameter.decoder : Decoder Parameter := .record do
  let name ← Fields.required "name" .string
  let location ← Fields.required "in" (.word Location.ofWord?)
  let required ← Fields.defaulted "required" false .bool
  let schema ← Fields.optional "schema" Schema.decoder
  return { name, location, required, schema }

def Content.decoder : Decoder Content :=
  .table (.record (Fields.optional "schema" Schema.decoder))

def RequestBody.decoder : Decoder RequestBody := .record do
  let required ← Fields.defaulted "required" false .bool
  let content ← Fields.defaulted "content" [] Content.decoder
  return { required, content }

def Response.decoder : Decoder Response := .record do
  let description ← Fields.optional "description" .string
  let content ← Fields.defaulted "content" [] Content.decoder
  let schema ← Fields.optional "schema" Schema.decoder
  return { description, content, schema }

def PathOperation.decoder (method : Method) : Decoder PathOperation := .record do
  let operationId ← Fields.optional "operationId" .string
  let _ ← Fields.optional "summary" .string
  let parameters ← Fields.defaulted "parameters" [] (.list (RefOr.decoder Parameter.decoder))
  let requestBody ← Fields.optional "requestBody" (RefOr.decoder RequestBody.decoder)
  let responses ← Fields.defaulted "responses" [] (.table (RefOr.decoder Response.decoder))
  return { method, operationId, parameters, requestBody, responses }

def PathItem.operations? (members : Json.Members) : Option (List PathOperation) :=
  (members.filterMap fun (key, value) =>
    (Method.ofKey? key).map fun method => (method, value)).mapM fun (method, value) =>
      PathOperation.decoder method value

def PathItem.decoder : Decoder PathItem
  | .object members => do
    let parameters ← Decoder.namedRecord
      (Fields.defaulted "parameters" [] (.list (RefOr.decoder Parameter.decoder))) (.object members)
    let operations ← PathItem.operations? members
    return { parameters, operations }
  | _ => none

def Components.decoder : Decoder Components := .record do
  let schemas ← Fields.defaulted "schemas" [] (.table Schema.decoder)
  let parameters ← Fields.defaulted "parameters" [] (.table Parameter.decoder)
  let requestBodies ← Fields.defaulted "requestBodies" [] (.table RequestBody.decoder)
  let responses ← Fields.defaulted "responses" [] (.table Response.decoder)
  return { schemas, parameters, requestBodies, responses }

def Document.decoder : Decoder Document := .record do
  let _ ← Fields.optionalTrailing "openapi" .string
  let _ ← Fields.optionalTrailing "swagger" .string
  let paths ← Fields.defaulted "paths" [] (.table PathItem.decoder)
  let components ← Fields.defaulted "components" Components.empty Components.decoder
  let definitions ← Fields.defaulted "definitions" [] (.table Schema.decoder)
  return { paths, components, definitions }

end TypedClient.OpenApi
