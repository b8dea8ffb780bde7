import TypedClient.GraphQl.Introspection
import TypedClient.Json.Record

/-!
GraphQL schemas out of JSON values, in the shape of introspection results.
-/

set_option autoImplicit false

namespace TypedClient.GraphQl

open Json (Decoder Fields Value)

def TypeRef.decoderWithin : Nat → Decoder TypeRef
  | 0 => fun _ => none
  | depth + 1 => .record do
    let kind ← Fields.required "kind" (.word TypeKind.ofWord?)
    let name ← Fields.optional "name" .string
    match ← Fields.optional "ofType" (TypeRef.decoderWithin depth) with
    | none => return .leaf kind name
    | some inner => return .wrapper kind name inner

/-- A reference has no more layers than the value that holds it. -/
def TypeRef.decoder : Decoder TypeRef := fun value =>
  TypeRef.decoderWithin (value.depth + 1) value

def InputValue.decoder : Decoder InputValue := .record do
  let name ← Fields.required "name" .string
  let description ← Fields.optional "description" .string
  let type ← Fields.required "type" TypeRef.decoder
  let default ← Fields.optional "defaultValue" .string
  return { name, description, type, default }

def Field.decoder : Decoder Field := .record do
  let name ← Fields.required "name" .string
  let description ← Fields.optional "description" .string
  let arguments ← Fields.defaulted "args" [] (.list InputValue.decoder)
  let type ← Fields.required "type" TypeRef.decoder
  let deprecated ← Fields.defaulted "isDeprecated" false .bool
  let reason ← Fields.optional "deprecationReason" .string
  return { name, description, arguments, type, deprecated, reason }

def EnumValue.decoder : Decoder EnumValue := .record do
  let name ← Fields.required "name" .string
  let description ← Fields.optional "description" .string
  let deprecated ← Fields.defaulted "isDeprecated" false .bool
  let reason ← Fields.optional "deprecationReason" .string
  return { name, description, deprecated, reason }

def NamedType.decoder : Decoder NamedType := .record do
  let kind ← Fields.required "kind" (.word TypeKind.ofWord?)
  let name ← Fields.required "name" .string
  let description ← Fields.optional "description" .string
  let fields ← Fields.optional "fields" (.list Field.decoder)
  let inputFields ← Fields.optional "inputFields" (.list InputValue.decoder)
  let interfaces ← Fields.optional "interfaces" (.list TypeRef.decoder)
  let enumValues ← Fields.optional "enumValues" (.list EnumValue.decoder)
  let possibleTypes ← Fields.optional "possibleTypes" (.list TypeRef.decoder)
  return { kind, name, description, fields, inputFields, interfaces, enumValues, possibleTypes }

def rootDecoder : Decoder String := .record (Fields.required "name" .string)

def Schema.decoder : Decoder Schema := .record do
  let queryType ← Fields.optional "queryType" rootDecoder
  let mutationType ← Fields.optional "mutationType" rootDecoder
  let subscriptionType ← Fields.optional "subscriptionType" rootDecoder
  let types ← Fields.defaulted "types" [] (.list NamedType.decoder)
  return { queryType, mutationType, subscriptionType, types }

end TypedClient.GraphQl
