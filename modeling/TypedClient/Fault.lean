/-!
Why a client cannot be generated. Each fault is a cause; its kind and its wording
are derived from it.
-/

set_option autoImplicit false

namespace TypedClient

inductive NodeCategory where
  | openApiType
  | graphQlScalar
  | graphQlKind
  deriving DecidableEq, Repr

def NodeCategory.text : NodeCategory → String
  | .openApiType => "OpenAPI type"
  | .graphQlScalar => "GraphQL scalar"
  | .graphQlKind => "GraphQL kind"

inductive UrlFault where
  | noBase
  | emptyHost
  | invalidPort
  | invalidIpv4
  | invalidIpv6
  | invalidDomain
  | invalidDomainCharacter
  deriving DecidableEq, Repr

def UrlFault.text : UrlFault → String
  | .noBase => "relative URL without a base"
  | .emptyHost => "empty host"
  | .invalidPort => "invalid port number"
  | .invalidIpv4 => "invalid IPv4 address"
  | .invalidIpv6 => "invalid IPv6 address"
  | .invalidDomain => "invalid international domain name"
  | .invalidDomainCharacter => "invalid domain character"

inductive Fault where
  | unknownNode (category : NodeCategory) (name : String)
  | notAnObject
  | unrecognizedDocument
  | invalidDocument
  | invalidIntrospection
  | invalidDefinitions
  | unresolvedReference (reference : String)
  | undefinedType (name : String)
  | undefinedExtension (name : String)
  | missingWrapped (kind : String)
  | invalidModuleFormat (text : String)
  | invalidUrl (text : String) (reason : UrlFault)
  deriving DecidableEq, Repr

inductive FaultKind where
  | unknownType
  | malformedSchema
  | invalidConfiguration
  deriving DecidableEq, Repr

namespace Fault

def kind : Fault → FaultKind
  | unknownNode _ _ => .unknownType
  | invalidModuleFormat _ => .invalidConfiguration
  | invalidUrl _ _ => .invalidConfiguration
  | _ => .malformedSchema

def malformed (text : String) : String := "Malformed schema: " ++ text

def message : Fault → String
  | unknownNode category name => "Unknown " ++ category.text ++ " `" ++ name ++ "`"
  | notAnObject => malformed "expected a JSON object"
  | unrecognizedDocument =>
    malformed "neither an OpenAPI document nor a GraphQL introspection result"
  | invalidDocument => malformed "invalid OpenAPI document"
  | invalidIntrospection => malformed "invalid GraphQL introspection result"
  | invalidDefinitions => malformed "invalid GraphQL SDL"
  | unresolvedReference reference =>
    malformed ("unresolved reference `" ++ reference ++ "`")
  | undefinedType name => malformed ("undefined GraphQL type " ++ name)
  | undefinedExtension name => malformed ("extension of undefined type " ++ name)
  | missingWrapped kind => malformed (kind ++ " without ofType")
  | invalidModuleFormat text =>
    "Invalid module format: " ++ text ++ ". Valid values are 'esm' or 'cjs'"
  | invalidUrl text reason => "Invalid GraphQL url " ++ text ++ ": " ++ reason.text

end Fault

end TypedClient
