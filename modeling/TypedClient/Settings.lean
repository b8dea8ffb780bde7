import TypedClient.ModuleFormat

/-!
What a run is asked for, and the two texts that it produces.
-/

set_option autoImplicit false

namespace TypedClient

inductive Language where
  | javaScript
  | typeScript
  deriving DecidableEq, Repr

def Language.implementationText : Language → String
  | .javaScript => "mjs"
  | .typeScript => "mts"

structure Settings where
  name : String
  /-- Group request parameters by location instead of flattening them. -/
  fullRequest : Bool
  /-- Wrap responses with their status code and headers. -/
  fullResponse : Bool
  /-- Header parameters that callers may always leave out. -/
  optionalHeaders : List String
  validateResponse : Bool
  /-- Take every object property as optional, whatever the schema requires. -/
  propsOptional : Bool
  moduleFormat : ModuleFormat
  /-- A stand-alone fetch client instead of one on the service package. -/
  isFrontend : Bool
  language : Language
  withCredentials : Bool
  typesComment : Option String
  typeExtension : TypeExtension
  graphQlUrl : Option String
  deriving DecidableEq, Repr

def Settings.standard (name : String) : Settings where
  name := name
  fullRequest := true
  fullResponse := true
  optionalHeaders := []
  validateResponse := false
  propsOptional := true
  moduleFormat := .esm
  isFrontend := false
  language := .javaScript
  withCredentials := false
  typesComment := none
  typeExtension := .dts
  graphQlUrl := none

structure Artifact where
  types : String
  implementation : String
  deriving DecidableEq, Repr

end TypedClient
