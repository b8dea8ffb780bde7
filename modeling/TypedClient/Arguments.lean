import TypedClient.ServiceSchema
import TypedClient.Settings
import TypedClient.Text.Pieces

/-!
What a command line asks for.
-/

set_option autoImplicit false

namespace TypedClient

structure Arguments where
  /-- The address of a running service, or the path of a schema. -/
  source : String
  name : Option String
  /-- The output folder, which is named for the client if none is given. -/
  folder : Option String
  /-- The only kind of schema to look for at a running service. -/
  schemaKind : Option SchemaKind
  /-- Both full requests and full responses. -/
  full : Bool
  fullRequest : Bool
  fullResponse : Bool
  /-- Names of headers, with commas between them. -/
  optionalHeaders : Option String
  validateResponse : Bool
  propsOptional : Bool
  frontend : Bool
  language : Language
  withCredentials : Bool
  typesOnly : Bool
  typesComment : Option String
  urlAuthHeaders : Option String
  retryTimeout : Option Nat
  moduleFormat : Option String
  /-- Fix the module format in the extension of the declaration file. -/
  typeExtension : Bool
  deriving DecidableEq, Repr

namespace Arguments

def ofSource (source : String) : Arguments where
  source := source
  name := none
  folder := none
  schemaKind := none
  full := true
  fullRequest := false
  fullResponse := false
  optionalHeaders := none
  validateResponse := false
  propsOptional := true
  frontend := false
  language := .javaScript
  withCredentials := false
  typesOnly := false
  typesComment := none
  urlAuthHeaders := none
  retryTimeout := none
  moduleFormat := none
  typeExtension := false

def clientName (arguments : Arguments) : String :=
  arguments.name.getD (if arguments.frontend then "api" else "client")

def headerNames (arguments : Arguments) : List String :=
  match arguments.optionalHeaders with
  | none => []
  | some text => ((Text.splitOn ',' text).map Text.trim).filter (· ≠ "")

def settings (arguments : Arguments) (format : ModuleFormat) (extension : TypeExtension) :
    Settings where
  name := arguments.clientName
  fullRequest := arguments.full || arguments.fullRequest
  fullResponse := arguments.full || arguments.fullResponse
  optionalHeaders := arguments.headerNames
  validateResponse := arguments.validateResponse
  propsOptional := arguments.propsOptional
  moduleFormat := format
  isFrontend := arguments.frontend
  language := arguments.language
  withCredentials := arguments.withCredentials
  typesComment := arguments.typesComment
  typeExtension := extension
  graphQlUrl := none

end Arguments

end TypedClient
