import TypedClient.Arguments
import TypedClient.Text.Pieces

/-!
The options of the command line: how they are written, whether they take a value, and what a
value means.
-/

set_option autoImplicit false

namespace TypedClient

inductive UsageFault where
  | unknownArgument
  | invalidValue
  | invalidNumber
  | missingSource
  | needlessValue
  | repeated
  | helpWanted
  | versionWanted
  deriving DecidableEq, Repr

def UsageFault.message : UsageFault → String
  | unknownArgument => "unexpected argument"
  | invalidValue => "invalid value"
  | invalidNumber => "invalid number"
  | missingSource => "the source is missing"
  | needlessValue => "value for an option that takes none"
  | repeated => "option given more than once"
  | helpWanted => "usage: typed-client [options] <source>"
  | versionWanted => "typed-client"

inductive Switch where
  | name
  | folder
  | schemaKind
  | full
  | fullRequest
  | fullResponse
  | optionalHeaders
  | validateResponse
  | propsOptional
  | frontend
  | language
  | withCredentials
  | typesOnly
  | typesComment
  | urlAuthHeaders
  | retryTimeout
  | moduleFormat
  | typeExtension
  | help
  | version
  deriving DecidableEq, Repr

namespace Switch

def all : List Switch :=
  [name, folder, schemaKind, full, fullRequest, fullResponse, optionalHeaders, validateResponse,
   propsOptional, frontend, language, withCredentials, typesOnly, typesComment, urlAuthHeaders,
   retryTimeout, moduleFormat, typeExtension, help, version]

def word : Switch → String
  | name => "name"
  | folder => "folder"
  | schemaKind => "type"
  | full => "full"
  | fullRequest => "full-request"
  | fullResponse => "full-response"
  | optionalHeaders => "optional-headers"
  | validateResponse => "validate-response"
  | propsOptional => "props-optional"
  | frontend => "frontend"
  | language => "language"
  | withCredentials => "with-credentials"
  | typesOnly => "types-only"
  | typesComment => "types-comment"
  | urlAuthHeaders => "url-auth-headers"
  | retryTimeout => "retry-timeout-ms"
  | moduleFormat => "module"
  | typeExtension => "type-extension"
  | help => "help"
  | version => "version"

def letter? : Switch → Option Char
  | name => some 'n'
  | folder => some 'f'
  | full => some 'F'
  | help => some 'h'
  | version => some 'V'
  | _ => none

def ofWord? (word : String) : Option Switch := all.find? fun switch => switch.word = word

def ofLetter? (letter : Char) : Option Switch :=
  all.find? fun switch => switch.letter? = some letter

inductive Demand where
  | never
  | optional (assumed : String)
  | always
  deriving DecidableEq, Repr

def demand : Switch → Demand
  | name | folder | schemaKind | optionalHeaders | language | typesComment | urlAuthHeaders
  | retryTimeout | moduleFormat => .always
  | full | propsOptional => .optional "true"
  | fullRequest | fullResponse | validateResponse | frontend | withCredentials | typesOnly
  | typeExtension | help | version => .never

def takesValue (switch : Switch) : Bool := switch.demand ≠ .never

def value? (switch : Switch) (given : Option String) : Option String :=
  match given, switch.demand with
  | some value, _ => some value
  | none, .never => some "true"
  | none, .optional assumed => some assumed
  | none, .always => none

def readBool : String → Except UsageFault Bool
  | "true" => .ok true
  | "false" => .ok false
  | _ => .error .invalidValue

def readKind : String → Except UsageFault SchemaKind
  | "openapi" => .ok .openApi
  | "graphql" => .ok .graphQl
  | _ => .error .invalidValue

def readLanguage : String → Except UsageFault Language
  | "js" => .ok .javaScript
  | "ts" => .ok .typeScript
  | _ => .error .invalidValue

def readPath (text : String) : Except UsageFault String :=
  if text = "" then .error .invalidValue else .ok text

/-- A number of 64 bits, which may have a plus sign. -/
def readNumber (text : String) : Except UsageFault Nat :=
  let digits := match text.toList with
    | '+' :: digits => digits
    | digits => digits
  match Text.natural? digits with
  | some number => if number < 0x10000000000000000 then .ok number else .error .invalidNumber
  | none => .error .invalidNumber

def assign (arguments : Arguments) (value : String) : Switch → Except UsageFault Arguments
  | name => .ok { arguments with name := some value }
  | folder => do return { arguments with folder := some (← readPath value) }
  | schemaKind => do return { arguments with schemaKind := some (← readKind value) }
  | full => do return { arguments with full := ← readBool value }
  | fullRequest => do return { arguments with fullRequest := ← readBool value }
  | fullResponse => do return { arguments with fullResponse := ← readBool value }
  | optionalHeaders => .ok { arguments with optionalHeaders := some value }
  | validateResponse => do return { arguments with validateResponse := ← readBool value }
  | propsOptional => do return { arguments with propsOptional := ← readBool value }
  | frontend => do return { arguments with frontend := ← readBool value }
  | language => do return { arguments with language := ← readLanguage value }
  | withCredentials => do return { arguments with withCredentials := ← readBool value }
  | typesOnly => do return { arguments with typesOnly := ← readBool value }
  | typesComment => .ok { arguments with typesComment := some value }
  | urlAuthHeaders => .ok { arguments with urlAuthHeaders := some value }
  | retryTimeout => do return { arguments with retryTimeout := some (← readNumber value) }
  | moduleFormat => .ok { arguments with moduleFormat := some value }
  | typeExtension => do return { arguments with typeExtension := ← readBool value }
  | help => .error .helpWanted
  | version => .error .versionWanted

end Switch

end TypedClient
