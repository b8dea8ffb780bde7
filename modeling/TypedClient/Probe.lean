import TypedClient.Json.Reader
import TypedClient.ServiceSchema
import TypedClient.Yaml.Reader

/-!
Where the schema of a service is looked for: the addresses at which a running service may offer it,
and texts of documents, which are JSON or else YAML.
-/

set_option autoImplicit false

namespace TypedClient

structure Candidate where
  kind : SchemaKind
  url : String
  deriving DecidableEq, Repr

namespace Candidate

def all (base : String) : List Candidate :=
  [⟨.openApi, base ++ "/documentation/json"⟩, ⟨.graphQl, base ++ "/graphql"⟩,
   ⟨.openApi, base⟩, ⟨.graphQl, base⟩]

def wanted (base : String) (kind : Option SchemaKind) : List Candidate :=
  (all base).filter fun candidate => kind.all (· == candidate.kind)

end Candidate

inductive Notation where
  | json
  | yaml
  deriving DecidableEq, Repr

def Notation.text : Notation → String
  | json => "JSON"
  | yaml => "YAML"

namespace SourceText

/-- The value of a text and how it is written; none if it is neither. -/
def decode? (text : String) : Option (Notation × Json.Value) :=
  match Json.read? text with
  | some value => some (.json, value)
  | none => (Yaml.read? text).map fun value => (.yaml, value)

def undecodable : String :=
  "Cannot parse schema. Please make sure it is a JSON or a YAML file"

end SourceText

end TypedClient
