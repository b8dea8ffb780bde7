import TypedClient.Proofs.OpenApi.RequestAccess
import TypedClient.Proofs.TypeScript.TypeTree

/-! What a flat argument leaves for its body.

Parameters and the members of a spread body share one object. The code takes out whatever has the
name of a parameter, and the rest is the body. Names are compared as they are, so a member of the
body is lost if and only if a parameter has its very name.
-/

set_option autoImplicit false

namespace TypedClient.Script

structure Destructuring where
  /-- Members, each with the name that it is bound to. -/
  taken : List (String × String)
  rest : String
  source : List Token
  deriving DecidableEq, Repr

def pattern? : List Token → Option Destructuring
  | .mark '.' :: .mark '.' :: .mark '.' :: .word name :: .mark '\x7d' :: .mark '=' :: source =>
    some ⟨[], name, source⟩
  | .text member :: .mark ':' :: .word name :: .mark ',' :: tokens =>
    (pattern? tokens).map fun found => { found with taken := (member, name) :: found.taken }
  | _ => none

def destructuring? : List Token → Option Destructuring
  | .word "const" :: .mark '\x7b' :: tokens => pattern? tokens
  | _ => none

def defaulted? : List Token → Option String
  | [.word name, .mark '?', .mark '?', .mark '\x7b', .mark '\x7d', .lineEnd] => some name
  | .mark '(' :: .word name :: .mark '?' :: .mark '?' :: .mark '\x7b' :: .mark '\x7d' :: .mark ')' ::
      .word "as" :: _ => some name
  | _ => none

namespace Destructuring
variable {V : Type}

/-- No name is bound twice. The language has no meaning for a declaration that does so. -/
def Legal (declaration : Destructuring) : Prop :=
  (declaration.taken.map (·.2) ++ [declaration.rest]).Nodup

instance (declaration : Destructuring) : Decidable declaration.Legal :=
  inferInstanceAs (Decidable (List.Nodup _))

/-- The members that are kept, when the variable of the source holds an object with these. -/
def left? (declaration : Destructuring) (subject : String) (members : List (String × V)) :
    Option (List (String × V)) :=
  if declaration.Legal ∧ defaulted? declaration.source = some subject then
    some (members.filter fun member => !(declaration.taken.map (·.1)).contains member.1)
  else none

end Destructuring

end TypedClient.Script

namespace TypedClient.OpenApi

open FetchClient
open Script
open TypeScript (Declaration Field TypeExpr firstDeclared)

inductive HasProperty (declarations : List Declaration) : TypeExpr → String → Prop where
  | field {fields : List Field} {field : Field} : field ∈ fields →
      HasProperty declarations (.object fields) field.name
  | part {members : List TypeExpr} {member : TypeExpr} {name : String} : member ∈ members →
      HasProperty declarations member name → HasProperty declarations (.intersection members) name
  | interface {reference : String} {fields : List Field} {field : Field} :
      firstDeclared declarations reference = some (.interface fields) → field ∈ fields →
      HasProperty declarations (.reference reference) field.name
  | through {reference : String} {type : TypeExpr} {name : String} :
      firstDeclared declarations reference = some (.alias type) →
      HasProperty declarations type name → HasProperty declarations (.reference reference) name

section Spread
variable {dialect : Dialect} {model : OperationModel} {V : Type}

def Operation.callerNames (operation : Operation) : List String :=
  (operation.parameters.filter (·.location != .cookie)).map (·.name)

theorem Operation.mem_callerNames {operation : Operation} {name : String} :
    name ∈ operation.callerNames ↔
      ∃ parameter ∈ operation.parameters, parameter.location ≠ .cookie ∧ parameter.name = name := by
  simp [callerNames, and_assoc]

theorem mem_members_parameterBindings {operation : Operation} {name : String} :
    name ∈ (parameterBindings operation).map (·.member) ↔ name ∈ operation.callerNames := by
  simp [parameterBindings, Operation.callerNames, List.mem_eraseDups]

theorem pattern?_bindings (bindings : List Binding) (name : String) (source : List Token) :
    pattern? (bindings.flatMap Binding.tokens ++ .mark '.' :: .mark '.' :: .mark '.' :: .word name ::
      .mark '\x7d' :: .mark '=' :: source) =
      some ⟨bindings.map fun binding => (binding.member, binding.name), name, source⟩ := by
  induction bindings with
  | nil => rfl
  | cons binding rest ih =>
    simp [Binding.tokens, pattern?, ih]

def spreadDeclaration (dialect : Dialect) (model : OperationModel) : Destructuring :=
  ⟨(parameterBindings model.operation).map fun binding => (binding.member, binding.name), "body",
    spreadSource dialect model ++ [.lineEnd]⟩

theorem destructuring?_spreadTokens :
    destructuring? (spreadTokens dialect model ++ [.lineEnd]) =
      some (spreadDeclaration dialect model) := by
  have found := pattern?_bindings (parameterBindings model.operation) "body"
    (spreadSource dialect model ++ [.lineEnd])
  simpa [destructuring?, spreadTokens, spreadDeclaration] using found

theorem legal_spreadDeclaration
    (distinct : ((parameterBindings model.operation).map (·.name)).Nodup) :
    (spreadDeclaration dialect model).Legal := by
  have other : "body" ∉ (parameterBindings model.operation).map (·.name) := by
    intro member
    obtain ⟨binding, listed, same⟩ := List.mem_map.mp member
    obtain ⟨name, _, rfl⟩ := List.mem_map.mp listed
    exact privateName_ne "body" (by decide) (Text.toIdentifier name) same
  have names : (spreadDeclaration dialect model).taken.map (·.2) =
      (parameterBindings model.operation).map (·.name) := by
    simp [spreadDeclaration, Function.comp_def]
  unfold Destructuring.Legal
  rw [names]
  exact List.nodup_append'.mpr
    ⟨distinct, List.nodup_singleton _, List.disjoint_singleton.mpr other⟩

theorem defaulted?_spreadSource (dialect : Dialect) (model : OperationModel) :
    defaulted? (spreadSource dialect model ++ [.lineEnd]) = some "request" := by
  unfold spreadSource
  split <;> rfl

/-- What is left of an argument is what has no parameter's name. -/
theorem left?_spreadDeclaration
    (distinct : ((parameterBindings model.operation).map (·.name)).Nodup)
    (request : List (String × V)) :
    (spreadDeclaration dialect model).left? "request" request =
      some (request.filter fun entry => !model.operation.callerNames.contains entry.1) := by
  have names : ∀ name, (((spreadDeclaration dialect model).taken.map (·.1)).contains name) =
      model.operation.callerNames.contains name := by
    intro name
    have members : (spreadDeclaration dialect model).taken.map (·.1) =
        (parameterBindings model.operation).map (·.member) := by
      simp [spreadDeclaration, Function.comp_def]
    rw [members, Bool.eq_iff_iff, List.contains_iff_mem, List.contains_iff_mem]
    exact mem_members_parameterBindings
  have runs : (spreadDeclaration dialect model).Legal ∧
      defaulted? (spreadDeclaration dialect model).source = some "request" :=
    ⟨legal_spreadDeclaration distinct, defaulted?_spreadSource dialect model⟩
  unfold Destructuring.left?
  rw [if_pos runs]
  simp only [names]

theorem mem_operationBody {body : BodyShape} (given : model.request.body = some body)
    (spread : body.spread = true) :
    spreadBodyLine dialect model ∈ operationBody dialect model := by
  simp [operationBody, bodyItems, given, spread]

end Spread

section Model
variable {document : Document} {settings : Settings} {reserved : List String} {model : ClientModel}
  {operation : OperationModel} {body : BodyShape} {V : Type}

/-- Of a flat argument the statement leaves the members without a parameter's name, and among them
all that are properties of the body. -/
theorem spread_keeps (built : ClientModel.build document settings reserved = .ok model)
    (member : operation ∈ model.operations) (given : operation.request.body = some body)
    (spread : body.spread = true)
    (distinct : ((parameterBindings operation.operation).map (·.name)).Nodup)
    (request : List (String × V)) :
    spreadBodyLine (Dialect.ofSettings settings) operation ∈
        operationBody (Dialect.ofSettings settings) operation ∧
      ∃ tokens declaration left,
        Item.tokensOf? [spreadBodyLine (Dialect.ofSettings settings) operation] = some tokens ∧
        destructuring? tokens = some declaration ∧ declaration.rest = "body" ∧
        declaration.left? "request" request = some left ∧
        left = request.filter (fun entry => !operation.operation.callerNames.contains entry.1) ∧
        ∀ entry ∈ request, HasProperty model.declarations body.type entry.1 →
          (∀ parameter ∈ operation.operation.parameters, parameter.location ≠ .cookie →
            parameter.name ≠ entry.1) → entry ∈ left := by
  have named := (regular_of_build built operation member).named
  refine ⟨mem_operationBody given spread, _, _, _,
    tokensOf?_spreadBodyLine (Dialect.ofSettings settings) operation named.request,
    destructuring?_spreadTokens, rfl, left?_spreadDeclaration distinct request, rfl, ?_⟩
  intro entry inside _ free
  apply List.mem_filter.mpr
  refine ⟨inside, ?_⟩
  have absent : entry.1 ∉ operation.operation.callerNames := by
    intro listed
    obtain ⟨parameter, known, caller, same⟩ := Operation.mem_callerNames.mp listed
    exact free parameter known caller same
  simpa using absent

/-- The body of the shelf's operation has two properties, one of them with the name of parameters. -/
theorem shelf_operation :
    ∃ model operation body,
      ClientModel.build shelfDocument (flatSettings "shelf") FetchClient.reservedIds = .ok model ∧
      operation ∈ model.operations ∧ operation.request.body = some body ∧ body.spread = true ∧
      ((parameterBindings operation.operation).map (·.name)).Nodup ∧
      operation.operation.callerNames = ["id", "id"] ∧
      HasProperty model.declarations body.type "id" ∧
      HasProperty model.declarations body.type "label" := by
  refine ⟨_, _, _, rfl, List.mem_cons_self, rfl, rfl, by decide +kernel, rfl, ?_, ?_⟩
  · exact @HasProperty.interface _ "Shelf" _ ⟨"id", .string, true⟩ rfl List.mem_cons_self
  · exact @HasProperty.interface _ "Shelf" _ ⟨"label", .string, true⟩ rfl
      (List.mem_cons_of_mem _ List.mem_cons_self)

def shelfRequest : List (String × Nat) := [("id", 1), ("label", 2)]

theorem shelf_keeps_label :
    ∃ model operation body tokens declaration left,
      ClientModel.build shelfDocument (flatSettings "shelf") FetchClient.reservedIds = .ok model ∧
      operation ∈ model.operations ∧ operation.request.body = some body ∧ body.spread = true ∧
      ((parameterBindings operation.operation).map (·.name)).Nodup ∧
      Item.tokensOf? [spreadBodyLine (Dialect.ofSettings (flatSettings "shelf")) operation] =
        some tokens ∧
      destructuring? tokens = some declaration ∧
      declaration.left? "request" shelfRequest = some left ∧
      HasProperty model.declarations body.type "label" ∧ ("label", 2) ∈ left := by
  obtain ⟨model, operation, body, built, member, given, spread, distinct, names, _, label⟩ :=
    shelf_operation
  obtain ⟨_, tokens, declaration, left, found, read, _, kept, _, keeps⟩ :=
    spread_keeps built member given spread distinct shelfRequest
  have free : ∀ parameter ∈ operation.operation.parameters, parameter.location ≠ .cookie →
      parameter.name ≠ "label" := by
    intro parameter known caller same
    have listed := Operation.mem_callerNames.mpr ⟨parameter, known, caller, same⟩
    rw [names] at listed
    exact absurd listed (by decide)
  exact ⟨model, operation, body, tokens, declaration, left, built, member, given, spread, distinct,
    found, read, kept, label, keeps ("label", 2) (by decide) label free⟩

/-- A property of the body is lost when a parameter has its name. -/
theorem shelf_loses_id :
    ∃ model operation body tokens declaration,
      ClientModel.build shelfDocument (flatSettings "shelf") FetchClient.reservedIds = .ok model ∧
      operation ∈ model.operations ∧ operation.request.body = some body ∧ body.spread = true ∧
      spreadBodyLine (Dialect.ofSettings (flatSettings "shelf")) operation ∈
        operationBody (Dialect.ofSettings (flatSettings "shelf")) operation ∧
      Item.tokensOf? [spreadBodyLine (Dialect.ofSettings (flatSettings "shelf")) operation] =
        some tokens ∧
      destructuring? tokens = some declaration ∧
      HasProperty model.declarations body.type "id" ∧
      declaration.left? "request" shelfRequest = some [("label", 2)] := by
  obtain ⟨model, operation, body, built, member, given, spread, distinct, names, id, _⟩ :=
    shelf_operation
  have named := (regular_of_build built operation member).named
  have left := @left?_spreadDeclaration (Dialect.ofSettings (flatSettings "shelf")) operation Nat
    distinct shelfRequest
  rw [names] at left
  exact ⟨model, operation, body, _, _, built, member, given, spread, mem_operationBody given spread,
    tokensOf?_spreadBodyLine _ operation named.request, destructuring?_spreadTokens, id, left⟩

end Model

end TypedClient.OpenApi
