import TypedClient.Bundle
import TypedClient.Proofs.Lists

/-! The pages that a client is generated as.

There are three flavours, and two pages in each: one with the declarations and one with the
implementation.
-/

set_option autoImplicit false

namespace TypedClient

variable {settings : Settings} {schema : ServiceSchema} {artifact : Artifact}

inductive ClientPages (settings : Settings) : ServiceSchema → List Step → List Step → Prop where
  | service {document : OpenApi.Document} {model : OpenApi.ClientModel} :
      settings.isFrontend = false → OpenApi.ClientModel.build document settings [] = .ok model →
      ClientPages settings (.openApi document)
        (OpenApi.ServiceClient.typeSteps settings (.ofText settings.name) model)
        (OpenApi.ServiceClient.implementationSteps settings (.ofText settings.name))
  | fetch {document : OpenApi.Document} {model : OpenApi.ClientModel} :
      settings.isFrontend = true →
      OpenApi.ClientModel.build document settings OpenApi.FetchClient.reservedIds = .ok model →
      ClientPages settings (.openApi document)
        (OpenApi.FetchClient.typeSteps settings (.ofText settings.name) model)
        (OpenApi.FetchClient.implementationSteps settings (.ofText settings.name) model)
  | graphQl {schema : GraphQl.Schema} {declarations : List TypeScript.Declaration} {path : String} :
      Url.pathOf (settings.graphQlUrl.getD GraphQl.ServiceClient.standardUrl) = .ok path →
      schema.declarations = .ok declarations →
      ClientPages settings (.graphQl schema)
        (GraphQl.ServiceClient.typeSteps settings (.ofText settings.name) declarations)
        (GraphQl.ServiceClient.implementationSteps settings (.ofText settings.name) path)

theorem exists_pages_of_generate (generated : generate schema settings = .ok artifact) :
    ∃ types implementation, ClientPages settings schema types implementation ∧
      artifact = ⟨Page.render Style.standard types, Page.render Style.standard implementation⟩ := by
  cases schema with
  | openApi document =>
    unfold generate at generated
    cases frontend : settings.isFrontend with
    | true =>
      simp only [frontend, if_true] at generated
      obtain ⟨model, built, given⟩ := bind_eq_ok_iff.mp generated
      exact ⟨_, _, .fetch frontend built, (Except.ok.inj given).symm⟩
    | false =>
      simp only [frontend, Bool.false_eq_true, if_false] at generated
      obtain ⟨model, built, given⟩ := bind_eq_ok_iff.mp generated
      exact ⟨_, _, .service frontend built, (Except.ok.inj given).symm⟩
  | graphQl schema =>
    unfold generate GraphQl.ServiceClient.generate at generated
    cases found : Url.pathOf (settings.graphQlUrl.getD GraphQl.ServiceClient.standardUrl) with
    | error reason =>
      simp only [found] at generated
      cases generated
    | ok path =>
      simp only [found] at generated
      obtain ⟨_, passed, generated⟩ := bind_eq_ok_iff.mp generated
      cases passed
      obtain ⟨declarations, mapped, given⟩ := bind_eq_ok_iff.mp generated
      exact ⟨_, _, .graphQl found mapped, (Except.ok.inj given).symm⟩

end TypedClient
