import Mathlib.Data.List.Nodup
import TypedClient.Proofs.ClientPages
import TypedClient.Proofs.OpenApi.FetchStatements
import TypedClient.Proofs.Runs.Again
import TypedClient.Proofs.ServiceModules

/-! What the files of a client say of each other.

A manifest names the declarations and the implementation, the module of a client on the service
package names the copy of the schema, and a TypeScript module imports the declarations. Each of
these names is put together on its own. All of them are read back from the contents, and a file of
that name is planned too.
-/

set_option autoImplicit false

namespace TypedClient

open Script

def firstLine (text : String) : String := String.ofList (text.toList.takeWhile (· ≠ '\n'))

theorem firstLine_render {text : String} (single : OneLine text) (rest : List Item) :
    firstLine (Item.render Style.standard (.line text :: rest)) = text := by
  obtain ⟨more, begins⟩ := Item.exists_toList_render single rest
  have kept : ∀ c ∈ text.toList, decide (c ≠ '\n') = true :=
    fun c inside => decide_eq_true (ne_of_mem_of_not_mem inside single)
  unfold firstLine
  rw [begins, List.takeWhile_append_of_pos kept, List.takeWhile_cons_of_neg (by simp),
    List.append_nil, String.ofList_toList]

def typesImport? (text : String) : Option String :=
  match tokens? (firstLine text) with
  | some [.word "import", .word "type", .mark '*', .word "as", .word "Types", .word "from",
      .text source] => some source
  | _ => none

def Manifest.member? (key contents : String) : Option Json.Value :=
  (Json.read? contents).bind (·.get? key)

namespace Bundle
variable {schema : ServiceSchema} {document : Json.Value} {artifact : Artifact}
  {settings : Settings} {typesOnly : Bool} {file : PlannedFile}

def implementationName (schema : ServiceSchema) (settings : Settings) : String :=
  settings.name ++ "." ++ implementationExtension schema settings

/-- The files have different names, and name each other only. -/
structure Closed (schema : ServiceSchema) (settings : Settings) (files : List PlannedFile) :
    Prop where
  distinct : (files.map (·.name)).Nodup
  /-- A manifest always names the declarations. -/
  types : ∀ file ∈ files, file.name = Manifest.fileName → ∃ name,
    Manifest.member? "types" file.contents = some (.string ("./" ++ name)) ∧
      name ∈ files.map (·.name)
  main : ∀ file ∈ files, file.name = Manifest.fileName →
    ∀ value, Manifest.member? "main" file.contents = some value → ∃ name,
      value = .string ("./" ++ name) ∧ name ∈ files.map (·.name)
  /-- An implementation on the service package names one file. -/
  copy : isFetchClient schema settings.isFrontend = false →
    ∀ file ∈ files, file.name = implementationName schema settings → ∃ name,
      siblingFiles? file.contents = some [name] ∧ name ∈ files.map (·.name)
  /-- An import names the module that the declarations are of. -/
  declarations : isFetchClient schema settings.isFrontend = true →
    settings.language = .typeScript →
    ∀ file ∈ files, file.name = implementationName schema settings →
      ∃ (stem : String) (extension : TypeExtension),
        typesImport? file.contents = some ("./" ++ stem ++ "." ++ extension.importText) ∧
        stem ++ "." ++ extension.text ∈ files.map (·.name)

section Names

def copyEnding : ServiceSchema → String
  | .openApi _ => ".openapi.json"
  | .graphQl _ => ".schema.graphql"

def clientEndings (schema : ServiceSchema) (settings : Settings) : List String :=
  [copyEnding schema, typesMark schema settings ++ ("." ++ settings.typeExtension.text),
    "." ++ implementationExtension schema settings]

/-- What holds of every choice of the endings holds of those of a client. -/
theorem clientEndings_of_forall {kind : List String → Prop}
    (each : ∀ copied ∈ [".openapi.json", ".schema.graphql"], ∀ mark ∈ ["", "-types"],
      ∀ extension ∈ ["d.ts", "d.mts", "d.cts"], ∀ implementation ∈ ["mjs", "cjs", "mts"],
        kind [copied, mark ++ ("." ++ extension), "." ++ implementation])
    (schema : ServiceSchema) (settings : Settings) : kind (clientEndings schema settings) := by
  apply each
  · cases schema with
    | openApi _ => exact .head _
    | graphQl _ => exact .tail _ (.head _)
  · unfold typesMark
    split_ifs <;> decide
  · cases settings.typeExtension <;> decide
  · unfold implementationExtension
    split_ifs
    · cases settings.language <;> decide
    · cases settings.moduleFormat <;> decide

theorem nodup_clientEndings (schema : ServiceSchema) (settings : Settings) :
    (clientEndings schema settings).Nodup :=
  clientEndings_of_forall (by decide) schema settings

theorem clientEndings_plain (schema : ServiceSchema) (settings : Settings) :
    ∀ ending ∈ clientEndings schema settings,
      ending ≠ "" ∧ Route.separator ∉ ending.toList :=
  @clientEndings_of_forall (fun endings => ∀ ending ∈ endings,
    ending ≠ "" ∧ Route.separator ∉ ending.toList) (by decide +kernel) schema settings

theorem name_copy : (copy schema document settings).name = settings.name ++ copyEnding schema := by
  cases schema <;> rfl

theorem name_typesFile : (typesFile settings (settings.name ++ typesMark schema settings)
    artifact).name = settings.name ++ (typesMark schema settings ++
      ("." ++ settings.typeExtension.text)) := by
  simp only [typesFile, String.append_assoc]

theorem names_clientFiles_sublist :
    ((clientFiles schema document artifact settings typesOnly).map (·.name)).Sublist
      ((clientEndings schema settings).map (settings.name ++ ·)) := by
  have copied : (copies schema document settings typesOnly).Sublist
      [copy schema document settings] := by
    cases schema <;> cases typesOnly <;> simp [copies, fullOnly]
  have implemented : (fullOnly typesOnly
      [implementationFile settings (implementationExtension schema settings) artifact]).Sublist
        [implementationFile settings (implementationExtension schema settings) artifact] := by
    cases typesOnly <;> simp [fullOnly]
  have files := ((copied.append (.refl [typesFile settings
    (settings.name ++ typesMark schema settings) artifact])).append implemented).map (·.name)
  simp only [List.map_append, List.map_cons, List.map_nil, List.cons_append, List.nil_append,
    name_copy, name_typesFile] at files
  simpa only [clientFiles, clientEndings, List.map_append, List.map_cons, List.map_nil,
    List.singleton_append, name_typesFile, implementationFile, String.append_assoc] using files

theorem name_ne_fileName
    (member : file ∈ clientFiles schema document artifact settings typesOnly) :
    file.name ≠ Manifest.fileName :=
  name_ne_of_isClientFile (isClientFile_of_mem_clientFiles member)

def lastName? (folder name : String) : Option String := (Route.ofPath (Route.join folder name)).head?

theorem lastName?_manifest (folder : String) :
    lastName? folder Manifest.fileName = some Manifest.fileName :=
  congrArg List.head? (Route.ofPath_join_of_relative folder rfl)

/-- The ways to different files of a client end in different names. -/
theorem nodup_lastNames_clientFiles (folder : String) :
    (((clientFiles schema document artifact settings typesOnly).map (·.name)).map
      (lastName? folder)).Nodup := by
  obtain ⟨more, outer, split⟩ := Route.exists_ofPath_join_append folder settings.name
  have names : ((clientEndings schema settings).map (settings.name ++ ·)).map (lastName? folder) =
      (clientEndings schema settings).map fun ending => some (more ++ ending) := by
    rw [List.map_map]
    refine List.map_congr_left fun ending known => ?_
    obtain ⟨nonempty, plain⟩ := clientEndings_plain schema settings ending known
    exact congrArg List.head? (split ending nonempty (List.forall_mem_ne'.mpr plain))
  have distinct : ((clientEndings schema settings).map fun ending => some (more ++ ending)).Nodup :=
    List.Nodup.map (fun _ _ same => (String.append_right_inj _).mp (Option.some.inj same))
      (nodup_clientEndings schema settings)
  rw [← names] at distinct
  exact distinct.sublist (names_clientFiles_sublist.map (lastName? folder))

theorem nodup_lastNames_plan (folder : String) :
    (((plan schema document artifact settings typesOnly).map (·.name)).map
      (lastName? folder)).Nodup := by
  rw [plan_eq, List.map_append, List.map_append, List.nodup_append]
  refine ⟨nodup_lastNames_clientFiles folder, ?_, ?_⟩
  · cases manifestOf? schema settings.isFrontend typesOnly <;> simp
  · intro name member other described
    obtain ⟨_, named, rfl⟩ := List.mem_map.mp member
    obtain ⟨file, inside, rfl⟩ := List.mem_map.mp named
    obtain ⟨_, namedToo, rfl⟩ := List.mem_map.mp described
    obtain ⟨_, last, rfl⟩ := List.mem_map.mp namedToo
    obtain ⟨_, _, rfl⟩ := Option.map_eq_some_iff.mp (Option.mem_toList.mp last)
    exact fun same => head?_ofPath_ne (isClientFile_of_mem_clientFiles inside) folder
      (same.trans (lastName?_manifest folder))

theorem nodup_plan :
    ((plan schema document artifact settings typesOnly).map (·.name)).Nodup :=
  (nodup_lastNames_plan "").of_map

/-- No way to a planned file ends in `.` or `..`. -/
theorem lastName?_ne_of_mem_plan {special : String} (folder : String)
    (member : file ∈ plan schema document artifact settings typesOnly)
    (dots : special ∈ [Route.self, Route.around]) : lastName? folder file.name ≠ some special := by
  rw [plan_eq, List.mem_append] at member
  obtain inside | last := member
  · exact head?_ofPath_ne_of_mem (isClientFile_of_mem_clientFiles inside) folder (.tail _ dots)
  · obtain ⟨_, _, rfl⟩ := Option.map_eq_some_iff.mp (Option.mem_toList.mp last)
    intro same
    rw [manifest, lastName?_manifest folder, Option.some.injEq] at same
    subst same
    exact absurd dots (by decide)

/-- Only the implementation has its name, and it is left out of declarations alone. -/
theorem implementation_of_name
    (member : file ∈ plan schema document artifact settings typesOnly)
    (named : file.name = implementationName schema settings) :
    typesOnly = false ∧
      file = implementationFile settings (implementationExtension schema settings) artifact := by
  have endings := nodup_clientEndings schema settings
  simp only [clientEndings, List.nodup_cons, List.mem_cons, List.not_mem_nil, or_false, not_or]
    at endings
  have ended : file.name = settings.name ++ ("." ++ implementationExtension schema settings) := by
    rw [named, implementationName, String.append_assoc]
  rw [plan_eq, clientFiles, List.mem_append, List.mem_append, List.mem_append,
    List.mem_singleton] at member
  -- Names that begin with the client's name are told apart by how they end.
  obtain ((copied | rfl) | implementation) | described := member
  · have same : file = copy schema document settings := by
      cases schema with
      | graphQl _ => exact List.mem_singleton.mp copied
      | openApi _ =>
        cases typesOnly with
        | true => cases copied
        | false => exact List.mem_singleton.mp copied
    rw [same, name_copy, String.append_right_inj] at ended
    exact absurd ended endings.1.2
  · rw [name_typesFile, String.append_right_inj] at ended
    exact absurd ended endings.2.1
  · cases typesOnly with
    | true => cases implementation
    | false => exact ⟨rfl, List.mem_singleton.mp implementation⟩
  · obtain ⟨_, _, rfl⟩ := Option.map_eq_some_iff.mp (Option.mem_toList.mp described)
    have whole : implementationFile settings (implementationExtension schema settings) artifact ∈
        clientFiles schema document artifact settings false := by
      simp [clientFiles, fullOnly]
    exact absurd named.symm (name_ne_fileName whole)

theorem manifest_of_name (member : file ∈ plan schema document artifact settings typesOnly)
    (named : file.name = Manifest.fileName) :
    isFetchClient schema settings.isFrontend = false ∧ file = manifest settings (!typesOnly) := by
  rw [plan_eq, List.mem_append] at member
  obtain other | last := member
  · exact absurd named (name_ne_fileName other)
  · obtain ⟨hasImplementation, found, rfl⟩ := Option.map_eq_some_iff.mp (Option.mem_toList.mp last)
    cases schema with
    | graphQl _ =>
      cases found
      exact ⟨rfl, rfl⟩
    | openApi _ =>
      unfold manifestOf? at found
      split_ifs at found with without
      cases found
      rw [Bool.or_eq_true, not_or, Bool.not_eq_true, Bool.not_eq_true] at without
      rw [without.2]
      exact ⟨without.1, rfl⟩

variable (schema document artifact settings typesOnly)

theorem mem_names_of_mem_clientFiles
    (member : file ∈ clientFiles schema document artifact settings typesOnly) :
    file.name ∈ (plan schema document artifact settings typesOnly).map (·.name) := by
  rw [plan_eq]
  exact List.mem_map_of_mem (List.mem_append_left _ member)

theorem typesName_mem : settings.name ++ typesMark schema settings ++ "." ++
    settings.typeExtension.text ∈
      (plan schema document artifact settings typesOnly).map (·.name) :=
  mem_names_of_mem_clientFiles _ _ _ _ _
    (typesFile_mem_clientFiles schema document artifact settings typesOnly)

theorem implementationName_mem : implementationName schema settings ∈
    (plan schema document artifact settings false).map (·.name) := by
  have member : implementationFile settings (implementationExtension schema settings) artifact ∈
      clientFiles schema document artifact settings false := by
    simp [clientFiles, fullOnly]
  exact mem_names_of_mem_clientFiles _ _ _ _ _ member

theorem copyName_mem : (copy schema document settings).name ∈
    (plan schema document artifact settings false).map (·.name) := by
  have member : copy schema document settings ∈
      clientFiles schema document artifact settings false := by
    cases schema <;> simp [clientFiles, copies, fullOnly]
  exact mem_names_of_mem_clientFiles _ _ _ _ _ member

end Names

section Contents

theorem member?_text (name : String) (format : ModuleFormat) (extension : TypeExtension)
    (hasImplementation : Bool) :
    Manifest.member? "types" (Manifest.text name format extension hasImplementation) =
        some (.string (Manifest.typesPath name extension)) ∧
      Manifest.member? "main" (Manifest.text name format extension hasImplementation) =
        if hasImplementation then some (.string (Manifest.mainPath name format)) else none := by
  unfold Manifest.member?
  rw [Manifest.read?_text]
  cases format <;> cases hasImplementation <;>
    simp [Manifest.entries, Json.ofStrings, Json.Value.get?, List.lookup_cons]

/-- Where nothing but the package is needed, the implementation names the copy of the schema. -/
theorem siblingFiles?_of_generate (generated : generate schema settings = .ok artifact)
    (document : Json.Value) (service : isFetchClient schema settings.isFrontend = false) :
    siblingFiles? artifact.implementation = some [(copy schema document settings).name] := by
  obtain ⟨types, implementation, pages, rfl⟩ := exists_pages_of_generate generated
  cases pages with
  | service => exact OpenApi.ServiceClient.siblingFiles?_implementation settings settings.name
  | fetch frontend =>
    have backend : settings.isFrontend = false := service
    rw [backend] at frontend
    cases frontend
  | graphQl => exact GraphQl.ServiceClient.siblingFiles?_implementation settings settings.name _

theorem typesImport?_of_generate (generated : generate schema settings = .ok artifact)
    (fetches : isFetchClient schema settings.isFrontend = true)
    (typed : settings.language = .typeScript) :
    typesImport? artifact.implementation = some ("./" ++
      OpenApi.FetchClient.typesStem settings.name ++ "." ++ settings.typeExtension.importText) := by
  obtain ⟨types, implementation, pages, rfl⟩ := exists_pages_of_generate generated
  cases pages with
  | service backend =>
    have frontend : settings.isFrontend = true := fetches
    rw [backend] at frontend
    cases frontend
  | graphQl => cases fetches
  | @fetch source model =>
    rw [← OpenApi.FetchClient.stepsOf_implementationItems]
    obtain ⟨rest, items⟩ : ∃ rest, OpenApi.FetchClient.implementationItems settings
        (.ofText settings.name) model =
          .line (OpenApi.FetchClient.importLine settings settings.name) :: rest := by
      unfold OpenApi.FetchClient.implementationItems OpenApi.FetchClient.statements
        OpenApi.FetchClient.importStatements
      rw [if_pos typed]
      exact ⟨_, rfl⟩
    have single : OneLine (OpenApi.FetchClient.importLine settings settings.name) :=
      oneLine_append.mpr ⟨by decide, oneLine_literal _⟩
    simp only [items]
    rw [typesImport?, ← Item.render, firstLine_render single,
      tokens?_of_reads (OpenApi.FetchClient.reads_importLine settings settings.name)]
    rfl

end Contents

section Theorems

/-- The files that a client is planned to have name each other only. -/
theorem closed_of_generate (generated : generate schema settings = .ok artifact)
    (document : Json.Value) (typesOnly : Bool) :
    Closed schema settings (plan schema document artifact settings typesOnly) where
  distinct := nodup_plan
  types file member named := by
    obtain ⟨service, rfl⟩ := manifest_of_name member named
    have name := typesName_mem schema document artifact settings typesOnly
    rw [typesMark, service, if_neg nofun, String.append_empty] at name
    refine ⟨_, (member?_text _ _ _ _).1.trans ?_, name⟩
    simp only [Manifest.typesPath, String.append_assoc]
  main file member named value found := by
    obtain ⟨service, rfl⟩ := manifest_of_name member named
    rw [manifest, (member?_text _ _ _ _).2] at found
    cases typesOnly with
    | true => cases found
    | false =>
      cases found
      have name := implementationName_mem schema document artifact settings
      rw [implementationName, implementationExtension, service, if_neg nofun] at name
      refine ⟨_, ?_, name⟩
      simp only [Manifest.mainPath, String.append_assoc]
  copy service file member named := by
    obtain ⟨rfl, rfl⟩ := implementation_of_name member named
    exact ⟨_, siblingFiles?_of_generate generated document service,
      copyName_mem schema document artifact settings⟩
  declarations fetches typed file member named := by
    obtain ⟨_, rfl⟩ := implementation_of_name member named
    have name := typesName_mem schema document artifact settings typesOnly
    rw [typesMark, fetches, if_pos rfl] at name
    exact ⟨OpenApi.FetchClient.typesStem settings.name, settings.typeExtension,
      typesImport?_of_generate generated fetches typed, name⟩

def quotedSettings : Settings :=
  { Settings.standard "it's" with isFrontend := true, language := .typeScript }

theorem quoted_closed :
    ∃ artifact, generate Run.bareSchema quotedSettings = .ok artifact ∧
      (plan Run.bareSchema Run.bareDocument artifact quotedSettings false).map (·.name) =
        ["it's.openapi.json", "it's-types.d.ts", "it's.mts"] ∧
      Closed Run.bareSchema quotedSettings
        (plan Run.bareSchema Run.bareDocument artifact quotedSettings false) := by
  have generated : generate Run.bareSchema quotedSettings =
      .ok (Run.artifactOf Run.bareSchema quotedSettings) :=
    Run.generate_artifactOf (by decide +kernel)
  exact ⟨_, generated, rfl, closed_of_generate generated Run.bareDocument false⟩

end Theorems

end Bundle

end TypedClient
