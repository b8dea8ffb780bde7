import TypedClient.Proofs.Files.Routes
import TypedClient.Proofs.Lists
import TypedClient.Run

/-! The names of planned files, and what a plan is made from. -/

set_option autoImplicit false

namespace TypedClient

namespace Bundle
variable {schema : ServiceSchema} {document : Json.Value} {artifact : Artifact}
  {settings : Settings} {typesOnly : Bool} {file : PlannedFile} {files : List PlannedFile}

def endings : List String :=
  [".openapi.json", ".schema.graphql", ".d.ts", ".d.mts", ".d.cts", ".mjs", ".cjs", ".mts"]

def IsClientFile (name : String) (file : PlannedFile) : Prop :=
  ∃ mark ∈ ["", "-types"], ∃ ending ∈ endings, file.name = name ++ mark ++ ending

/-- Whether a client comes with a manifest, and if so whether it names an implementation. -/
def manifestOf? (schema : ServiceSchema) (isFrontend typesOnly : Bool) : Option Bool :=
  match schema with
  | .openApi _ => if isFrontend || typesOnly then none else some true
  | .graphQl _ => some (!typesOnly)

theorem isClientFile_typesFile (settings : Settings) (artifact : Artifact) {mark : String}
    (known : mark ∈ ["", "-types"]) :
    IsClientFile settings.name (typesFile settings (settings.name ++ mark) artifact) := by
  refine ⟨mark, known, "." ++ settings.typeExtension.text, ?_, String.append_assoc⟩
  cases settings.typeExtension <;> decide

theorem isClientFile_of_name {name ending : String} (known : ending ∈ endings)
    (named : file.name = name ++ ending) : IsClientFile name file :=
  ⟨"", by decide, ending, known, by rw [String.append_empty, named]⟩

theorem isClientFile_implementationFile (settings : Settings) (artifact : Artifact)
    {extension : String} (known : "." ++ extension ∈ endings) :
    IsClientFile settings.name (implementationFile settings extension artifact) :=
  isClientFile_of_name known String.append_assoc

theorem forall_mem_fullOnly {name : String} (all : ∀ file ∈ files, IsClientFile name file) :
    ∀ file ∈ fullOnly typesOnly files, IsClientFile name file := by
  cases typesOnly with
  | true => nofun
  | false => exact all

def isFetchClient (schema : ServiceSchema) (isFrontend : Bool) : Bool :=
  match schema with
  | .openApi _ => isFrontend
  | .graphQl _ => false

def typesMark (schema : ServiceSchema) (settings : Settings) : String :=
  if isFetchClient schema settings.isFrontend then "-types" else ""

def implementationExtension (schema : ServiceSchema) (settings : Settings) : String :=
  if isFetchClient schema settings.isFrontend then settings.language.implementationText
  else settings.moduleFormat.implementationText

def copy (schema : ServiceSchema) (document : Json.Value) (settings : Settings) : PlannedFile :=
  match schema with
  | .openApi _ => ⟨OpenApi.ServiceClient.documentFile settings.name, document.pretty 0⟩
  | .graphQl schema => ⟨GraphQl.ServiceClient.documentFile settings.name, schema.definitions⟩

def copies (schema : ServiceSchema) (document : Json.Value) (settings : Settings)
    (typesOnly : Bool) : List PlannedFile :=
  match schema with
  | .openApi _ => fullOnly typesOnly [copy schema document settings]
  | .graphQl _ => [copy schema document settings]

def clientFiles (schema : ServiceSchema) (document : Json.Value) (artifact : Artifact)
    (settings : Settings) (typesOnly : Bool) : List PlannedFile :=
  copies schema document settings typesOnly ++
    [typesFile settings (settings.name ++ typesMark schema settings) artifact] ++
    fullOnly typesOnly
      [implementationFile settings (implementationExtension schema settings) artifact]

/-- The files of all clients come in the same order, and the manifest is the last one. -/
theorem plan_eq (schema : ServiceSchema) (document : Json.Value) (artifact : Artifact)
    (settings : Settings) (typesOnly : Bool) :
    plan schema document artifact settings typesOnly =
      clientFiles schema document artifact settings typesOnly ++
        ((manifestOf? schema settings.isFrontend typesOnly).map (manifest settings)).toList := by
  have unmarked : settings.name ++ "" = settings.name := String.append_empty
  cases schema with
  | graphQl schema =>
    cases typesOnly <;> exact congrArg (fun stem => _ :: typesFile settings stem artifact :: _)
      unmarked.symm
  | openApi service =>
    unfold plan clientFiles copies typesMark implementationExtension isFetchClient manifestOf?
    cases frontend : settings.isFrontend with
    | true => cases typesOnly <;> rfl
    | false =>
      simp only [Bool.false_eq_true, if_false, unmarked]
      cases typesOnly <;> rfl

theorem typesFile_mem_clientFiles (schema : ServiceSchema) (document : Json.Value)
    (artifact : Artifact) (settings : Settings) (typesOnly : Bool) :
    typesFile settings (settings.name ++ typesMark schema settings) artifact ∈
      clientFiles schema document artifact settings typesOnly := by
  simp [clientFiles]

theorem isClientFile_of_mem_clientFiles
    (member : file ∈ clientFiles schema document artifact settings typesOnly) :
    IsClientFile settings.name file := by
  have copied : IsClientFile settings.name (copy schema document settings) := by
    cases schema with
    | openApi _ => exact @isClientFile_of_name _ _ ".openapi.json" (by decide) rfl
    | graphQl _ => exact @isClientFile_of_name _ _ ".schema.graphql" (by decide) rfl
  have types : IsClientFile settings.name
      (typesFile settings (settings.name ++ typesMark schema settings) artifact) := by
    apply isClientFile_typesFile
    unfold typesMark
    split_ifs <;> decide
  have implementation : IsClientFile settings.name
      (implementationFile settings (implementationExtension schema settings) artifact) := by
    apply isClientFile_implementationFile
    unfold implementationExtension
    split_ifs
    · cases settings.language <;> decide
    · cases settings.moduleFormat <;> decide
  have fromSchema : ∀ file ∈ copies schema document settings typesOnly,
      IsClientFile settings.name file := by
    cases schema with
    | openApi _ => exact forall_mem_fullOnly (List.forall_mem_singleton.mpr copied)
    | graphQl _ => exact List.forall_mem_singleton.mpr copied
  revert file
  simp only [clientFiles, List.forall_mem_append, List.forall_mem_singleton]
  exact ⟨⟨fromSchema, types⟩, forall_mem_fullOnly (List.forall_mem_singleton.mpr implementation)⟩

theorem exists_plan_eq (schema : ServiceSchema) (document : Json.Value) (artifact : Artifact)
    (settings : Settings) (typesOnly : Bool) :
    ∃ others, (∀ file ∈ others, IsClientFile settings.name file) ∧
      plan schema document artifact settings typesOnly =
        others ++ ((manifestOf? schema settings.isFrontend typesOnly).map
          (manifest settings)).toList :=
  ⟨_, fun _ => isClientFile_of_mem_clientFiles, plan_eq schema document artifact settings typesOnly⟩

theorem ending_plain : ∀ ending ∈ endings, ending ≠ "" ∧ Route.separator ∉ ending.toList ∧
    ∀ other ∈ [Manifest.fileName, Route.self, Route.around],
      ¬ ending.toList <:+ other.toList := by
  decide

theorem name_ne_of_isClientFile {name : String} (clientFile : IsClientFile name file) :
    file.name ≠ Manifest.fileName := by
  obtain ⟨mark, _, ending, known, named⟩ := clientFile
  intro same
  apply (ending_plain ending known).2.2 Manifest.fileName (.head _)
  rw [← same, named, String.toList_append]
  exact List.suffix_append _ _

theorem plain_of_isClientFile {name : String} (clientFile : IsClientFile name file)
    (plain : ∀ c ∈ name.toList, c ≠ Route.separator) :
    file.name ≠ "" ∧ ∀ c ∈ file.name.toList, c ≠ Route.separator := by
  obtain ⟨mark, either, ending, known, named⟩ := clientFile
  have marked : ∀ mark ∈ ["", "-types"], Route.separator ∉ mark.toList := by decide
  obtain ⟨nonempty, whole, _⟩ := ending_plain ending known
  rw [named]
  constructor
  · intro empty
    exact nonempty (String.append_eq_empty_iff.mp empty).2
  · intro c inside
    rw [String.toList_append, String.toList_append, List.mem_append, List.mem_append] at inside
    obtain (first | second) | third := inside
    · exact plain c first
    · exact List.forall_mem_ne'.mpr (marked mark either) c second
    · exact List.forall_mem_ne'.mpr whole c third

/-- No path ends in a name that a manifest has, nor in `.` or `..`, if it ends in the name of a
client's file. -/
theorem head?_ofPath_ne_of_mem {name other : String} (clientFile : IsClientFile name file)
    (folder : String) (member : other ∈ [Manifest.fileName, Route.self, Route.around]) :
    (Route.ofPath (Route.join folder file.name)).head? ≠ some other := by
  obtain ⟨mark, _, ending, known, named⟩ := clientFile
  obtain ⟨nonempty, whole, apart⟩ := ending_plain ending known
  obtain ⟨more, outer, split⟩ := Route.exists_ofPath_join_append folder (name ++ mark)
  rw [named, split ending nonempty (List.forall_mem_ne'.mpr whole)]
  intro same
  apply apart other member
  rw [← Option.some.inj same, String.toList_append]
  exact List.suffix_append _ _

theorem head?_ofPath_ne {name : String} (clientFile : IsClientFile name file) (folder : String) :
    (Route.ofPath (Route.join folder file.name)).head? ≠ some Manifest.fileName :=
  head?_ofPath_ne_of_mem clientFile folder (.head _)

section Formats
variable {arguments : Arguments} {before : ModuleFormat} {extension : TypeExtension}
  {service : OpenApi.Document}

theorem generate_openApi_of_frontend (frontend : arguments.frontend = true) (format : ModuleFormat) :
    generate (.openApi service) (arguments.settings format extension) =
      OpenApi.FetchClient.generate service (arguments.settings format extension) :=
  if_pos frontend

theorem generate_openApi_of_backend (backend : ¬ arguments.frontend = true) (format : ModuleFormat) :
    generate (.openApi service) (arguments.settings format extension) =
      OpenApi.ServiceClient.generate service (arguments.settings format extension) :=
  if_neg backend

/-- Only the implementation of a service client asks for the format, and where there is no
manifest, this is not written. -/
theorem exists_plan_with (none : manifestOf? schema arguments.frontend typesOnly = none)
    (generated : generate schema (arguments.settings before extension) = .ok artifact)
    (format : ModuleFormat) :
    ∃ other, generate schema (arguments.settings format extension) = .ok other ∧
      plan schema document other (arguments.settings format extension) typesOnly =
        plan schema document artifact (arguments.settings before extension) typesOnly := by
  cases schema with
  | graphQl schema => cases none
  | openApi service =>
    by_cases frontend : arguments.frontend = true
    · have files : ∀ format, plan (.openApi service) document artifact
          (arguments.settings format extension) typesOnly = _ := fun _ => if_pos frontend
      refine ⟨artifact, ?_, ?_⟩
      · rw [← generated, generate_openApi_of_frontend frontend,
          generate_openApi_of_frontend frontend]
        rfl
      · rw [files, files]
        rfl
    · have files : ∀ artifact format, plan (.openApi service) document artifact
          (arguments.settings format extension) typesOnly = _ := fun _ _ => if_neg frontend
      -- A service client without a manifest is one of types only.
      have only : typesOnly = true := by
        unfold manifestOf? at none
        rw [Bool.not_eq_true] at frontend
        rw [frontend] at none
        cases typesOnly with
        | true => rfl
        | false => cases none
      rw [generate_openApi_of_backend frontend, OpenApi.ServiceClient.generate,
        bind_eq_ok_iff] at generated
      obtain ⟨model, built, given⟩ := generated
      cases given
      have again : OpenApi.ServiceClient.generate service (arguments.settings format extension) =
          .ok ⟨_, _⟩ := bind_eq_ok_iff.mpr ⟨model, built, rfl⟩
      refine ⟨_, (generate_openApi_of_backend frontend format).trans again, ?_⟩
      rw [files, files, only]
      rfl

end Formats

end Bundle

namespace Run
variable {read : Reader} {base : String} {arguments : Arguments} {result : Plan}
  {surrounding : Option ModuleFormat} {format : ModuleFormat} {extension : TypeExtension}

section Formats

theorem formats_eq_ok_iff : formats surrounding arguments = .ok (format, extension) ↔
    ModuleFormat.resolve arguments.moduleFormat surrounding = .ok format ∧
      TypeExtension.resolve format arguments.typeExtension arguments.moduleFormat.isSome
        surrounding = extension := by
  unfold formats
  rw [bind_eq_ok_iff]
  constructor
  · rintro ⟨found, resolved, given⟩
    cases given
    exact ⟨resolved, rfl⟩
  · rintro ⟨resolved, rfl⟩
    exact ⟨format, resolved, rfl⟩

theorem parse_text (format : ModuleFormat) : ModuleFormat.parse format.text = .ok format := by
  cases format <;> rfl

theorem text_of_parse {text : String} (parsed : ModuleFormat.parse text = .ok format) :
    text = format.text := by
  unfold ModuleFormat.parse at parsed
  split_ifs at parsed with esm cjs
  · cases parsed
    exact esm
  · cases parsed
    exact cjs

/-- A format that a run has found is found again in a package that has it. -/
theorem resolve_again
    (resolved : ModuleFormat.resolve arguments.moduleFormat surrounding = .ok format) :
    ModuleFormat.resolve arguments.moduleFormat (some format) = .ok format := by
  cases asked : arguments.moduleFormat with
  | none => rfl
  | some text =>
    rw [asked] at resolved
    exact resolved

theorem resolve_some (text : String) (surrounding : Option ModuleFormat) :
    ModuleFormat.resolve (some text) surrounding = ModuleFormat.parse text := rfl

theorem resolve_of_pin (format : ModuleFormat) (requested : Bool)
    (surrounding : Option ModuleFormat) :
    TypeExtension.resolve format true requested surrounding = format.pinned := rfl

theorem resolve_of_neither (format : ModuleFormat) (surrounding : Option ModuleFormat) :
    TypeExtension.resolve format false false surrounding = .dts := rfl

/-- The extension stays, unless a format is asked for that the package did not have. -/
theorem extension_again_iff (format : ModuleFormat) (pin requested : Bool)
    (surrounding : Option ModuleFormat) :
    TypeExtension.resolve format pin requested (some format) =
        TypeExtension.resolve format pin requested surrounding ↔
      ¬ (requested = true ∧ surrounding ≠ some format ∧ pin = false) := by
  unfold TypeExtension.resolve
  cases pin <;> cases requested <;> by_cases same : surrounding = some format <;>
    cases format <;> simp [same, ModuleFormat.pinned]

end Formats

section Plans

def Plan.HasManifest (plan : Plan) : Prop := ∃ file ∈ plan.files, file.name = Manifest.fileName

structure Sources (read : Reader) (base : String) (arguments : Arguments) where
  format : ModuleFormat
  extension : TypeExtension
  text : String
  schema : ServiceSchema
  document : Json.Value
  artifact : Artifact
  formats : Run.formats (Manifest.surrounding? (fun route => (read route).toOption)
    (Route.ofPath (folderPath base arguments))) arguments = .ok (format, extension)
  source : readSource read base arguments.source = .ok text
  decoded : schemaOf text = .ok (schema, document)
  generated : generate schema (arguments.settings format extension) = .ok artifact

namespace Sources

def plan (sources : Sources read base arguments) : Plan :=
  ⟨folderPath base arguments, Bundle.plan sources.schema sources.document sources.artifact
    (arguments.settings sources.format sources.extension) arguments.typesOnly⟩

end Sources

theorem mapError_eq_ok_iff {ε ε' α : Type} {rename : ε → ε'} {outcome : Except ε α} {value : α} :
    outcome.mapError rename = .ok value ↔ outcome = .ok value := by
  cases outcome <;> simp [Except.mapError]

theorem readSource_eq_ok_iff {source text : String} : readSource read base source = .ok text ↔
    isRemote source = false ∧ source ≠ "" ∧ checkPath source = .ok () ∧
      read (Route.toRead (Route.join base source)) = .ok text := by
  have step : (if source = "" then Except.error FileFault.notFound else
      checkPath source >>= fun _ => read (Route.toRead (Route.join base source))) =
        readPath read base source := by
    unfold readPath
    split_ifs <;> rfl
  unfold readSource
  rw [← step]
  cases isRemote source with
  | true => exact iff_of_false nofun (by simp)
  | false =>
    by_cases empty : source = ""
    · simp [empty, Except.mapError]
    · rw [if_neg nofun, if_neg empty, mapError_eq_ok_iff, bind_eq_ok_iff]
      constructor
      · rintro ⟨_, fits, found⟩
        exact ⟨rfl, empty, fits, found⟩
      · rintro ⟨_, _, fits, found⟩
        exact ⟨(), fits, found⟩

theorem generation_eq_ok_iff {α : Type} {outcome : Except Fault α} {value : α} :
    generation outcome = .ok value ↔ outcome = .ok value :=
  mapError_eq_ok_iff

theorem plan_eq_ok_iff : Run.plan read base arguments = .ok result ↔
    ∃ sources : Sources read base arguments, sources.plan = result := by
  unfold Run.plan
  simp only [bind_eq_ok_iff, generation_eq_ok_iff]
  constructor
  · rintro ⟨⟨format, extension⟩, formats, text, source, ⟨schema, document⟩, decoded, artifact,
      generated, given⟩
    cases given
    exact ⟨⟨format, extension, text, schema, document, artifact, formats, source, decoded,
      generated⟩, rfl⟩
  · rintro ⟨sources, rfl⟩
    exact ⟨_, sources.formats, _, sources.source, _, sources.decoded, _, sources.generated, rfl⟩

namespace Sources

def manifestOf? (sources : Sources read base arguments) : Option Bool :=
  Bundle.manifestOf? sources.schema arguments.frontend arguments.typesOnly

theorem exists_files_eq (sources : Sources read base arguments) :
    ∃ others, (∀ file ∈ others, Bundle.IsClientFile arguments.clientName file) ∧
      sources.plan.files =
      others ++ (sources.manifestOf?.map (Bundle.manifest
        (arguments.settings sources.format sources.extension))).toList :=
  Bundle.exists_plan_eq sources.schema sources.document sources.artifact
    (arguments.settings sources.format sources.extension) arguments.typesOnly

theorem hasManifest_iff (sources : Sources read base arguments) :
    sources.plan.HasManifest ↔ sources.manifestOf?.isSome = true := by
  obtain ⟨others, clientFiles, split⟩ := sources.exists_files_eq
  unfold Plan.HasManifest
  rw [split]
  cases known : sources.manifestOf? with
  | none =>
    apply iff_of_false _ nofun
    rintro ⟨file, inside, named⟩
    rw [Option.map_none, Option.toList_none, List.append_nil] at inside
    exact Bundle.name_ne_of_isClientFile (clientFiles file inside) named
  | some hasImplementation =>
    apply iff_of_true _ rfl
    exact ⟨_, List.mem_append_right _ (List.mem_singleton_self _), rfl⟩

end Sources

end Plans

end Run

end TypedClient
