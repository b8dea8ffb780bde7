import TypedClient.Proofs.Runs.Again

/-! The format in which a plain declaration file is read.

A declaration file that ends in `.d.ts` is read in the format of the package around it. A run
writes one where no format is asked for, or where the package has the format that is. If it writes
a manifest, the file belongs to a package of the run's own format. If it writes none, the package
is the one that was there before, as long as the way to the folder was.
-/

set_option autoImplicit false

namespace TypedClient

namespace Bundle
variable {schema : ServiceSchema} {document : Json.Value} {artifact : Artifact}
  {settings : Settings} {typesOnly : Bool} {file : PlannedFile}

def otherEndings : List String :=
  [".openapi.json", ".schema.graphql", ".mjs", ".cjs", ".mts", "package.json"]

theorem exists_ending (member : file ∈ plan schema document artifact settings typesOnly) :
    (∃ stem, file.name = stem ++ ("." ++ settings.typeExtension.text)) ∨
      ∃ stem, ∃ ending ∈ otherEndings, file.name = stem ++ ending := by
  rw [plan_eq, clientFiles, List.mem_append, List.mem_append, List.mem_append,
    List.mem_singleton] at member
  -- A copy of the schema, the declarations, the implementation or the manifest.
  obtain ((copied | rfl) | implementation) | described := member
  · right
    cases schema with
    | openApi _ =>
      unfold copies fullOnly at copied
      split_ifs at copied
      · cases copied
      · cases List.mem_singleton.mp copied
        exact ⟨settings.name, ".openapi.json", by decide, rfl⟩
    | graphQl _ =>
      cases List.mem_singleton.mp copied
      exact ⟨settings.name, ".schema.graphql", by decide, rfl⟩
  · left
    exact ⟨settings.name ++ typesMark schema settings, String.append_assoc⟩
  · right
    unfold fullOnly at implementation
    split_ifs at implementation
    · cases implementation
    · cases List.mem_singleton.mp implementation
      refine ⟨settings.name, "." ++ implementationExtension schema settings, ?_,
        String.append_assoc⟩
      unfold implementationExtension
      split_ifs
      · cases settings.language <;> decide
      · cases settings.moduleFormat <;> decide
  · right
    obtain ⟨hasImplementation, _, rfl⟩ := Option.map_eq_some_iff.mp (Option.mem_toList.mp described)
    exact ⟨"", "package.json", by decide, rfl⟩

theorem suffix_of_append_eq {first second ending other : String}
    (same : first ++ ending = second ++ other) :
    ending.toList <:+ other.toList ∨ other.toList <:+ ending.toList := by
  have whole := congrArg String.toList same
  rw [String.toList_append, String.toList_append] at whole
  have ends := List.suffix_append second.toList other.toList
  rw [← whole] at ends
  exact List.suffix_or_suffix_of_suffix (List.suffix_append first.toList ending.toList) ends

/-- Only a declaration file can end in `.d.ts`. -/
theorem exists_plain_iff : (∃ file ∈ plan schema document artifact settings typesOnly,
    ∃ stem, file.name = stem ++ ".d.ts") ↔ settings.typeExtension = .dts := by
  constructor
  · rintro ⟨file, member, stem, plain⟩
    obtain ⟨front, named⟩ | ⟨front, ending, known, named⟩ := exists_ending member
    · have ends := suffix_of_append_eq (plain.symm.trans named)
      cases extension : settings.typeExtension with
      | dts => rfl
      | dmts =>
        rw [extension] at ends
        exact absurd ends (by decide)
      | dcts =>
        rw [extension] at ends
        exact absurd ends (by decide)
    · have apart : ∀ ending ∈ otherEndings, ¬ (".d.ts".toList <:+ ending.toList ∨
          ending.toList <:+ ".d.ts".toList) := by
        decide
      exact absurd (suffix_of_append_eq (plain.symm.trans named)) (apart ending known)
  · intro plain
    have member := typesFile_mem_clientFiles schema document artifact settings typesOnly
    refine ⟨_, plan_eq .. ▸ List.mem_append_left _ member,
      settings.name ++ typesMark schema settings, ?_⟩
    rw [typesFile, plain, String.append_assoc]
    rfl

end Bundle

namespace Run
variable {base : String} {arguments : Arguments} {plan : Plan} {tree after : FileTree}
  {format : ModuleFormat}

/-- A declaration file is among the files that takes its format from the package around it. -/
def Plan.HasPlainDeclarations (plan : Plan) : Prop :=
  ∃ file ∈ plan.files, ∃ stem, file.name = stem ++ ".d.ts"

theorem Sources.hasPlainDeclarations_iff {read : Reader} (sources : Sources read base arguments) :
    sources.plan.HasPlainDeclarations ↔ sources.extension = .dts :=
  Bundle.exists_plain_iff

/-- A plain declaration file is for the package that has been found, if one has been. -/
theorem surrounding_of_plain {surrounding : Option ModuleFormat} {pin : Bool}
    (resolved : ModuleFormat.resolve arguments.moduleFormat surrounding = .ok format)
    (plain : TypeExtension.resolve format pin arguments.moduleFormat.isSome surrounding = .dts) :
    surrounding = none ∨ surrounding = some format := by
  have unpinned : format.pinned ≠ .dts := by cases format <;> decide
  cases asked : arguments.moduleFormat with
  | none =>
    rw [asked] at resolved
    have found : surrounding.getD .esm = format := Except.ok.inj resolved
    cases surrounding with
    | none => exact .inl rfl
    | some around => exact .inr (congrArg some found)
  | some text =>
    rw [asked] at plain
    unfold TypeExtension.resolve at plain
    split_ifs at plain with pinned unasked same
    · exact absurd plain unpinned
    · cases unasked
    · exact .inr same
    · exact absurd plain unpinned

/-- When a run is over, a plain declaration file that it has written is read in the format of the
run. -/
theorem plain_read_in_format (absolute : Route.isAbsolute base = true)
    (grounded : tree.Grounded) (planned : Run.plan tree.read base arguments = .ok plan)
    (ran : (run base arguments).run.run tree = (.ok (), after))
    (plain : plan.HasPlainDeclarations)
    (resolved : ModuleFormat.resolve arguments.moduleFormat
      (Manifest.surroundingIn? tree plan.folder) = .ok format)
    (direct : ¬ plan.HasManifest → tree.Direct (Route.ofPath plan.folder)) :
    Manifest.surroundingIn? after plan.folder = none ∨
      Manifest.surroundingIn? after plan.folder = some format := by
  obtain ⟨_, found, written⟩ := run_eq_ok_iff.mp ran
  rw [planned] at found
  cases found
  obtain ⟨made, placed, carried⟩ := exists_carried written
  obtain ⟨sources, rfl⟩ := plan_eq_ok_iff.mp planned
  obtain ⟨decided, extension⟩ := formats_eq_ok_iff.mp sources.formats
  have same : sources.format = format := Except.ok.inj (decided.symm.trans resolved)
  have dts : sources.extension = .dts := sources.hasPlainDeclarations_iff.mp plain
  rw [dts] at extension
  rw [← same]
  -- Either the run's own manifest is the nearest, or the one that decided the format still is.
  obtain ⟨own, _⟩ | ⟨unchanged, _⟩ := surroundingIn?_after absolute grounded carried direct
  · exact .inr own
  · rw [unchanged]
    exact surrounding_of_plain decided extension

theorem standard_read_in_format :
    (run "/work" (Arguments.ofSource "schema.json")).run.run bareTree = (.ok (), standardTree) ∧
      standardSources.plan.HasPlainDeclarations ∧
      (Manifest.surroundingIn? standardTree standardSources.plan.folder = none ∨
        Manifest.surroundingIn? standardTree standardSources.plan.folder = some .esm) := by
  have ran : (run "/work" (Arguments.ofSource "schema.json")).run.run bareTree =
      (.ok (), standardTree) := by
    rw [run_eq_write standardSources]
    exact eq_of_succeeds (by decide +kernel)
  have plain := standardSources.hasPlainDeclarations_iff.mpr rfl
  have resolved : ModuleFormat.resolve (Arguments.ofSource "schema.json").moduleFormat
      (Manifest.surroundingIn? bareTree standardSources.plan.folder) = .ok .esm :=
    (formats_eq_ok_iff.mp standardSources.formats).1
  have manifest : standardSources.plan.HasManifest := by decide +kernel
  exact ⟨ran, plain, plain_read_in_format (by decide) grounded_bareTree
    (plan_eq_ok_iff.mpr ⟨standardSources, rfl⟩) ran plain resolved
    fun none => absurd manifest none⟩

def moduleManifest : String :=
  (Json.Value.object (Json.ofStrings [("type", Manifest.esmType)])).pretty 0

def nestedTree : FileTree :=
  ⟨[(["work"], .folder), (["schema.json", "work"], .file bareText),
    (["package.json", "work"], .file commonManifest), (["lib", "work"], .folder),
    (["package.json", "lib", "work"], .file moduleManifest)]⟩

theorem declaredFormat?_moduleManifest : Manifest.declaredFormat? moduleManifest = some .esm := by
  have read : Json.read? moduleManifest =
      some (.object (Json.ofStrings [("type", Manifest.esmType)])) :=
    Json.read?_pretty_ofStrings (by decide)
  rw [Manifest.declaredFormat?, read]
  rfl

/-- The way to the inner package leads through a folder that is not there yet. -/
theorem surroundingIn?_nestedTree :
    Manifest.surroundingIn? nestedTree (folderPath "/work" detouring) = some .cjs := by
  have split : Manifest.places (Route.ofPath (folderPath "/work" detouring)) =
      [["package.json", "lib", "..", "made", "work"], ["package.json", "..", "made", "work"],
        ["package.json", "made", "work"]] ++ ["package.json", "work"] :: [] := by
    decide +kernel
  exact Manifest.surrounding?_of_nearest split (by decide +kernel) (by decide +kernel)
    declaredFormat?_commonManifest

theorem formats_nestedTree :
    formats (Manifest.surroundingIn? nestedTree (folderPath "/work" detouring)) detouring =
      .ok (.cjs, .dts) := by
  rw [surroundingIn?_nestedTree]
  decide

theorem isOk_generate_detouring :
    (generate bareSchema (detouring.settings .cjs .dts)).isOk = true := by
  decide +kernel

def nestedSources : Sources nestedTree.read "/work" detouring :=
  bareSources formats_nestedTree (by decide +kernel) isOk_generate_detouring

def detouredTree : FileTree := (nestedSources.plan.write.run.run nestedTree).2

theorem surroundingIn?_detouredTree :
    Manifest.surroundingIn? detouredTree (folderPath "/work" detouring) = some .esm := by
  have nearest : Manifest.places (Route.ofPath (folderPath "/work" detouring)) =
      ["package.json", "lib", "..", "made", "work"] ::
        [["package.json", "..", "made", "work"], ["package.json", "made", "work"],
          ["package.json", "work"]] := by
    decide +kernel
  exact Manifest.surrounding?_of_first nearest (by decide +kernel) declaredFormat?_moduleManifest

/-- A run that makes the way to a package takes the one around for it. -/
theorem detour_not_read_in_format :
    nestedTree.Grounded ∧ (run "/work" detouring).run.run nestedTree = (.ok (), detouredTree) ∧
      nestedSources.plan.HasPlainDeclarations ∧
      ModuleFormat.resolve detouring.moduleFormat
        (Manifest.surroundingIn? nestedTree nestedSources.plan.folder) = .ok .cjs ∧
      ¬ (Manifest.surroundingIn? detouredTree nestedSources.plan.folder = none ∨
        Manifest.surroundingIn? detouredTree nestedSources.plan.folder = some .cjs) := by
  have ran : (run "/work" detouring).run.run nestedTree = (.ok (), detouredTree) := by
    rw [run_eq_write nestedSources]
    exact eq_of_succeeds (by decide +kernel)
  have found : Manifest.surroundingIn? detouredTree nestedSources.plan.folder = some .esm :=
    surroundingIn?_detouredTree
  refine ⟨FileTree.grounded_of_entries (by decide +kernel), ran,
    nestedSources.hasPlainDeclarations_iff.mpr rfl, rfl, ?_⟩
  rw [found]
  decide

end Run

end TypedClient
