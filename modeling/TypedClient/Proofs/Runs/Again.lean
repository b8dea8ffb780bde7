import TypedClient.Proofs.Runs.PlannedFiles
import TypedClient.Proofs.Runs.Surroundings

/-! The same run once more.

A second run sees what the first one has written: its own manifest is then the nearest one
around the output folder. Everything else that it reads is as before. It finds the same format
again, but it gives up an extension that pins this format, if the format was asked for in a
package that did not have it yet. Otherwise it plans the same files and changes nothing.
-/

set_option autoImplicit false

namespace TypedClient.Run

/-- The run succeeds, and leaves every entry and every place without one as it is. -/
def Repeats (base : String) (arguments : Arguments) (tree : FileTree) : Prop :=
  ∃ again, (run base arguments).run.run tree = (.ok (), again) ∧
    ∀ location, again.get? location = tree.get? location

/-- None of the files goes to where the source is. -/
def Plan.Spares (plan : Plan) (tree : FileTree) (source : Route) : Prop :=
  ∀ file ∈ plan.files,
    tree.follow (Route.ofPath (Route.join plan.folder file.name)) ≠ tree.follow source

/-- The source is not in the output folder, however deep. -/
def Outside (base : String) (arguments : Arguments) (tree : FileTree) : Prop :=
  ∀ folder source, tree.follow (Route.ofPath (folderPath base arguments)) = .ok folder →
    tree.follow (Route.toRead (Route.join base arguments.source)) = .ok source →
      ¬ folder <:+ source

/-- The run asks for a format that the package around the output folder does not have, and its
manifest makes a package that has it. -/
structure SetsFormat (tree : FileTree) (arguments : Arguments) (plan : Plan) : Prop where
  asked : ∃ format : ModuleFormat, arguments.moduleFormat = some format.text ∧
    Manifest.surroundingIn? tree plan.folder ≠ some format
  unpinned : arguments.typeExtension = false
  manifest : plan.HasManifest
  below : Route.ancestors (Route.ofPath plan.folder) ≠ []

variable {base : String} {arguments : Arguments} {plan : Plan} {tree made after : FileTree}
  {placed : List (Location × String)}

section Reading

/-- The source is read again, since nothing has been written to its place. -/
theorem Carried.readSource {text : String} (carried : Carried tree made after plan placed)
    (spared : plan.Spares after (Route.toRead (Route.join base arguments.source)))
    (source : readSource tree.read base arguments.source = .ok text) :
    Run.readSource after.read base arguments.source = .ok text := by
  obtain ⟨notRemote, nonempty, fits, read⟩ := readSource_eq_ok_iff.mp source
  obtain ⟨location, clean, follows, present⟩ := FileTree.read_eq_ok_iff.mp read
  have leads := carried.whole.follow follows
  have apart : ∀ place ∈ placed, place.1 ≠ location := by
    intro place inside same
    obtain ⟨file, listed, holds⟩ := exists_left_of_forall₂ carried.holds inside
    apply spared file listed
    rw [leads, holds.stands.follow, same]
  have kept : made.get? location = tree.get? location := by
    obtain same | ⟨absent, _⟩ := carried.builds location
    · exact same
    · rw [absent] at present
      cases present
  have now : after.get? location = some (.file text) := by
    rw [carried.get?_of_apart apart, kept, present]
  exact readSource_eq_ok_iff.mpr ⟨notRemote, nonempty, fits,
    FileTree.read_eq_ok_iff.mpr ⟨location, clean, leads, now⟩⟩

/-- A plan without a manifest leaves all manifests as they are. -/
theorem Carried.kept {name : String} (carried : Carried tree made after plan placed)
    (clientFiles : ∀ file ∈ plan.files, Bundle.IsClientFile name file) : Manifest.Kept tree after := by
  intro here content
  have apart : ∀ place ∈ placed, place.1 ≠ Manifest.fileName :: here := by
    intro place inside same
    obtain ⟨file, listed, holds⟩ := exists_left_of_forall₂ carried.holds inside
    apply Bundle.head?_ofPath_ne (clientFiles file listed) plan.folder
    rw [← holds.stands.head, same]
    rfl
  rw [carried.get?_of_apart apart]
  constructor
  · exact carried.builds.file
  · intro present
    obtain same | ⟨absent, _⟩ := carried.builds (Manifest.fileName :: here)
    · rw [same, present]
    · rw [absent] at present
      cases present

end Reading

section Formats

variable {sources : Sources tree.read base arguments}

/-- What a second run finds around the output folder. -/
theorem surroundingIn?_after (absolute : Route.isAbsolute base = true) (grounded : tree.Grounded)
    (carried : Carried tree made after sources.plan placed)
    (direct : ¬ sources.plan.HasManifest → tree.Direct (Route.ofPath sources.plan.folder)) :
    Manifest.surroundingIn? after sources.plan.folder = some sources.format ∧
        sources.plan.HasManifest ∧ Route.ancestors (Route.ofPath sources.plan.folder) ≠ [] ∨
      Manifest.surroundingIn? after sources.plan.folder =
          Manifest.surroundingIn? tree sources.plan.folder ∧
        ¬ (sources.plan.HasManifest ∧
          Route.ancestors (Route.ofPath sources.plan.folder) ≠ []) := by
  -- The root has no manifest of its own, and below it the one that the run has written is the
  -- nearest.
  by_cases below : Route.ancestors (Route.ofPath sources.plan.folder) = []
  · right
    unfold Manifest.surroundingIn? Manifest.surrounding? Manifest.places
    rw [below]
    exact ⟨rfl, fun given => given.2 rfl⟩
  · obtain ⟨others, clientFiles, split⟩ := sources.exists_files_eq
    by_cases manifest : sources.plan.HasManifest
    · left
      obtain ⟨hasImplementation, known⟩ :=
        Option.isSome_iff_exists.mp (sources.hasManifest_iff.mp manifest)
      rw [known] at split
      obtain ⟨location, holds, written⟩ := carried.exists_last split
      have folder : Route.isAbsolute sources.plan.folder = true :=
        Route.isAbsolute_join absolute _
      exact ⟨Manifest.surroundingIn?_own folder below holds.fits holds.stands written, manifest,
        below⟩
    · right
      have none : sources.manifestOf? = none := by
        rw [sources.hasManifest_iff, Option.isSome_iff_ne_none, not_not] at manifest
        exact manifest
      rw [none, Option.map_none, Option.toList_none, List.append_nil] at split
      have kept := carried.kept (split ▸ clientFiles)
      exact ⟨Manifest.surroundingIn?_of_kept carried.whole grounded (direct manifest) kept,
        fun given => manifest given.1⟩

/-- The format that is asked for is the one that the run has. -/
theorem setsFormat_iff : SetsFormat tree arguments sources.plan ↔
    (arguments.moduleFormat.isSome = true ∧
      Manifest.surroundingIn? tree sources.plan.folder ≠ some sources.format ∧
      arguments.typeExtension = false) ∧
    sources.plan.HasManifest ∧ Route.ancestors (Route.ofPath sources.plan.folder) ≠ [] := by
  have resolved := (formats_eq_ok_iff.mp sources.formats).1
  constructor
  · rintro ⟨⟨format, asked, other⟩, unpinned, manifest, below⟩
    rw [asked] at resolved
    have same : format = sources.format := by
      have parsed : ModuleFormat.parse format.text = .ok sources.format := resolved
      rw [parse_text] at parsed
      exact Except.ok.inj parsed
    rw [same] at other
    exact ⟨⟨by rw [asked]; rfl, other, unpinned⟩, manifest, below⟩
  · rintro ⟨⟨asked, other, unpinned⟩, manifest, below⟩
    obtain ⟨text, given⟩ := Option.isSome_iff_exists.mp asked
    rw [given] at resolved
    exact ⟨⟨sources.format, by rw [given, text_of_parse resolved], other⟩, unpinned, manifest, below⟩

/-- A second run finds the formats of the first, but for an extension that pinned one. -/
theorem formats_after_iff (absolute : Route.isAbsolute base = true) (grounded : tree.Grounded)
    (carried : Carried tree made after sources.plan placed)
    (direct : ¬ sources.plan.HasManifest → tree.Direct (Route.ofPath sources.plan.folder)) :
    formats (Manifest.surroundingIn? after sources.plan.folder) arguments =
        .ok (sources.format, sources.extension) ↔
      ¬ SetsFormat tree arguments sources.plan := by
  obtain ⟨resolved, extension⟩ := formats_eq_ok_iff.mp sources.formats
  rw [setsFormat_iff]
  obtain ⟨own, writes⟩ | ⟨same, neither⟩ := surroundingIn?_after absolute grounded carried direct
  · rw [own, formats_eq_ok_iff, ← extension, extension_again_iff]
    constructor
    · intro given sets
      exact given.2 sets.1
    · intro given
      exact ⟨resolve_again resolved, fun sets => given ⟨sets, writes⟩⟩
  · rw [same]
    exact iff_of_true sources.formats fun sets => neither sets.2

end Formats

section Again

variable {sources : Sources tree.read base arguments}

theorem repeats_of_plan (carried : Carried tree made after plan placed)
    (planned : Run.plan after.read base arguments = .ok plan) : Repeats base arguments after :=
  ⟨after.fill placed, run_eq_ok_iff.mpr ⟨plan, planned, carried.write_again⟩, carried.get?_again⟩

theorem repeats_of_formats (carried : Carried tree made after sources.plan placed)
    (spared : sources.plan.Spares after (Route.toRead (Route.join base arguments.source)))
    (formats : Run.formats (Manifest.surroundingIn? after sources.plan.folder) arguments =
      .ok (sources.format, sources.extension)) : Repeats base arguments after := by
  have source := carried.readSource spared sources.source
  have planned : Run.plan after.read base arguments = .ok sources.plan :=
    plan_eq_ok_iff.mpr ⟨⟨sources.format, sources.extension, sources.text, sources.schema,
      sources.document, sources.artifact, formats, source, sources.decoded, sources.generated⟩, rfl⟩
  exact repeats_of_plan carried planned

/-- Without a manifest, the files depend on the format through their extension only, which is
`d.ts` when no format is asked for or pinned. -/
theorem repeats_of_no_manifest (carried : Carried tree made after sources.plan placed)
    (spared : sources.plan.Spares after (Route.toRead (Route.join base arguments.source)))
    (manifest : ¬ sources.plan.HasManifest)
    (plain : arguments.moduleFormat.isSome = arguments.typeExtension) :
    Repeats base arguments after := by
  have source := carried.readSource spared sources.source
  obtain ⟨resolved, extension⟩ := formats_eq_ok_iff.mp sources.formats
  -- A format that is asked for is resolved alike again. Without one the second run may find another,
  -- on which none of the planned files depends.
  cases asked : arguments.moduleFormat with
  | some text =>
    apply repeats_of_formats carried spared
    apply formats_eq_ok_iff.mpr
    rw [asked] at plain resolved extension ⊢
    rw [resolve_some] at resolved ⊢
    rw [← plain, Option.isSome_some, resolve_of_pin] at extension ⊢
    exact ⟨resolved, extension⟩
  | none =>
    have none : sources.manifestOf? = none := by
      rw [sources.hasManifest_iff, Option.isSome_iff_ne_none, not_not] at manifest
      exact manifest
    obtain ⟨format, formats⟩ : ∃ format,
        Run.formats (Manifest.surroundingIn? after sources.plan.folder) arguments =
          .ok (format, sources.extension) := by
      refine ⟨(Manifest.surroundingIn? after sources.plan.folder).getD .esm, ?_⟩
      apply formats_eq_ok_iff.mpr
      rw [asked] at plain extension ⊢
      rw [← plain, Option.isSome_none, resolve_of_neither] at extension ⊢
      exact ⟨rfl, extension⟩
    obtain ⟨artifact, generated, same⟩ :=
      @Bundle.exists_plan_with _ sources.document _ _ _ _ _ none sources.generated format
    have planned : Run.plan after.read base arguments = .ok ⟨folderPath base arguments,
        Bundle.plan sources.schema sources.document artifact
          (arguments.settings format sources.extension) arguments.typesOnly⟩ :=
      plan_eq_ok_iff.mpr ⟨⟨format, sources.extension, sources.text, sources.schema,
        sources.document, artifact, formats, source, sources.decoded, generated⟩, rfl⟩
    rw [same] at planned
    exact repeats_of_plan carried planned

/-- The manifest tells the formats of the run by which it has been written. -/
theorem formats_of_repeats (carried : Carried tree made after sources.plan placed)
    (spared : sources.plan.Spares after (Route.toRead (Route.join base arguments.source)))
    (manifest : sources.plan.HasManifest) (repeats : Repeats base arguments after) :
    formats (Manifest.surroundingIn? after sources.plan.folder) arguments =
      .ok (sources.format, sources.extension) := by
  obtain ⟨again, ran, unchanged⟩ := repeats
  obtain ⟨_, planned, written⟩ := run_eq_ok_iff.mp ran
  obtain ⟨second, rfl⟩ := plan_eq_ok_iff.mp planned
  obtain ⟨_, _, carriedAgain⟩ := exists_carried written
  -- Both runs have read the same schema, so the second has a manifest too.
  have sameText : sources.text = second.text :=
    Except.ok.inj ((carried.readSource spared sources.source).symm.trans second.source)
  have sameSchema : sources.schema = second.schema := by
    have decoded := sources.decoded
    rw [sameText, second.decoded] at decoded
    exact (congrArg Prod.fst (Except.ok.inj decoded)).symm
  obtain ⟨hasImplementation, known⟩ :=
    Option.isSome_iff_exists.mp (sources.hasManifest_iff.mp manifest)
  have knownAgain : second.manifestOf? = some hasImplementation := by
    rw [← known, Sources.manifestOf?, Sources.manifestOf?, sameSchema]
  obtain ⟨others, _, split⟩ := sources.exists_files_eq
  obtain ⟨othersAgain, _, splitAgain⟩ := second.exists_files_eq
  rw [known] at split
  rw [knownAgain] at splitAgain
  obtain ⟨location, holds, first⟩ := carried.exists_last split
  obtain ⟨place, holdsAgain, last⟩ := carriedAgain.exists_last splitAgain
  have samePlace : location = place := by
    have leads := (holds.stands.grows carriedAgain.whole).follow
    exact Except.ok.inj (leads.symm.trans holdsAgain.stands.follow)
  rw [unchanged, ← samePlace, first] at last
  have texts := Entry.file.inj (Option.some.inj last)
  obtain ⟨sameFormat, sameExtension⟩ : sources.format = second.format ∧
      sources.extension = second.extension := Manifest.formats_eq_of_text_eq texts
  rw [sameFormat, sameExtension]
  exact second.formats

end Again

section Theorems

/-- A client whose name has no separator stays in the output folder. -/
theorem spares_of_outside (absolute : Route.isAbsolute base = true)
    (plain : ∀ c ∈ arguments.clientName.toList, c ≠ Route.separator)
    (planned : Run.plan tree.read base arguments = .ok plan)
    (ran : (run base arguments).run.run tree = (.ok (), after))
    (outside : Outside base arguments after) :
    plan.Spares after (Route.toRead (Route.join base arguments.source)) := by
  obtain ⟨_, found, written⟩ := run_eq_ok_iff.mp ran
  rw [planned] at found
  cases found
  obtain ⟨made, placed, carried⟩ := exists_carried written
  obtain ⟨sources, rfl⟩ := plan_eq_ok_iff.mp planned
  have folder : Route.isAbsolute sources.plan.folder = true := Route.isAbsolute_join absolute _
  -- A file at the place of the source would put the source into the output folder.
  intro file listed same
  have route : Route.ofPath (Route.join sources.plan.folder file.name) =
      file.name :: Route.ofPath sources.plan.folder := by
    obtain ⟨others, clientFiles, split⟩ := sources.exists_files_eq
    rw [split] at listed
    obtain other | manifest := List.mem_append.mp listed
    · obtain ⟨nonempty, whole⟩ := Bundle.plain_of_isClientFile (clientFiles file other) plain
      rw [Route.ofPath_join folder (Route.isAbsolute_of_plain whole),
        Route.ofPath_of_plain nonempty whole]
      rfl
    · obtain ⟨hasImplementation, _, rfl⟩ := Option.map_eq_some_iff.mp (Option.mem_toList.mp manifest)
      exact Manifest.ofPath_join_fileName folder
  obtain ⟨place, _, holds⟩ := exists_right_of_forall₂ carried.holds listed
  have stands := holds.stands
  have leads := stands.follow
  rw [same] at leads
  rw [route] at stands
  generalize place.1 = location at stands leads
  cases stands with
  | intro offers _ =>
    exact outside _ _ offers.follows leads (List.suffix_cons file.name _)

/-- A run that has succeeded repeats itself unless it sets the format of a package: the second
run then finds the format there, and writes a declaration file that does not pin it. -/
theorem repeats_iff_not_setsFormat (absolute : Route.isAbsolute base = true)
    (grounded : tree.Grounded) (planned : Run.plan tree.read base arguments = .ok plan)
    (ran : (run base arguments).run.run tree = (.ok (), after))
    (spared : plan.Spares after (Route.toRead (Route.join base arguments.source)))
    (direct : ¬ plan.HasManifest → arguments.moduleFormat.isSome ≠ arguments.typeExtension →
      tree.Direct (Route.ofPath plan.folder)) :
    Repeats base arguments after ↔ ¬ SetsFormat tree arguments plan := by
  obtain ⟨_, found, written⟩ := run_eq_ok_iff.mp ran
  rw [planned] at found
  cases found
  obtain ⟨made, placed, carried⟩ := exists_carried written
  obtain ⟨sources, rfl⟩ := plan_eq_ok_iff.mp planned
  by_cases manifest : sources.plan.HasManifest
  · rw [← formats_after_iff absolute grounded carried fun none => absurd manifest none]
    constructor
    · exact formats_of_repeats carried spared manifest
    · exact repeats_of_formats carried spared
  · apply iff_of_true _ fun sets => manifest sets.manifest
    by_cases plain : arguments.moduleFormat.isSome = arguments.typeExtension
    · exact repeats_of_no_manifest carried spared manifest plain
    · apply repeats_of_formats carried spared
      rw [formats_after_iff absolute grounded carried fun none => direct none plain]
      exact fun sets => manifest sets.manifest

end Theorems

instance (plan : Plan) : Decidable plan.HasManifest :=
  inferInstanceAs (Decidable (∃ file ∈ plan.files, _))

/-! Four runs. A service without operations is enough: the first run repeats itself, and each
of the others fails to in a way of its own. -/

section Runs
variable {format : ModuleFormat} {extension : TypeExtension}

theorem run_eq_write (sources : Sources tree.read base arguments) :
    (run base arguments).run.run tree = sources.plan.write.run.run tree := by
  rw [run_eq_match, plan_eq_ok_iff.mpr ⟨sources, rfl⟩]

theorem eq_of_succeeds {outcome : Except RunFault Unit × FileTree} (succeeds : outcome.1 = .ok ()) :
    outcome = (.ok (), outcome.2) :=
  Prod.ext succeeds rfl

def artifactOf (schema : ServiceSchema) (settings : Settings) : Artifact :=
  (generate schema settings).toOption.getD ⟨"", ""⟩

theorem generate_artifactOf {schema : ServiceSchema} {settings : Settings}
    (succeeds : (generate schema settings).isOk = true) :
    generate schema settings = .ok (artifactOf schema settings) := by
  unfold artifactOf
  cases found : generate schema settings with
  | ok artifact => rfl
  | error fault =>
    rw [found] at succeeds
    cases succeeds

def bareDocument : Json.Value := .object (Json.ofStrings [("openapi", "3.0.0")])

def bareText : String := bareDocument.pretty 0

def bareSchema : ServiceSchema := .openApi ⟨[], .empty, []⟩

def commonManifest : String := (Json.Value.object []).pretty 0

def bareTree : FileTree :=
  ⟨[(["work"], .folder), (["schema.json", "work"], .file bareText), (["lib", "work"], .folder),
    (["package.json", "lib", "work"], .file commonManifest)]⟩

theorem schemaOf_bareText : schemaOf bareText = .ok (bareSchema, bareDocument) := by
  have read : Json.read? bareText = some bareDocument := Json.read?_pretty_ofStrings (by decide)
  unfold schemaOf SourceText.decode?
  rw [read]
  rfl

theorem declaredFormat?_commonManifest : Manifest.declaredFormat? commonManifest = some .cjs := by
  have read : Json.read? commonManifest = some (.object []) :=
    @Json.read?_pretty_ofStrings [] (by decide)
  rw [Manifest.declaredFormat?, read]
  rfl

theorem grounded_bareTree : bareTree.Grounded :=
  FileTree.grounded_of_entries (by decide +kernel)

def bareSources (formats : Run.formats (Manifest.surroundingIn? tree (folderPath base arguments))
      arguments = .ok (format, extension))
    (source : readSource tree.read base arguments.source = .ok bareText)
    (succeeds : (generate bareSchema (arguments.settings format extension)).isOk = true) :
    Sources tree.read base arguments :=
  ⟨format, extension, bareText, bareSchema, bareDocument,
    artifactOf bareSchema (arguments.settings format extension), formats, source,
    schemaOf_bareText, generate_artifactOf succeeds⟩

def standardSources : Sources bareTree.read "/work" (Arguments.ofSource "schema.json") :=
  @bareSources _ _ _ .esm .dts (by decide +kernel) (by decide +kernel) (by decide +kernel)

def standardTree : FileTree := (standardSources.plan.write.run.run bareTree).2

theorem outside_of_follow {folder source : Location}
    (folderThere : tree.follow (Route.ofPath (folderPath base arguments)) = .ok folder)
    (sourceThere : tree.follow (Route.toRead (Route.join base arguments.source)) = .ok source)
    (apart : ¬ folder <:+ source) : Outside base arguments tree := by
  intro found other led ledToo
  rw [folderThere] at led
  rw [sourceThere] at ledToo
  cases led
  cases ledToo
  exact apart

theorem standard_repeats :
    (run "/work" (Arguments.ofSource "schema.json")).run.run bareTree = (.ok (), standardTree) ∧
      Repeats "/work" (Arguments.ofSource "schema.json") standardTree := by
  have ran : (run "/work" (Arguments.ofSource "schema.json")).run.run bareTree =
      (.ok (), standardTree) := by
    rw [run_eq_write standardSources]
    exact eq_of_succeeds (by decide +kernel)
  have planned := plan_eq_ok_iff.mpr ⟨standardSources, rfl⟩
  have outside : Outside "/work" (Arguments.ofSource "schema.json") standardTree :=
    @outside_of_follow _ _ _ ["client", "work"] ["schema.json", "work"] (by decide +kernel)
      (by decide +kernel) (by decide)
  have spared := spares_of_outside (by decide) (List.forall_mem_ne'.mpr (by decide)) planned ran outside
  have repeats := repeats_iff_not_setsFormat (by decide) grounded_bareTree planned ran spared
    fun _ plain => absurd rfl plain
  apply And.intro ran (repeats.mpr _)
  rintro ⟨⟨format, asked, _⟩, _⟩
  cases asked

def asking : Arguments := { Arguments.ofSource "schema.json" with moduleFormat := some "esm" }

def askingSources : Sources bareTree.read "/work" asking :=
  @bareSources _ _ _ .esm .dmts (by decide +kernel) (by decide +kernel) (by decide +kernel)

def askingTree : FileTree := (askingSources.plan.write.run.run bareTree).2

theorem asking_not_repeats : (run "/work" asking).run.run bareTree = (.ok (), askingTree) ∧
    ¬ Repeats "/work" asking askingTree := by
  have wrote : askingSources.plan.write.run.run bareTree = (.ok (), askingTree) :=
    eq_of_succeeds (by decide +kernel)
  have ran := (run_eq_write askingSources).trans wrote
  apply And.intro ran
  intro repeats
  obtain ⟨made, placed, carried⟩ := exists_carried wrote
  have manifest : askingSources.plan.HasManifest := by decide +kernel
  have outside : Outside "/work" asking askingTree :=
    @outside_of_follow _ _ _ ["client", "work"] ["schema.json", "work"] (by decide +kernel)
      (by decide +kernel) (by decide)
  have spared := spares_of_outside (by decide) (List.forall_mem_ne'.mpr (by decide))
    (plan_eq_ok_iff.mpr ⟨askingSources, rfl⟩) ran outside
  have formats := formats_of_repeats carried spared manifest repeats
  have kept := (formats_after_iff (by decide) grounded_bareTree carried
    fun none => absurd manifest none).mp formats
  exact kept ⟨⟨.esm, rfl, by decide +kernel⟩, rfl, manifest, by decide +kernel⟩

/-- A way into the package that leads through a folder which the run makes. -/
def detouring : Arguments :=
  { Arguments.ofSource "schema.json" with
    frontend := true, folder := some "made/../lib", moduleFormat := some "cjs" }

def detouringSources : Sources bareTree.read "/work" detouring :=
  @bareSources _ _ _ .cjs .dcts (by decide +kernel) (by decide +kernel) (by decide +kernel)

def detouringTree : FileTree := (detouringSources.plan.write.run.run bareTree).2

theorem surroundingIn?_detouringTree :
    Manifest.surroundingIn? detouringTree (folderPath "/work" detouring) = some .cjs := by
  have nearest : Manifest.places (Route.ofPath (folderPath "/work" detouring)) =
      ["package.json", "lib", "..", "made", "work"] ::
        [["package.json", "..", "made", "work"], ["package.json", "made", "work"],
          ["package.json", "work"]] := by
    decide +kernel
  exact Manifest.surrounding?_of_first nearest (by decide +kernel) declaredFormat?_commonManifest

def detouringAgain : Sources detouringTree.read "/work" detouring :=
  @bareSources _ _ _ .cjs .dts (by rw [surroundingIn?_detouringTree]; decide)
    (by decide +kernel) (by decide +kernel)

theorem detouring_not_repeats : (run "/work" detouring).run.run bareTree = (.ok (), detouringTree) ∧
    ¬ Repeats "/work" detouring detouringTree := by
  have wrote : detouringSources.plan.write.run.run bareTree = (.ok (), detouringTree) :=
    eq_of_succeeds (by decide +kernel)
  apply And.intro ((run_eq_write detouringSources).trans wrote)
  rintro ⟨again, ran, same⟩
  rw [run_eq_write detouringAgain] at ran
  have unchanged := same ["api-types.d.ts", "lib", "work"]
  have result : (detouringAgain.plan.write.run.run detouringTree).2 = again :=
    congrArg Prod.snd ran
  rw [← result] at unchanged
  exact absurd unchanged (by decide +kernel)

/-- A client that is named for the file from which it is made, and goes to where that file is. -/
def overwriting : Arguments :=
  { Arguments.ofSource "pets.schema.graphql" with name := some "../pets", folder := some "lib" }

def emptyText : String := "\x7b\"__schema\":\x7b\"types\":[]\x7d\x7d"

def emptyDocument : Json.Value := .object [("__schema", .object [("types", .array [])])]

def emptySchema : ServiceSchema := .graphQl ⟨none, none, none, []⟩

def emptyTree : FileTree :=
  ⟨[(["work"], .folder), (["pets.schema.graphql", "work"], .file emptyText)]⟩

theorem schemaOf_emptyText : schemaOf emptyText = .ok (emptySchema, emptyDocument) := by
  have scanned : Json.Token.scan emptyText.toList.length emptyText.toList =
      some [.openObject, .scalar (.string "__schema"), .colon, .openObject,
        .scalar (.string "types"), .colon, .openArray, .closeArray, .closeObject, .closeObject] := rfl
  have read : Json.read? emptyText = some emptyDocument := by
    change Json.Token.scan emptyText.toList.length emptyText.toList >>= Json.assemble .value [] = _
    rw [scanned]
    simp [Json.assemble, Json.assemble.begin, Json.deepest, Json.Value.insert, emptyDocument]
  unfold schemaOf SourceText.decode?
  rw [read]
  rfl

/-- No text at all is no schema. -/
theorem schemaOf_nothing : (schemaOf "").isOk = false := by
  have read : Json.read? "" = none := by
    change Json.assemble .value [] [] = none
    simp [Json.assemble]
  unfold schemaOf SourceText.decode?
  rw [read]
  decide +kernel

def overwritingSources : Sources emptyTree.read "/work" overwriting where
  format := .esm
  extension := .dts
  text := emptyText
  schema := emptySchema
  document := emptyDocument
  artifact := artifactOf emptySchema (overwriting.settings .esm .dts)
  formats := by decide +kernel
  source := by decide +kernel
  decoded := schemaOf_emptyText
  generated := generate_artifactOf (by decide +kernel)

def overwritingTree : FileTree := (overwritingSources.plan.write.run.run emptyTree).2

theorem overwriting_not_repeats :
    (run "/work" overwriting).run.run emptyTree = (.ok (), overwritingTree) ∧
      ¬ Repeats "/work" overwriting overwritingTree := by
  have wrote : overwritingSources.plan.write.run.run emptyTree = (.ok (), overwritingTree) :=
    eq_of_succeeds (by decide +kernel)
  apply And.intro ((run_eq_write overwritingSources).trans wrote)
  rintro ⟨again, ran, _⟩
  obtain ⟨_, planned, _⟩ := run_eq_ok_iff.mp ran
  obtain ⟨second, _⟩ := plan_eq_ok_iff.mp planned
  have source : readSource overwritingTree.read "/work" overwriting.source = .ok "" := by
    decide +kernel
  have read := second.source
  rw [source] at read
  have nothing := schemaOf_nothing
  rw [Except.ok.inj read, second.decoded] at nothing
  cases nothing

/-- Neither a format that is asked for, nor a way through a folder that is made, nor a client that
takes the place of its source lets every run repeat itself. -/
theorem runs_not_repeated :
    ((run "/work" asking).run.run bareTree = (.ok (), askingTree) ∧
      ¬ Repeats "/work" asking askingTree) ∧
    ((run "/work" detouring).run.run bareTree = (.ok (), detouringTree) ∧
      ¬ Repeats "/work" detouring detouringTree) ∧
    ((run "/work" overwriting).run.run emptyTree = (.ok (), overwritingTree) ∧
      ¬ Repeats "/work" overwriting overwritingTree) :=
  ⟨asking_not_repeats, detouring_not_repeats, overwriting_not_repeats⟩

end Runs

end TypedClient.Run
