import TypedClient.Proofs.Runs.FileReferences

/-! What a run that fails leaves behind.

A run that cannot plan its client touches nothing. One that cannot write a file stops there: the files
before it are written, and all others are as they were when the output folder had been made. The file
that stops it is so as well, unless the disk opens it and does not take all of its text.
-/

set_option autoImplicit false

namespace TypedClient.Run

variable {base : String} {arguments : Arguments} {plan : Plan} {disk : Disk}
  {tree made after : FileTree} {fault : RunFault}

section Planning
variable {read : Reader} {source : String}

def formatsIn (read : Reader) (base : String) (arguments : Arguments) :
    Except Fault (ModuleFormat × TypeExtension) :=
  formats (Manifest.surrounding? (fun route => (read route).toOption)
    (Route.ofPath (folderPath base arguments))) arguments

/-- Why there is no plan: a module format that is none, a source that is not read, a text that holds
no schema, or a schema that no client is generated for. Each of them is come to behind the others. -/
inductive Refuses (read : Reader) (base : String) (arguments : Arguments) : RunFault → Prop where
  | format {fault : Fault} : formatsIn read base arguments = .error fault →
      Refuses read base arguments (.generation fault)
  | source {found : ModuleFormat × TypeExtension} {reason : FileFault} :
      formatsIn read base arguments = .ok found →
      readPath read base arguments.source = .error reason →
      Refuses read base arguments (.sourceNotRead arguments.source reason)
  | schema {found : ModuleFormat × TypeExtension} {text : String} {fault : Fault} :
      formatsIn read base arguments = .ok found →
      readPath read base arguments.source = .ok text → schemaOf text = .error fault →
      Refuses read base arguments (.generation fault)
  | client {format : ModuleFormat} {extension : TypeExtension} {text : String}
      {schema : ServiceSchema} {document : Json.Value} {fault : Fault} :
      formatsIn read base arguments = .ok (format, extension) →
      readPath read base arguments.source = .ok text → schemaOf text = .ok (schema, document) →
      generate schema (arguments.settings format extension) = .error fault →
      Refuses read base arguments (.generation fault)

theorem mapError_eq_error_iff {ε ε' α : Type} {rename : ε → ε'} {outcome : Except ε α}
    {fault : ε'} : outcome.mapError rename = .error fault ↔
      ∃ reason, outcome = .error reason ∧ rename reason = fault := by
  cases outcome <;> simp [Except.mapError]

theorem readSource_of_file (fromFile : isRemote source = false) :
    readSource read base source = (readPath read base source).mapError (.sourceNotRead source) :=
  if_neg (by rw [fromFile]; nofun)

theorem plan_eq_error_iff (fromFile : isRemote arguments.source = false) :
    Run.plan read base arguments = .error fault ↔ Refuses read base arguments fault := by
  unfold Run.plan
  rw [readSource_of_file fromFile]
  simp only [generation, bind_eq_error_iff, mapError_eq_error_iff, mapError_eq_ok_iff]
  constructor
  · rintro (⟨_, failed, rfl⟩ | ⟨_, found, ⟨_, failed, rfl⟩ | ⟨_, text, ⟨_, failed, rfl⟩ |
      ⟨_, schema, ⟨_, failed, rfl⟩ | ⟨_, _, ⟨⟩⟩⟩⟩⟩)
    · exact .format failed
    · exact .source found failed
    · exact .schema found text failed
    · exact .client found text schema failed
  · rintro (failed | ⟨found, failed⟩ | ⟨found, text, failed⟩ | ⟨found, text, schema, failed⟩)
    · exact .inl ⟨_, failed, rfl⟩
    · exact .inr ⟨_, found, .inl ⟨_, failed, rfl⟩⟩
    · exact .inr ⟨_, found, .inr ⟨_, text, .inl ⟨_, failed, rfl⟩⟩⟩
    · exact .inr ⟨_, found, .inr ⟨_, text, .inr ⟨_, schema, .inl ⟨_, failed, rfl⟩⟩⟩⟩

end Planning

section Writing
variable {folder taken : String} {file : PlannedFile} {files done spoiled rest : List PlannedFile}
  {placed : List (Location × String)}

def Plan.route (plan : Plan) (file : PlannedFile) : Route :=
  Route.ofPath (Route.join plan.folder file.name)

/-- Some files of a plan are written: each of them is there with its text. Of the rest none has come
or changed, and neither has anything that is not at the place of a written or a spoiled one. -/
structure Plan.LeftAt (plan : Plan) (made after : FileTree) (done spoiled rest : List PlannedFile) :
    Prop where
  written : ∀ file ∈ done, after.read (plan.route file) = .ok file.contents
  others : ∀ file ∈ rest, ∀ text,
    after.read (plan.route file) = .ok text ↔ made.read (plan.route file) = .ok text
  kept : ∀ location,
    (∀ file ∈ done ++ spoiled, after.follow (plan.route file) ≠ .ok location) →
      after.get? location = made.get? location

theorem Plan.LeftAt.spoil (left : plan.LeftAt made after done [] (file :: rest)) :
    plan.LeftAt made after done [file] rest where
  written := left.written
  others other listed := left.others other (List.mem_cons_of_mem file listed)
  kept location apart := left.kept location fun other listed =>
    apart other (by simpa using .inl (by simpa using listed))

/-- A file that holds another text than its own is a spoiled one. -/
theorem Plan.LeftAt.of_taken
    (left : plan.LeftAt made after (done ++ [{ file with contents := taken }]) [] rest) :
    plan.LeftAt made after done [file] rest where
  written other listed := left.written other (List.mem_append_left _ listed)
  others := left.others
  kept location apart := by
    refine left.kept location fun other listed => ?_
    rw [List.append_nil, List.mem_append, List.mem_singleton] at listed
    rcases listed with written | rfl
    · exact apart other (List.mem_append_left _ written)
    · exact apart file (List.mem_append_right _ (List.mem_singleton_self file))

theorem of_failed_writeFile
    (failed : (writeFile disk folder file).run.run tree = (.error fault, after)) :
    (∃ reason, fault = .fileNotWritten (Route.join folder file.name) reason) ∧
      (after = tree ∨ ¬disk.Completes ∧ checkPath (Route.join folder file.name) = .ok () ∧
        ∃ taken, tree.write (Route.ofPath (Route.join folder file.name)) taken = .ok after) := by
  unfold writeFile at failed
  obtain ⟨reason, stopped, named⟩ := run_adapt_eq_error_iff.mp failed
  refine ⟨⟨reason, named.symm⟩, ?_⟩
  rcases run_bind_eq_error_iff.mp stopped with unfit | ⟨_, middle, checked, wrote⟩
  · exact .inl (Prod.mk.inj unfit).2.symm
  · obtain ⟨fits, rfl⟩ := Prod.mk.inj checked
    rcases FileTree.writeOn_cases wrote with ⟨⟨⟩, _⟩ | ⟨_, same⟩ | ⟨_, taken, _, _, stops, written⟩
    · exact .inl same
    · refine .inr ⟨fun completes => ?_, fits, taken, written⟩
      rw [completes] at stops
      cases stops

/-- The files are written up to the first one that cannot be. -/
theorem of_failed_writeFiles
    (failed : (files.forM (writeFile disk folder)).run.run tree = (.error fault, after)) :
    ∃ done file rest before, files = done ++ file :: rest ∧
      (done.forM (writeFile disk folder)).run.run tree = (.ok (), before) ∧
      (writeFile disk folder file).run.run before = (.error fault, after) := by
  induction files generalizing tree with
  | nil => cases failed
  | cons file files ih =>
    -- Either nothing comes before the file that fails, or the first one does.
    rcases run_bind_eq_error_iff.mp failed with first | ⟨_, middle, first, others⟩
    · exact ⟨[], file, files, tree, rfl, rfl, first⟩
    · obtain ⟨done, stopped, rest, before, rfl, ran, last⟩ := ih others
      refine ⟨file :: done, stopped, rest, before, rfl, ?_, last⟩
      exact run_bind_eq_ok_iff.mpr ⟨(), middle, first, ran⟩

/-- Files on ways that end in different names are at different places. -/
theorem nodup_places (holds : List.Forall₂ (Holds after folder) done placed)
    (distinct : ((done.map (·.name)).map (Bundle.lastName? folder)).Nodup) :
    (placed.map Prod.fst).Nodup := by
  have names : (placed.map Prod.fst).map List.head? =
      (done.map (·.name)).map (Bundle.lastName? folder) := by
    rw [List.map_map, List.map_map]
    exact (map_eq_map_of_forall₂ (holds.imp fun _ _ each => each.stands.head.symm)).symm
  exact List.Nodup.of_map List.head? (names ▸ distinct)

/-- No place of a written file is called like the end of the way to another. -/
theorem apart_of_rest {name : String} {here : Location}
    (holds : List.Forall₂ (Holds after folder) done placed)
    (distinct : (((done ++ rest).map (·.name)).map (Bundle.lastName? folder)).Nodup)
    (listed : file ∈ rest) (named : Bundle.lastName? folder file.name = some name) :
    ∀ place ∈ placed, place.1 ≠ name :: here := by
  intro place inside same
  obtain ⟨other, written, each⟩ := exists_left_of_forall₂ holds inside
  have head : Bundle.lastName? folder other.name = some name := by
    rw [Bundle.lastName?, ← each.stands.head, same]
    rfl
  rw [List.map_append, List.map_append, List.nodup_append] at distinct
  exact distinct.2.2 _ (List.mem_map_of_mem (List.mem_map_of_mem written)) _
    (List.mem_map_of_mem (List.mem_map_of_mem listed)) (head.trans named.symm)

/-- A file that is not written yet is read where, and as, it was read before. -/
theorem read_rest_iff {text : String} (holds : List.Forall₂ (Holds after folder) done placed)
    (grows : made.Grows after) (filled : after = made.fill placed)
    (distinct : (((done ++ rest).map (·.name)).map (Bundle.lastName? folder)).Nodup)
    (listed : file ∈ rest)
    (plain : ∀ special ∈ [Route.self, Route.around],
      Bundle.lastName? folder file.name ≠ some special) :
    after.read (Route.ofPath (Route.join folder file.name)) = .ok text ↔
      made.read (Route.ofPath (Route.join folder file.name)) = .ok text := by
  have below := below_of_holds holds
  cases way : Route.ofPath (Route.join folder file.name) with
  | nil => exact Iff.rfl
  | cons name outer =>
    have named : Bundle.lastName? folder file.name = some name := congrArg List.head? way
    rw [named] at plain
    -- Files do not take the places of folders, so every way leads where it led before.
    have folders : ∀ place, after.get? place = some .folder → made.get? place = some .folder := by
      rw [filled]
      exact fun place => FileTree.get?_of_fill_folder below
    refine FileTree.read_eq_ok_iff_of_back grows ?_ ?_ ?_ ?_
    · rintro rfl
      exact plain _ (.head _) rfl
    · rintro rfl
      exact plain _ (.tail _ (.head _)) rfl
    · intro here text
      rw [filled, FileTree.get?_fill_of_not_mem below (apart_of_rest holds distinct listed named)]
    · intro here follows folder _
      exact ⟨FileTree.follow_of_folders folders follows folder, folders here folder⟩

theorem leftAt_of_holds
    (distinct : (((done ++ rest).map (·.name)).map (Bundle.lastName? plan.folder)).Nodup)
    (plain : ∀ file ∈ rest, ∀ special ∈ [Route.self, Route.around],
      Bundle.lastName? plan.folder file.name ≠ some special)
    (holds : List.Forall₂ (Holds after plan.folder) done placed) (grows : made.Grows after)
    (filled : after = made.fill placed) : plan.LeftAt made after done [] rest := by
  have below := below_of_holds holds
  constructor
  case written =>
    intro file listed
    obtain ⟨⟨location, text⟩, inside, each⟩ := exists_right_of_forall₂ holds listed
    obtain rfl : text = file.contents := each.text
    rw [List.map_append, List.map_append] at distinct
    refine each.stands.read ?_
    rw [filled, FileTree.get?_fill_of_mem (nodup_places holds distinct.of_append_left) below inside]
  case others =>
    intro file listed text
    exact read_rest_iff holds grows filled distinct listed (plain file listed)
  case kept =>
    intro location unwritten
    rw [filled, FileTree.get?_fill_of_not_mem below]
    intro place inside same
    obtain ⟨file, listed, each⟩ := exists_left_of_forall₂ holds inside
    exact unwritten file (List.mem_append_left _ listed) (same ▸ each.stands.follow)

/-- What a disk has taken of a file is like a file with another text. -/
theorem leftAt_of_taken {before : FileTree}
    (distinct : (((done ++ file :: rest).map (·.name)).map (Bundle.lastName? plan.folder)).Nodup)
    (plain : ∀ file ∈ rest, ∀ special ∈ [Route.self, Route.around],
      Bundle.lastName? plan.folder file.name ≠ some special)
    (holds : List.Forall₂ (Holds before plan.folder) done placed) (grows : made.Grows before)
    (filled : before = made.fill placed)
    (fits : checkPath (Route.join plan.folder file.name) = .ok ())
    (written : before.write (plan.route file) taken = .ok after) :
    plan.LeftAt made after done [file] rest := by
  obtain ⟨location, stands, more, rfl⟩ := FileTree.of_write written
  have each : List.Forall₂ (Holds (before.put location (.file taken)) plan.folder)
      (done ++ [{ file with contents := taken }]) (placed ++ [(location, taken)]) :=
    List.rel_append (holds.imp fun _ _ each => each.grows more) (.cons ⟨fits, stands, rfl⟩ .nil)
  refine Plan.LeftAt.of_taken (leftAt_of_holds ?_ plain each (grows.trans more) ?_)
  · simpa using distinct
  · rw [filled, FileTree.fill_concat]

end Writing

section Runs

/-- Whether the output folder could be made or not, nothing but folders is new. -/
theorem builds_of_createFolder {folder : String} {outcome : Except RunFault Unit}
    (ran : (createFolder folder).run.run tree = (outcome, after)) : tree.Builds after := by
  rw [createFolder, run_adapt] at ran
  obtain ⟨_, rfl⟩ := Prod.mk.inj ran
  cases checkPath folder with
  | error reason => exact .refl tree
  | ok _ =>
    change tree.Builds ((FileTree.makeFolders (Route.ofPath folder)).run.run tree).2
    exact FileTree.builds_of_settleAll rfl

/-- A run that refuses its arguments changes nothing at all. Any other makes its folder, and if it has
made that and fails later, it has written the files before the one that it fails for. That one is as it was
unless the disk stops, and all others are so whatever the disk does. -/
theorem failed_run_leaves (disk : Disk) (fromFile : isRemote arguments.source = false)
    (failed : (runOn disk base arguments).run.run tree = (.error fault, after)) :
    (∀ reason, Refuses tree.read base arguments reason → fault = reason ∧ after = tree) ∧
    ∀ plan, Run.plan tree.read base arguments = .ok plan → ∃ made, tree.Builds made ∧
      ((createFolder plan.folder).run.run tree = (.error fault, made) ∧ after = made ∨
        (createFolder plan.folder).run.run tree = (.ok (), made) ∧
          ∃ done file rest reason, plan.files = done ++ file :: rest ∧
            fault = .fileNotWritten (Route.join plan.folder file.name) reason ∧
            plan.LeftAt made after done [file] rest ∧
            (disk.Completes → plan.LeftAt made after done [] (file :: rest))) := by
  rw [runOn_eq_match] at failed
  constructor
  case left =>
    intro reason refuses
    rw [(plan_eq_error_iff fromFile).mpr refuses] at failed
    cases failed
    exact ⟨rfl, rfl⟩
  case right =>
    intro plan planned
    rw [planned] at failed
    -- The folder comes first; only behind it is there a file to fail for.
    rcases run_bind_eq_error_iff.mp failed with stopped | ⟨_, made, folder, others⟩
    · exact ⟨after, builds_of_createFolder stopped, .inl ⟨stopped, rfl⟩⟩
    · refine ⟨made, builds_of_createFolder folder, .inr ⟨folder, ?_⟩⟩
      obtain ⟨done, file, rest, before, split, ran, last⟩ := of_failed_writeFiles others
      obtain ⟨placed, holds, grows, filled⟩ := of_writeFiles ran
      obtain ⟨⟨reason, named⟩, left⟩ := of_failed_writeFile last
      refine ⟨done, file, rest, reason, split, named, ?_⟩
      have distinct :
          (((done ++ file :: rest).map (·.name)).map (Bundle.lastName? plan.folder)).Nodup := by
        obtain ⟨sources, rfl⟩ := plan_eq_ok_iff.mp planned
        exact split ▸ Bundle.nodup_lastNames_plan _
      have plain : ∀ other ∈ file :: rest, ∀ special ∈ [Route.self, Route.around],
          Bundle.lastName? plan.folder other.name ≠ some special := by
        intro other listed special dots
        obtain ⟨sources, rfl⟩ := plan_eq_ok_iff.mp planned
        exact Bundle.lastName?_ne_of_mem_plan _ (split ▸ List.mem_append_right done listed) dots
      -- The file is not opened, or the disk stops in the middle of it.
      rcases left with rfl | ⟨stops, fits, taken, written⟩
      · have left := leftAt_of_holds distinct plain holds grows filled
        exact ⟨left.spoil, fun _ => left⟩
      · exact ⟨leftAt_of_taken distinct (fun other listed => plain other (.tail _ listed)) holds grows
          filled fits written, fun completes => absurd completes stops⟩

def blockedTree : FileTree :=
  ⟨(["client.d.ts", "client", "work"], .folder) :: (["client", "work"], .folder) ::
    bareTree.entries⟩

theorem isOk_generate_standard :
    (generate bareSchema ((Arguments.ofSource "schema.json").settings .esm .dts)).isOk = true := by
  decide +kernel

def blockedSources : Sources blockedTree.read "/work" (Arguments.ofSource "schema.json") :=
  @bareSources _ _ _ .esm .dts (by decide +kernel) (by decide +kernel) isOk_generate_standard

def blockedFault : RunFault := .fileNotWritten "/work/client/client.d.ts" .isAFolder

def blockedAfter : FileTree := (blockedSources.plan.write.run.run blockedTree).2

theorem eq_of_fails {outcome : Except RunFault Unit × FileTree} (fails : outcome.1 = .error fault) :
    outcome = (.error fault, outcome.2) :=
  Prod.ext fails rfl

theorem blocked_run_leaves :
    (runOn .sound "/work" (Arguments.ofSource "schema.json")).run.run blockedTree =
      (.error blockedFault, blockedAfter) ∧
    ∃ done file rest reason, blockedSources.plan.files = done ++ file :: rest ∧
      blockedFault = .fileNotWritten (Route.join blockedSources.plan.folder file.name) reason ∧
      blockedSources.plan.LeftAt blockedTree blockedAfter done [] (file :: rest) := by
  have ran : (runOn .sound "/work" (Arguments.ofSource "schema.json")).run.run blockedTree =
      (.error blockedFault, blockedAfter) := by
    refine (run_eq_write blockedSources).trans ?_
    exact eq_of_fails (by decide +kernel)
  have there : blockedTree.isFolder (Route.ofPath blockedSources.plan.folder) = true := by
    decide +kernel
  have folder : (createFolder blockedSources.plan.folder).run.run blockedTree =
      (.ok (), blockedTree) :=
    createFolder_eq_ok_iff.mpr ⟨by decide +kernel, FileTree.makeFolders_of_isFolder there⟩
  have planned := plan_eq_ok_iff.mpr ⟨blockedSources, rfl⟩
  obtain ⟨made, _, ⟨stopped, _⟩ | ⟨founded, done, file, rest, reason, split, named, _, left⟩⟩ :=
    (failed_run_leaves .sound (by decide) ran).2 _ planned
  · rw [folder] at stopped
    cases stopped
  · rw [folder] at founded
    cases founded
    exact ⟨ran, done, file, rest, reason, split, named, left Disk.completes_sound⟩

def fullDisk : Disk where
  refuses? _ _ := none
  stops? _ location _ :=
    if location.head? = some "client.d.ts" then
      some (.other "No space left on device (os error 28)", "")
    else none

-- Disks that do not complete what they open leave a file that was never planned.
theorem full_disk_empties_declarations :
    ((runOn fullDisk "/work" (Arguments.ofSource "schema.json")).run.run bareTree).2.read
      (Route.ofPath "/work/client/client.d.ts") = .ok "" := by
  rw [runOn_eq_match, plan_eq_ok_iff.mpr ⟨standardSources, rfl⟩]
  decide +kernel

end Runs

end TypedClient.Run
