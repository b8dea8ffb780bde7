import TypedClient.Proofs.Files.Filling
import TypedClient.Run

/-! What a run that succeeds has done to the tree.

First come the folders, then the files of the plan, each at a place to which it could be
written again. So a plan that has been carried out can be carried out once more, and fills the
same places with the same texts.
-/

set_option autoImplicit false

namespace TypedClient.Run

variable {base folder : String} {arguments : Arguments} {plan : Plan} {disk : Disk}
  {tree later after : FileTree} {file : PlannedFile} {files : List PlannedFile} {placed : List (Location × String)}

section Folders

theorem checkPath_eq_ok_iff {path : String} : checkPath path = .ok () ↔
    path.toList.contains '\x00' = false ∧ Route.isFollowed path = true := by
  unfold checkPath
  cases path.toList.contains '\x00' with
  | true => exact iff_of_false nofun (by simp)
  | false => cases Route.isFollowed path <;> simp

theorem createFolder_eq_ok_iff : (createFolder folder).run.run tree = (.ok (), later) ↔
    checkPath folder = .ok () ∧
      (FileTree.makeFolders (Route.ofPath folder)).run.run tree = (.ok (), later) := by
  unfold createFolder
  rw [run_adapt_eq_ok_iff, run_bind_eq_ok_iff]
  constructor
  · rintro ⟨_, middle, checked, made⟩
    obtain ⟨fits, rfl⟩ := Prod.mk.inj checked
    exact ⟨fits, made⟩
  · rintro ⟨fits, made⟩
    exact ⟨(), tree, congrArg (·, tree) fits, made⟩

end Folders

section Files

structure Holds (tree : FileTree) (folder : String) (file : PlannedFile)
    (place : Location × String) : Prop where
  fits : checkPath (Route.join folder file.name) = .ok ()
  stands : tree.Stands (Route.ofPath (Route.join folder file.name)) place.1
  text : place.2 = file.contents

theorem Holds.grows {place : Location × String} (holds : Holds tree folder file place)
    (grows : tree.Grows later) : Holds later folder file place :=
  { holds with stands := holds.stands.grows grows }

theorem below_of_holds (holds : List.Forall₂ (Holds tree folder) files placed) :
    ∀ place ∈ placed, place.1 ≠ [] := by
  intro place inside
  obtain ⟨file, _, each⟩ := exists_left_of_forall₂ holds inside
  exact each.stands.below

theorem writeFile_eq_ok_iff : (writeFile disk folder file).run.run tree = (.ok (), later) ↔
    checkPath (Route.join folder file.name) = .ok () ∧
      (FileTree.writeOn disk (Route.ofPath (Route.join folder file.name)) file.contents).run.run tree =
        (.ok (), later) := by
  unfold writeFile
  rw [run_adapt_eq_ok_iff, run_bind_eq_ok_iff]
  constructor
  · rintro ⟨_, middle, checked, wrote⟩
    obtain ⟨fits, rfl⟩ := Prod.mk.inj checked
    exact ⟨fits, wrote⟩
  · rintro ⟨fits, wrote⟩
    exact ⟨(), tree, congrArg (·, tree) fits, wrote⟩

/-- On any disk, a file that is written has all of its text. -/
theorem of_writeFile (written : (writeFile disk folder file).run.run tree = (.ok (), later)) :
    checkPath (Route.join folder file.name) = .ok () ∧
      tree.write (Route.ofPath (Route.join folder file.name)) file.contents = .ok later := by
  obtain ⟨fits, wrote⟩ := writeFile_eq_ok_iff.mp written
  rcases FileTree.writeOn_cases wrote with ⟨_, whole⟩ | ⟨⟨_, ⟨⟩⟩, _⟩ | ⟨_, _, _, ⟨⟩, _⟩
  exact ⟨fits, whole⟩

theorem writeFile_sound_of_ok (written : (writeFile disk folder file).run.run tree = (.ok (), later)) :
    (writeFile .sound folder file).run.run tree = (.ok (), later) := by
  obtain ⟨fits, whole⟩ := of_writeFile written
  exact writeFile_eq_ok_iff.mpr ⟨fits, FileTree.writeOn_sound_eq_ok_iff.mpr whole⟩

theorem writeFiles_sound_of_ok
    (written : (files.forM (writeFile disk folder)).run.run tree = (.ok (), later)) :
    (files.forM (writeFile .sound folder)).run.run tree = (.ok (), later) := by
  induction files generalizing tree with
  | nil => exact written
  | cons file files ih =>
    obtain ⟨_, middle, first, others⟩ := run_bind_eq_ok_iff.mp written
    exact run_bind_eq_ok_iff.mpr ⟨(), middle, writeFile_sound_of_ok first, ih others⟩

theorem of_writeFiles
    (written : (files.forM (writeFile disk folder)).run.run tree = (.ok (), later)) :
    ∃ placed, List.Forall₂ (Holds later folder) files placed ∧ tree.Grows later ∧
      later = tree.fill placed := by
  induction files generalizing tree with
  | nil =>
    cases written
    exact ⟨[], .nil, .refl _, rfl⟩
  | cons file files ih =>
    obtain ⟨_, middle, first, others⟩ := run_bind_eq_ok_iff.mp written
    obtain ⟨fits, wrote⟩ := of_writeFile first
    obtain ⟨location, stands, grows, rfl⟩ := FileTree.of_write wrote
    obtain ⟨placed, each, more, rfl⟩ := ih others
    exact ⟨(location, file.contents) :: placed, .cons ⟨fits, stands.grows more, rfl⟩ each,
      grows.trans more, rfl⟩

theorem writeFiles_of_holds (holds : List.Forall₂ (Holds tree folder) files placed) :
    (files.forM (writeFile .sound folder)).run.run tree = (.ok (), tree.fill placed) := by
  induction files generalizing tree placed with
  | nil =>
    cases holds
    rfl
  | cons file files ih =>
    cases holds with
    | cons first others =>
      rename_i place placed
      have wrote := first.stands.write file.contents
      obtain ⟨_, _, grows, _⟩ := FileTree.of_write wrote
      have written : (writeFile .sound folder file).run.run tree =
          (.ok (), tree.put place.1 (.file file.contents)) :=
        writeFile_eq_ok_iff.mpr ⟨first.fits, FileTree.writeOn_sound_eq_ok_iff.mpr wrote⟩
      apply run_bind_eq_ok_iff.mpr
      refine ⟨(), _, written, ?_⟩
      rw [FileTree.fill_cons, first.text]
      exact ih (others.imp fun _ _ each => each.grows grows)

end Files

section Plans
variable {made : FileTree}

/-- How a plan has been carried out: `made` is the tree when every folder was there. -/
structure Carried (tree made after : FileTree) (plan : Plan) (placed : List (Location × String)) :
    Prop where
  fits : checkPath plan.folder = .ok ()
  builds : tree.Builds made
  folder : made.isFolder (Route.ofPath plan.folder) = true
  grows : made.Grows after
  holds : List.Forall₂ (Holds after plan.folder) plan.files placed
  filled : after = made.fill placed

theorem exists_carried (written : (plan.writeOn disk).run.run tree = (.ok (), after)) :
    ∃ made placed, Carried tree made after plan placed := by
  obtain ⟨_, made, first, others⟩ := run_bind_eq_ok_iff.mp written
  obtain ⟨fits, folders⟩ := createFolder_eq_ok_iff.mp first
  obtain ⟨builds, folder⟩ := FileTree.of_makeFolders folders
  obtain ⟨placed, holds, grows, filled⟩ := of_writeFiles others
  exact ⟨made, placed, fits, builds, folder, grows, holds, filled⟩

namespace Carried

theorem whole (carried : Carried tree made after plan placed) : tree.Grows after :=
  carried.builds.grows.trans carried.grows

theorem get?_of_apart {location : Location} (carried : Carried tree made after plan placed)
    (apart : ∀ place ∈ placed, place.1 ≠ location) : after.get? location = made.get? location := by
  rw [carried.filled, FileTree.get?_fill_of_not_mem (below_of_holds carried.holds) apart]

/-- The last file of a plan is there with its text. -/
theorem exists_last (carried : Carried tree made after plan placed)
    (last : plan.files = files ++ [file]) :
    ∃ location, Holds after plan.folder file (location, file.contents) ∧
      after.get? location = some (.file file.contents) := by
  have holds := carried.holds
  rw [last, forall₂_append_left_iff] at holds
  obtain ⟨first, rest, _, ending, split⟩ := holds
  cases ending with
  | cons each none =>
    cases none
    rename_i place
    obtain ⟨location, content⟩ := place
    have text : content = file.contents := each.text
    subst text
    refine ⟨location, each, ?_⟩
    rw [carried.filled, split, FileTree.get?_fill_last each.stands.below]

/-- The plan can be carried out again, and then nothing changes. -/
theorem write_again (carried : Carried tree made after plan placed) :
    plan.write.run.run after = (.ok (), after.fill placed) := by
  apply run_bind_eq_ok_iff.mpr
  refine ⟨(), after, ?_, writeFiles_of_holds carried.holds⟩
  exact createFolder_eq_ok_iff.mpr
    ⟨carried.fits, FileTree.makeFolders_of_isFolder (carried.grows.isFolder carried.folder)⟩

theorem get?_again (carried : Carried tree made after plan placed) (location : Location) :
    (after.fill placed).get? location = after.get? location := by
  rw [carried.filled]
  exact FileTree.get?_fill_fill (below_of_holds carried.holds)

end Carried

theorem runOn_eq_match : (runOn disk base arguments).run.run tree =
    match Run.plan tree.read base arguments with
    | .ok plan => (plan.writeOn disk).run.run tree
    | .error fault => (.error fault, tree) := by
  change (match Run.plan tree.read base arguments with
    | .ok plan => plan.writeOn disk
    | .error fault => throw fault : Writing Unit).run.run tree = _
  split <;> rfl

theorem run_eq_match : (run base arguments).run.run tree =
    match Run.plan tree.read base arguments with
    | .ok plan => plan.write.run.run tree
    | .error fault => (.error fault, tree) :=
  runOn_eq_match

/-- A run that succeeds goes as on a sound disk. What holds of those runs holds of all. -/
theorem run_of_runOn (ran : (runOn disk base arguments).run.run tree = (.ok (), after)) :
    (run base arguments).run.run tree = (.ok (), after) := by
  rw [runOn_eq_match] at ran
  rw [run_eq_match]
  cases planned : Run.plan tree.read base arguments with
  | error fault =>
    rw [planned] at ran
    cases ran
  | ok plan =>
    rw [planned] at ran
    obtain ⟨_, made, first, others⟩ := run_bind_eq_ok_iff.mp ran
    exact run_bind_eq_ok_iff.mpr ⟨(), made, first, writeFiles_sound_of_ok others⟩

theorem run_eq_ok_iff : (run base arguments).run.run tree = (.ok (), after) ↔
    ∃ plan, Run.plan tree.read base arguments = .ok plan ∧
      plan.write.run.run tree = (.ok (), after) := by
  rw [run_eq_match]
  cases Run.plan tree.read base arguments with
  | ok plan => simp
  | error fault => exact iff_of_false nofun (by simp)

end Plans

end TypedClient.Run
