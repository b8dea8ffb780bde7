import Mathlib.Control.Lawful
import TypedClient.Proofs.Files.Growth

/-! Folders that are made, and files that are written one after another.

Making a folder adds folders only, and none where the folder is there already. Files that
could be written can be written again, to the same places, and then nothing changes: the last
text at a place is the one that stays.
-/

set_option autoImplicit false

namespace TypedClient

section Actions
variable {ε σ α β : Type} {before middle after : σ}

theorem run_bind_of_ok {first : ExceptT ε (StateM σ) α} {next : α → ExceptT ε (StateM σ) β}
    {value : α} (found : first.run.run before = (.ok value, middle)) :
    (first >>= next).run.run before = (next value).run.run middle := by
  rw [ExceptT.run_bind, StateT.run_bind, found]
  rfl

theorem run_bind_get {next : σ → ExceptT ε (StateM σ) β} :
    (get >>= next).run.run before = (next before).run.run before :=
  run_bind_of_ok rfl

theorem run_bind_eq_ok_iff {first : ExceptT ε (StateM σ) α} {next : α → ExceptT ε (StateM σ) β}
    {result : β} :
    (first >>= next).run.run before = (.ok result, after) ↔
      ∃ value middle, first.run.run before = (.ok value, middle) ∧
        (next value).run.run middle = (.ok result, after) := by
  constructor
  · intro given
    rw [ExceptT.run_bind, StateT.run_bind] at given
    cases found : first.run.run before with
    | mk outcome middle =>
      rw [found] at given
      cases outcome with
      | ok value => exact ⟨value, middle, rfl, given⟩
      | error fault => cases given
  · rintro ⟨value, middle, found, given⟩
    rw [run_bind_of_ok found, given]

theorem run_bind_eq_error_iff {first : ExceptT ε (StateM σ) α} {next : α → ExceptT ε (StateM σ) β}
    {fault : ε} :
    (first >>= next).run.run before = (.error fault, after) ↔
      first.run.run before = (.error fault, after) ∨
        ∃ value middle, first.run.run before = (.ok value, middle) ∧
          (next value).run.run middle = (.error fault, after) := by
  cases found : first.run.run before with
  | mk outcome middle =>
    cases outcome with
    | ok value =>
      rw [run_bind_of_ok found]
      constructor
      · exact fun given => .inr ⟨value, middle, rfl, given⟩
      · rintro (stopped | ⟨_, _, same, given⟩)
        · cases stopped
        · cases same
          exact given
    | error other =>
      rw [ExceptT.run_bind, StateT.run_bind, found]
      constructor
      · intro given
        cases given
        exact .inl rfl
      · rintro (stopped | ⟨_, _, same, _⟩)
        · cases stopped
          rfl
        · cases same

theorem run_adapt {ε' : Type} {rename : ε → ε'} {action : ExceptT ε (StateM σ) α} :
    (ExceptT.adapt rename action).run.run before =
      ((action.run.run before).1.mapError rename, (action.run.run before).2) := rfl

theorem run_adapt_eq_ok_iff {ε' : Type} {rename : ε → ε'} {action : ExceptT ε (StateM σ) α}
    {result : α} : (ExceptT.adapt rename action).run.run before = (.ok result, after) ↔
      action.run.run before = (.ok result, after) := by
  rw [run_adapt]
  cases action.run.run before with
  | mk outcome state =>
    cases outcome with
    | ok value =>
      constructor <;>
        intro given <;>
        cases given <;>
        rfl
    | error fault => exact iff_of_false nofun nofun

theorem run_adapt_eq_error_iff {ε' : Type} {rename : ε → ε'} {action : ExceptT ε (StateM σ) α}
    {fault : ε'} : (ExceptT.adapt rename action).run.run before = (.error fault, after) ↔
      ∃ reason, action.run.run before = (.error reason, after) ∧ rename reason = fault := by
  rw [run_adapt]
  cases action.run.run before with
  | mk outcome state =>
    cases outcome with
    | ok value => exact iff_of_false nofun nofun
    | error reason =>
      constructor
      · intro given
        cases given
        exact ⟨reason, rfl, rfl⟩
      · rintro ⟨_, ⟨⟩, rfl⟩
        rfl

end Actions

/-- What is opened takes all of its text. -/
def Disk.Completes (disk : Disk) : Prop :=
  ∀ tree location text, disk.stops? tree location text = none

theorem Disk.completes_sound : Disk.sound.Completes := fun _ _ _ => rfl

namespace FileTree

variable {tree later last : FileTree} {here location : Location} {name : String} {route : Route}

section Folders

/-- Every entry is as before, and every new one is a folder. -/
def Builds (tree later : FileTree) : Prop :=
  ∀ location, later.get? location = tree.get? location ∨
    tree.get? location = none ∧ later.get? location = some .folder

namespace Builds

theorem refl (tree : FileTree) : tree.Builds tree := fun _ => .inl rfl

theorem trans (builds : tree.Builds later) (more : later.Builds last) : tree.Builds last := by
  intro location
  obtain same | ⟨absent, made⟩ := more location
  · rw [same]
    exact builds location
  · obtain same | ⟨_, folder⟩ := builds location
    · exact .inr ⟨same ▸ absent, made⟩
    · rw [folder] at absent
      cases absent

theorem grows (builds : tree.Builds later) : tree.Grows later := by
  intro location entry present
  obtain same | ⟨absent, _⟩ := builds location
  · exact ⟨entry, same.trans present, Iff.rfl⟩
  · rw [absent] at present
    cases present

/-- A file that is there was there before. -/
theorem file {text : String} (builds : tree.Builds later)
    (present : later.get? location = some (.file text)) :
    tree.get? location = some (.file text) := by
  obtain same | ⟨_, made⟩ := builds location
  · rw [← same, present]
  · rw [made] at present
    cases present

theorem put (absent : tree.get? location = none) : tree.Builds (tree.put location .folder) := by
  intro wanted
  by_cases same : wanted = location
  · subst same
    have below : wanted ≠ [] := by
      intro root
      rw [root, get?_root] at absent
      cases absent
    exact .inr ⟨absent, get?_put_same tree .folder below⟩
  · exact .inl (get?_put_of_ne tree .folder same)

end Builds

theorem isFolder_cons (offers : tree.Offers name route here)
    (present : tree.get? (name :: here) = some .folder) : tree.isFolder (name :: route) = true := by
  apply isFolder_iff.mpr
  have enters : tree.Enters here name (name :: here) :=
    .below offers.not_self offers.not_around offers.short (by rw [present]; rfl) rfl
  exact ⟨name :: here, folder_eq_ok_iff.mpr ⟨offers.clean,
    follow_cons_eq_ok_iff.mpr ⟨here, offers.follows, offers.folder, enters⟩, present⟩⟩

theorem of_makeFolder (made : tree.makeFolder route = .ok later) :
    tree.Builds later ∧ later.isFolder route = true := by
  cases route with
  | nil => cases made
  | cons name outer =>
    obtain ⟨here, offers, absent, rfl⟩ := makeFolder_eq_ok_iff.mp made
    have builds := Builds.put absent
    exact ⟨builds, isFolder_cons (builds.grows.offers offers)
      (get?_put_same tree .folder (List.cons_ne_nil name here))⟩

/-- A folder that is there is not made again, and the reason is that it is there. -/
theorem makeFolder_of_isFolder (folder : tree.isFolder route = true) :
    tree.makeFolder route = .error .taken := by
  cases route with
  | nil => rfl
  | cons name outer =>
    obtain ⟨location, found⟩ := isFolder_iff.mp folder
    obtain ⟨clean, follows, present⟩ := folder_eq_ok_iff.mp found
    obtain ⟨here, before, inFolder, enters⟩ := follow_cons_eq_ok_iff.mp follows
    have around : tree.folder outer = .ok here :=
      folder_eq_ok_iff.mpr ⟨hasNul_outer clean, before, inFolder⟩
    by_cases special : name = Route.self ∨ name = Route.around
    · rw [makeFolder, site_of_special clean around special]
      rfl
    · rw [not_or] at special
      cases enters with
      | self same => exact absurd same special.1
      | around same => exact absurd same special.2
      | below _ _ short inside same =>
        subst same
        have offers : tree.Offers name outer here :=
          ⟨clean, before, inFolder, special.1, special.2, short⟩
        rw [makeFolder, site_eq_ok_iff.mpr ⟨here, offers, rfl⟩]
        rw [ok_bind, present]
        rfl

/-- A folder that cannot be made is no fault if it is there. -/
theorem run_settle : (settle route).run.run tree =
    match tree.makeFolder route with
    | .ok made => (.ok (), made)
    | .error fault => (if tree.isFolder route then .ok () else .error fault, tree) := by
  rw [settle, run_bind_get]
  cases tree.makeFolder route with
  | ok made => rfl
  | error fault =>
    simp only
    split_ifs <;> rfl

/-- Whether a folder could be made or not, nothing else is new. -/
theorem builds_of_settle {outcome : Except FileFault Unit}
    (ran : (settle route).run.run tree = (outcome, later)) : tree.Builds later := by
  rw [run_settle] at ran
  cases attempt : tree.makeFolder route with
  | ok built =>
    rw [attempt] at ran
    cases ran
    exact (of_makeFolder attempt).1
  | error fault =>
    rw [attempt] at ran
    cases ran
    exact .refl tree

theorem isFolder_of_settle (made : (settle route).run.run tree = (.ok (), later)) :
    later.isFolder route = true := by
  rw [run_settle] at made
  cases attempt : tree.makeFolder route with
  | ok built =>
    rw [attempt] at made
    cases made
    exact (of_makeFolder attempt).2
  | error fault =>
    rw [attempt] at made
    by_cases there : tree.isFolder route = true
    · simp only [there, if_true] at made
      cases made
      exact there
    · simp only [there] at made
      cases made

theorem settle_of_isFolder (folder : tree.isFolder route = true) :
    (settle route).run.run tree = (.ok (), tree) := by
  rw [run_settle, makeFolder_of_isFolder folder]
  simp only [folder, if_true]

theorem settleAll_of_missing {above : List Route}
    (missing : tree.makeFolder route = .error .notFound) :
    (settleAll (route :: above)).run.run tree =
      (settleAll above >>= fun _ => settle route).run.run tree := by
  rw [settleAll, run_bind_get, missing]

theorem settleAll_of_not_missing {above : List Route}
    (known : tree.makeFolder route ≠ .error .notFound) :
    (settleAll (route :: above)).run.run tree = (settle route).run.run tree := by
  rw [settleAll, run_bind_get]
  split
  · exact absurd ‹_› known
  · rfl

theorem builds_of_settleAll {routes : List Route} {outcome : Except FileFault Unit}
    (ran : (settleAll routes).run.run tree = (outcome, later)) : tree.Builds later := by
  induction routes generalizing outcome later with
  | nil =>
    cases ran
    exact .refl tree
  | cons route above ih =>
    by_cases missing : tree.makeFolder route = .error .notFound
    · rw [settleAll_of_missing missing] at ran
      cases outcome with
      | ok _ =>
        obtain ⟨_, middle, first, second⟩ := run_bind_eq_ok_iff.mp ran
        exact (ih first).trans (builds_of_settle second)
      | error fault =>
        rcases run_bind_eq_error_iff.mp ran with first | ⟨_, middle, first, second⟩
        · exact ih first
        · exact (ih first).trans (builds_of_settle second)
    · rw [settleAll_of_not_missing missing] at ran
      exact builds_of_settle ran

theorem isFolder_of_settleAll {above : List Route}
    (made : (settleAll (route :: above)).run.run tree = (.ok (), later)) :
    later.isFolder route = true := by
  by_cases missing : tree.makeFolder route = .error .notFound
  · rw [settleAll_of_missing missing] at made
    obtain ⟨_, middle, first, second⟩ := run_bind_eq_ok_iff.mp made
    exact isFolder_of_settle second
  · rw [settleAll_of_not_missing missing] at made
    exact isFolder_of_settle made

theorem of_makeFolders (made : (makeFolders route).run.run tree = (.ok (), later)) :
    tree.Builds later ∧ later.isFolder route = true :=
  ⟨builds_of_settleAll made, isFolder_of_settleAll made⟩

theorem makeFolders_of_isFolder (folder : tree.isFolder route = true) :
    (makeFolders route).run.run tree = (.ok (), tree) := by
  have known : tree.makeFolder route ≠ .error .notFound := by
    rw [makeFolder_of_isFolder folder]
    nofun
  rw [makeFolders, settleAll_of_not_missing known, settle_of_isFolder folder]

end Folders

section Files
variable {text : String} {placed : List (Location × String)} {wanted : Location}

/-- A route to a file that can be written again, and where the file is. -/
inductive Stands (tree : FileTree) : Route → Location → Prop where
  | intro {name : String} {outer : Route} {here : Location} {text : String} :
      tree.Offers name outer here → tree.get? (name :: here) = some (.file text) →
      Stands tree (name :: outer) (name :: here)

namespace Stands

theorem grows (stands : tree.Stands route location) (grows : tree.Grows later) :
    later.Stands route location := by
  cases stands with
  | intro offers present =>
    obtain ⟨now, kept, same⟩ := grows _ _ present
    cases now with
    | folder => cases same.mp rfl
    | file other => exact .intro (grows.offers offers) kept

theorem below (stands : tree.Stands route location) : location ≠ [] := by
  cases stands with
  | intro => exact List.cons_ne_nil _ _

theorem head (stands : tree.Stands route location) : location.head? = route.head? := by
  cases stands with
  | intro => rfl

theorem write (stands : tree.Stands route location) (text : String) :
    tree.write route text = .ok (tree.put location (.file text)) := by
  cases stands with
  | intro offers present =>
    refine write_eq_ok_iff.mpr ⟨_, offers, ?_, rfl⟩
    rw [present]
    nofun

theorem follow (stands : tree.Stands route location) : tree.follow route = .ok location := by
  cases stands with
  | intro offers present =>
    have enters := Enters.below offers.not_self offers.not_around offers.short
      (Option.isSome_of_eq_some present) rfl
    exact follow_cons_eq_ok_iff.mpr ⟨_, offers.follows, offers.folder, enters⟩

theorem read {text : String} (stands : tree.Stands route location)
    (present : tree.get? location = some (.file text)) : tree.read route = .ok text := by
  have follows := stands.follow
  cases stands with
  | intro offers _ => exact read_eq_ok_iff.mpr ⟨_, offers.clean, follows, present⟩

end Stands

theorem of_write (written : tree.write route text = .ok later) :
    ∃ location, later.Stands route location ∧ tree.Grows later ∧
      later = tree.put location (.file text) := by
  cases route with
  | nil => cases written
  | cons name outer =>
    obtain ⟨here, offers, free, rfl⟩ := write_eq_ok_iff.mp written
    have grows : tree.Grows (tree.put (name :: here) (.file text)) := by
      apply Grows.put (List.cons_ne_nil name here)
      intro old present
      apply iff_of_false nofun
      rintro rfl
      exact free present
    exact ⟨name :: here,
      .intro (grows.offers offers) (get?_put_same tree _ (List.cons_ne_nil name here)), grows, rfl⟩

section Disks
variable {disk : Disk} {outcome : Except FileFault Unit}

/-- What becomes of a file that is to be written: all of the text, what was there, or what the disk
has taken. -/
theorem writeOn_cases (ran : (writeOn disk route text).run.run tree = (outcome, later)) :
    outcome = .ok () ∧ tree.write route text = .ok later ∨
      (∃ reason, outcome = .error reason) ∧ later = tree ∨
      ∃ reason taken location, outcome = .error reason ∧
        disk.stops? tree location text = some (reason, taken) ∧ tree.write route taken = .ok later := by
  rw [writeOn, run_bind_get] at ran
  cases found : tree.target route with
  | error reason =>
    rw [found] at ran
    cases ran
    exact .inr (.inl ⟨⟨reason, rfl⟩, rfl⟩)
  | ok location =>
    simp only [found] at ran
    have writes (content : String) : tree.write route content = .ok (tree.put location (.file content)) :=
      write_eq_ok_iff_target.mpr ⟨location, found, rfl⟩
    split at ran
    case h_1 reason _ =>
      cases ran
      exact .inr (.inl ⟨⟨reason, rfl⟩, rfl⟩)
    case h_2 =>
      cases ran
      exact .inl ⟨rfl, writes text⟩
    case h_3 reason taken _ stops =>
      cases ran
      exact .inr (.inr ⟨reason, taken, location, rfl, stops, writes taken⟩)

theorem writeOn_sound_eq_ok_iff : (writeOn .sound route text).run.run tree = (.ok (), later) ↔
    tree.write route text = .ok later := by
  rw [writeOn, run_bind_get, write_eq_ok_iff_target]
  cases tree.target route with
  | error reason => exact iff_of_false nofun (by simp)
  | ok location =>
    constructor
    · intro given
      cases given
      exact ⟨location, rfl, rfl⟩
    · rintro ⟨_, ⟨⟩, rfl⟩
      rfl

end Disks

def fill (tree : FileTree) (placed : List (Location × String)) : FileTree :=
  placed.foldl (fun filled file => filled.put file.1 (.file file.2)) tree

theorem fill_cons (file : Location × String) : tree.fill (file :: placed) =
    (tree.put file.1 (.file file.2)).fill placed := rfl

theorem fill_concat (content : String) : tree.fill (placed ++ [(location, content)]) =
    (tree.fill placed).put location (.file content) := by
  rw [fill, List.foldl_append]
  rfl

/-- The last text for a place is the one that stays. -/
theorem get?_fill (below : ∀ file ∈ placed, file.1 ≠ []) :
    (tree.fill placed).get? wanted =
      ((placed.reverse.lookup wanted).map Entry.file).or (tree.get? wanted) := by
  induction placed generalizing tree with
  | nil => rfl
  | cons file placed ih =>
    obtain ⟨location, text⟩ := file
    rw [fill_cons, ih fun file inside => below file (.tail _ inside), List.reverse_cons,
      List.lookup_append, List.lookup_cons]
    by_cases same : wanted = location
    · subst same
      rw [get?_put_same tree _ (below _ (.head _)), beq_self_eq_true]
      cases placed.reverse.lookup wanted <;> rfl
    · rw [get?_put_of_ne tree _ same, beq_false_of_ne same]
      cases placed.reverse.lookup wanted <;> rfl

theorem get?_fill_of_not_mem (below : ∀ file ∈ placed, file.1 ≠ [])
    (apart : ∀ file ∈ placed, file.1 ≠ wanted) :
    (tree.fill placed).get? wanted = tree.get? wanted := by
  have absent : placed.reverse.lookup wanted = none := by
    rw [List.lookup_eq_none_iff]
    intro file inside
    exact bne_iff_ne.mpr (apart file (List.mem_reverse.mp inside)).symm
  rw [get?_fill below, absent]
  rfl

/-- Of different places each has its own text. -/
theorem get?_fill_of_mem (distinct : (placed.map Prod.fst).Nodup)
    (below : ∀ file ∈ placed, file.1 ≠ []) (member : (wanted, text) ∈ placed) :
    (tree.fill placed).get? wanted = some (.file text) := by
  induction placed generalizing tree with
  | nil => cases member
  | cons file placed ih =>
    rw [List.map_cons, List.nodup_cons] at distinct
    have belowToo : ∀ file ∈ placed, file.1 ≠ [] := fun file inside => below file (.tail _ inside)
    rw [fill_cons]
    rcases List.mem_cons.mp member with rfl | inside
    · have apart : ∀ file ∈ placed, file.1 ≠ wanted := fun file inside same =>
        distinct.1 (List.mem_map.mpr ⟨file, inside, same⟩)
      rw [get?_fill_of_not_mem belowToo apart, get?_put_same _ _ (below _ (.head _))]
    · exact ih distinct.2 belowToo inside

/-- No file is put where a folder is after all. -/
theorem get?_of_fill_folder (below : ∀ file ∈ placed, file.1 ≠ [])
    (folder : (tree.fill placed).get? wanted = some .folder) : tree.get? wanted = some .folder := by
  rw [get?_fill below] at folder
  cases found : placed.reverse.lookup wanted with
  | none => simpa [found] using folder
  | some text => simp [found] at folder

theorem get?_fill_last (below : location ≠ []) :
    (tree.fill (placed ++ [(location, text)])).get? location = some (.file text) := by
  rw [fill, List.foldl_append]
  exact get?_put_same _ _ below

theorem get?_fill_fill (below : ∀ file ∈ placed, file.1 ≠ []) :
    ((tree.fill placed).fill placed).get? wanted = (tree.fill placed).get? wanted := by
  rw [get?_fill below, get?_fill below]
  cases placed.reverse.lookup wanted <;> rfl

end Files

end FileTree

end TypedClient
