import TypedClient.Files.Tree
import TypedClient.Proofs.Lists

/-! Trees that grow.

A tree has grown when every folder is still a folder and every file still a file, with
whatever text. A route that leads somewhere leads there in every tree that has grown, and
an entry that could be put somewhere goes to the same place. Conversely a route that leads to
an old folder has led there before, if each `..` on it leads back from an old folder too.
-/

set_option autoImplicit false

namespace TypedClient.FileTree

variable {tree later last : FileTree} {here location : Location} {name : String} {route outer : Route}

section Steps

inductive Enters (tree : FileTree) (here : Location) (name : String) (location : Location) :
    Prop where
  | self (special : name = Route.self) (same : location = here)
  | around (special : name = Route.around) (same : location = here.tail)
  | below (notSelf : name ≠ Route.self) (notAround : name ≠ Route.around)
      (short : name.utf8ByteSize ≤ longestName) (present : (tree.get? (name :: here)).isSome)
      (same : location = name :: here)

theorem enter_eq_ok_iff : tree.enter here name = .ok location ↔
    tree.get? here = some .folder ∧ tree.Enters here name location := by
  unfold enter
  cases found : tree.get? here with
  | none => simp
  | some entry =>
    cases entry with
    | file text => simp
    | folder =>
      simp only [true_and]
      -- The branches are tried in order, so a branch rules out the constructors of those before it.
      split_ifs with self around long inside
      · constructor
        · intro given
          cases given
          exact .self self rfl
        · intro enters
          cases enters with
          | self _ same => rw [same]
          | around special => exact absurd (self.symm.trans special) (by decide)
          | below other => exact absurd self other
      · constructor
        · intro given
          cases given
          exact .around around rfl
        · intro enters
          cases enters with
          | self special => exact absurd special self
          | around _ same => rw [same]
          | below _ other => exact absurd around other
      · apply iff_of_false nofun
        intro enters
        cases enters with
        | self special => exact self special
        | around special => exact around special
        | below _ _ short => omega
      · constructor
        · intro given
          cases given
          exact .below self around (by omega) inside rfl
        · intro enters
          cases enters with
          | self special => exact absurd special self
          | around special => exact absurd special around
          | below _ _ _ _ same => rw [same]
      · apply iff_of_false nofun
        intro enters
        cases enters with
        | self special => exact self special
        | around special => exact around special
        | below _ _ _ present => exact inside present

theorem follow_cons_eq_ok_iff : tree.follow (name :: outer) = .ok location ↔
    ∃ here, tree.follow outer = .ok here ∧ tree.get? here = some .folder ∧
      tree.Enters here name location := by
  simp only [follow, bind_eq_ok_iff, enter_eq_ok_iff]

theorem find_eq_ok_iff {entry : Entry} : tree.find route = .ok (location, entry) ↔
    hasNul route = false ∧ tree.follow route = .ok location ∧ tree.get? location = some entry := by
  unfold find
  cases hasNul route with
  | true => exact iff_of_false nofun (by simp)
  | false =>
    simp only [Bool.false_eq_true, if_false, true_and]
    cases tree.follow route with
    | error fault => exact iff_of_false nofun (by simp)
    | ok place =>
      rw [ok_bind]
      cases found : tree.get? place with
      | none =>
        apply iff_of_false nofun
        rintro ⟨same, present⟩
        cases same
        rw [found] at present
        cases present
      | some other =>
        constructor
        · intro given
          cases given
          exact ⟨rfl, found⟩
        · rintro ⟨same, present⟩
          cases same
          rw [found] at present
          cases present
          rfl

theorem folder_eq_ok_iff : tree.folder route = .ok location ↔
    hasNul route = false ∧ tree.follow route = .ok location ∧
      tree.get? location = some .folder := by
  rw [← find_eq_ok_iff, folder, bind_eq_ok_iff]
  constructor
  · rintro ⟨⟨place, entry⟩, found, given⟩
    cases entry with
    | folder =>
      cases given
      exact found
    | file text => cases given
  · intro found
    exact ⟨_, found, rfl⟩

theorem read_eq_ok_iff {text : String} : tree.read route = .ok text ↔
    ∃ location, hasNul route = false ∧ tree.follow route = .ok location ∧
      tree.get? location = some (.file text) := by
  simp only [← find_eq_ok_iff]
  rw [read, bind_eq_ok_iff]
  constructor
  · rintro ⟨⟨place, entry⟩, found, given⟩
    cases entry with
    | folder => cases given
    | file other =>
      cases given
      exact ⟨place, found⟩
  · rintro ⟨place, found⟩
    exact ⟨_, found, rfl⟩

theorem isFolder_iff : tree.isFolder route = true ↔ ∃ location, tree.folder route = .ok location := by
  unfold isFolder
  cases tree.folder route with
  | error fault => exact iff_of_false nofun (by simp)
  | ok location => exact iff_of_true rfl ⟨location, rfl⟩

end Steps

section Sites
variable {reserved : FileFault}

structure Offers (tree : FileTree) (name : String) (outer : Route) (here : Location) : Prop where
  clean : hasNul (name :: outer) = false
  follows : tree.follow outer = .ok here
  folder : tree.get? here = some .folder
  not_self : name ≠ Route.self
  not_around : name ≠ Route.around
  short : name.utf8ByteSize ≤ longestName

theorem hasNul_outer (clean : hasNul (name :: outer) = false) : hasNul outer = false := by
  unfold hasNul at clean ⊢
  rw [List.any_cons, Bool.or_eq_false_iff] at clean
  exact clean.2

theorem site_eq_ok_iff : tree.site name outer reserved = .ok location ↔
    ∃ here, tree.Offers name outer here ∧ location = name :: here := by
  unfold site
  cases clean : hasNul (name :: outer) with
  | true =>
    apply iff_of_false nofun
    rintro ⟨here, offers, _⟩
    rw [offers.clean] at clean
    cases clean
  | false =>
    simp only [Bool.false_eq_true, if_false]
    rw [bind_eq_ok_iff]
    apply exists_congr
    intro here
    rw [folder_eq_ok_iff]
    constructor
    -- The folder is looked for first. Then special names are refused, and then long ones.
    · rintro ⟨⟨_, follows, folder⟩, given⟩
      by_cases special : name = Route.self ∨ name = Route.around
      · rw [if_pos special] at given
        cases given
      · by_cases long : longestName < name.utf8ByteSize
        · rw [if_neg special, if_pos long] at given
          cases given
        · rw [if_neg special, if_neg long] at given
          rw [not_or] at special
          cases given
          exact ⟨⟨clean, follows, folder, special.1, special.2, by omega⟩, rfl⟩
    · rintro ⟨offers, rfl⟩
      constructor
      · exact ⟨hasNul_outer clean, offers.follows, offers.folder⟩
      · have long : ¬ longestName < name.utf8ByteSize := by
          have short := offers.short
          omega
        rw [if_neg (not_or.mpr ⟨offers.not_self, offers.not_around⟩), if_neg long]
        rfl

/-- The folder is looked for before its name is looked at. -/
theorem site_of_special (clean : hasNul (name :: outer) = false)
    (found : tree.folder outer = .ok here) (special : name = Route.self ∨ name = Route.around) :
    tree.site name outer reserved = .error reserved := by
  unfold site
  rw [clean, found]
  change (if name = Route.self ∨ name = Route.around then throw reserved else _) = _
  rw [if_pos special]
  rfl

theorem makeFolder_eq_ok_iff {made : FileTree} : tree.makeFolder (name :: outer) = .ok made ↔
    ∃ here, tree.Offers name outer here ∧ tree.get? (name :: here) = none ∧
      made = tree.put (name :: here) .folder := by
  rw [makeFolder, bind_eq_ok_iff]
  simp only [site_eq_ok_iff]
  constructor
  · rintro ⟨_, ⟨here, offers, rfl⟩, given⟩
    split at given
    · cases given
    · cases given
      exact ⟨here, offers, ‹_›, rfl⟩
  · rintro ⟨here, offers, absent, rfl⟩
    refine ⟨_, ⟨here, offers, rfl⟩, ?_⟩
    rw [absent]
    rfl

theorem target_eq_ok_iff {location : Location} : tree.target (name :: outer) = .ok location ↔
    ∃ here, tree.Offers name outer here ∧ tree.get? (name :: here) ≠ some .folder ∧
      location = name :: here := by
  rw [target, bind_eq_ok_iff]
  simp only [site_eq_ok_iff]
  constructor
  · rintro ⟨_, ⟨here, offers, rfl⟩, given⟩
    split at given
    · cases given
    · rename_i free
      cases given
      exact ⟨here, offers, free, rfl⟩
  · rintro ⟨here, offers, free, rfl⟩
    refine ⟨_, ⟨here, offers, rfl⟩, ?_⟩
    split
    · exact absurd ‹_› free
    · rfl

theorem write_eq_ok_iff_target {route : Route} {text : String} {written : FileTree} :
    tree.write route text = .ok written ↔
      ∃ location, tree.target route = .ok location ∧ written = tree.put location (.file text) := by
  rw [write, bind_eq_ok_iff]
  constructor
  · rintro ⟨location, found, ⟨⟩⟩
    exact ⟨location, found, rfl⟩
  · rintro ⟨location, found, rfl⟩
    exact ⟨location, found, rfl⟩

theorem write_eq_ok_iff {text : String} {written : FileTree} :
    tree.write (name :: outer) text = .ok written ↔
      ∃ here, tree.Offers name outer here ∧ tree.get? (name :: here) ≠ some .folder ∧
        written = tree.put (name :: here) (.file text) := by
  rw [write_eq_ok_iff_target]
  simp only [target_eq_ok_iff]
  constructor
  · rintro ⟨_, ⟨here, offers, free, rfl⟩, given⟩
    exact ⟨here, offers, free, given⟩
  · rintro ⟨here, offers, free, given⟩
    exact ⟨_, ⟨here, offers, free, rfl⟩, given⟩

end Sites

/-- Every folder is still a folder, and every file still a file. -/
def Grows (tree later : FileTree) : Prop :=
  ∀ location entry, tree.get? location = some entry →
    ∃ now, later.get? location = some now ∧ (now = .folder ↔ entry = .folder)

namespace Grows

theorem refl (tree : FileTree) : tree.Grows tree :=
  fun _ entry present => ⟨entry, present, Iff.rfl⟩

theorem trans (grows : tree.Grows later) (more : later.Grows last) : tree.Grows last := by
  intro location entry present
  obtain ⟨middle, kept, same⟩ := grows location entry present
  obtain ⟨now, keptToo, sameToo⟩ := more location middle kept
  exact ⟨now, keptToo, sameToo.trans same⟩

theorem folder (grows : tree.Grows later) (present : tree.get? location = some .folder) :
    later.get? location = some .folder := by
  obtain ⟨now, kept, same⟩ := grows location _ present
  rw [kept, same.mpr rfl]

theorem enters (grows : tree.Grows later) (enters : tree.Enters here name location) :
    later.Enters here name location := by
  cases enters with
  | self special same => exact .self special same
  | around special same => exact .around special same
  | below notSelf notAround short present same =>
    obtain ⟨entry, present⟩ := Option.isSome_iff_exists.mp present
    obtain ⟨now, kept, _⟩ := grows _ entry present
    exact .below notSelf notAround short (Option.isSome_of_eq_some kept) same

theorem follow (grows : tree.Grows later) (follows : tree.follow route = .ok location) :
    later.follow route = .ok location := by
  induction route generalizing location with
  | nil => exact follows
  | cons name outer ih =>
    obtain ⟨here, before, folder, enters⟩ := follow_cons_eq_ok_iff.mp follows
    exact follow_cons_eq_ok_iff.mpr ⟨here, ih before, grows.folder folder, grows.enters enters⟩

theorem isFolder (grows : tree.Grows later) (folder : tree.isFolder route = true) :
    later.isFolder route = true := by
  obtain ⟨location, found⟩ := isFolder_iff.mp folder
  obtain ⟨clean, follows, present⟩ := folder_eq_ok_iff.mp found
  exact isFolder_iff.mpr
    ⟨location, folder_eq_ok_iff.mpr ⟨clean, grows.follow follows, grows.folder present⟩⟩

theorem offers (grows : tree.Grows later) (offers : tree.Offers name outer here) :
    later.Offers name outer here :=
  { offers with
    follows := grows.follow offers.follows
    folder := grows.folder offers.folder }

/-- An entry of the same sort, or one where there was none. -/
theorem put {entry : Entry} (below : location ≠ [])
    (same : ∀ old, tree.get? location = some old → (entry = .folder ↔ old = .folder)) :
    tree.Grows (tree.put location entry) := by
  intro wanted old present
  by_cases different : wanted = location
  · subst different
    exact ⟨entry, get?_put_same tree entry below, same old present⟩
  · rw [get?_put_of_ne tree entry different]
    exact ⟨old, present, Iff.rfl⟩

end Grows

section Back
variable {text : String}

def Grounded (tree : FileTree) : Prop :=
  ∀ name here, (tree.get? (name :: here)).isSome → tree.get? here = some .folder

theorem grounded_of_entries
    (known : ∀ entry ∈ tree.entries, tree.get? entry.1.tail = some .folder) : tree.Grounded := by
  intro name here present
  obtain ⟨entry, found⟩ := Option.isSome_iff_exists.mp present
  obtain ⟨before, behind, split, _⟩ := List.lookup_eq_some_iff.mp found
  have listed : (name :: here, entry) ∈ tree.entries := by
    rw [split]
    exact List.mem_append_right _ (.head _)
  exact known _ listed

/-- Each `..` on the route leads back from a folder that is there. -/
def Direct (tree : FileTree) (route : Route) : Prop :=
  ∀ outer, Route.around :: outer <:+ route → tree.isFolder outer = true

theorem Direct.of_suffix (direct : tree.Direct route) (suffix : outer <:+ route) :
    tree.Direct outer :=
  fun _ before => direct _ (before.trans suffix)

theorem follow_of_grows (grows : tree.Grows later) (grounded : tree.Grounded)
    (direct : tree.Direct route) (follows : later.follow route = .ok location)
    (folder : tree.get? location = some .folder) : tree.follow route = .ok location := by
  induction route generalizing location with
  | nil => exact follows
  | cons name outer ih =>
    have earlier := direct.of_suffix (List.suffix_cons name outer)
    obtain ⟨here, before, inFolder, enters⟩ := follow_cons_eq_ok_iff.mp follows
    apply follow_cons_eq_ok_iff.mpr
    cases enters with
    | self special same =>
      subst same
      exact ⟨location, ih earlier before folder, folder, .self special rfl⟩
    | around special same =>
      -- The folder from which the route turns back is an old one.
      subst special
      obtain ⟨old, found⟩ := isFolder_iff.mp (direct outer (List.suffix_refl _))
      obtain ⟨_, led, present⟩ := folder_eq_ok_iff.mp found
      have kept : later.follow outer = .ok old := grows.follow led
      rw [before] at kept
      cases kept
      exact ⟨here, led, present, .around rfl same⟩
    | below notSelf notAround short present same =>
      subst same
      have inside : (tree.get? (name :: here)).isSome := Option.isSome_of_eq_some folder
      have old := grounded name here inside
      exact ⟨here, ih earlier before old, old, .below notSelf notAround short inside rfl⟩

/-- Where no folder is new, a route to a folder has led there before. -/
theorem follow_of_folders
    (folders : ∀ place, later.get? place = some .folder → tree.get? place = some .folder)
    (follows : later.follow route = .ok location) (folder : later.get? location = some .folder) :
    tree.follow route = .ok location := by
  induction route generalizing location with
  | nil => exact follows
  | cons name outer ih =>
    obtain ⟨here, before, inFolder, enters⟩ := follow_cons_eq_ok_iff.mp follows
    refine follow_cons_eq_ok_iff.mpr ⟨here, ih before inFolder, folders here inFolder, ?_⟩
    cases enters with
    | self special same => exact .self special same
    | around special same => exact .around special same
    | below notSelf notAround short _ same =>
      subst same
      exact .below notSelf notAround short (Option.isSome_of_eq_some (folders _ folder)) rfl

/-- A file is read where it was read before, if none of this name has come or changed, and if the way
to one that was there leads to where it led before. -/
theorem read_eq_ok_iff_of_back (grows : tree.Grows later)
    (notSelf : name ≠ Route.self) (notAround : name ≠ Route.around)
    (kept : ∀ here text, later.get? (name :: here) = some (.file text) ↔
      tree.get? (name :: here) = some (.file text))
    (back : ∀ here, later.follow outer = .ok here → later.get? here = some .folder →
      (tree.get? (name :: here)).isSome →
        tree.follow outer = .ok here ∧ tree.get? here = some .folder) :
    later.read (name :: outer) = .ok text ↔ tree.read (name :: outer) = .ok text := by
  rw [read_eq_ok_iff, read_eq_ok_iff]
  apply exists_congr
  intro location
  constructor
  -- Reading later, the file itself was there before, and so the way to it is an old one.
  · rintro ⟨clean, follows, present⟩
    obtain ⟨here, before, folder, enters⟩ := follow_cons_eq_ok_iff.mp follows
    cases enters with
    | self special => exact absurd special notSelf
    | around special => exact absurd special notAround
    | below _ _ short _ same =>
      subst same
      have old := (kept here text).mp present
      have inside : (tree.get? (name :: here)).isSome := Option.isSome_of_eq_some old
      obtain ⟨led, inFolder⟩ := back here before folder inside
      have leads : tree.follow (name :: outer) = .ok (name :: here) :=
        follow_cons_eq_ok_iff.mpr ⟨here, led, inFolder, .below notSelf notAround short inside rfl⟩
      exact ⟨clean, leads, old⟩
  · rintro ⟨clean, follows, present⟩
    obtain ⟨here, _, _, enters⟩ := follow_cons_eq_ok_iff.mp follows
    cases enters with
    | self special => exact absurd special notSelf
    | around special => exact absurd special notAround
    | below _ _ _ _ same =>
      subst same
      exact ⟨clean, grows.follow follows, (kept here text).mpr present⟩

theorem read_eq_ok_iff_of_grows (grows : tree.Grows later) (grounded : tree.Grounded)
    (direct : tree.Direct outer) (notSelf : name ≠ Route.self) (notAround : name ≠ Route.around)
    (kept : ∀ here text, later.get? (name :: here) = some (.file text) ↔
      tree.get? (name :: here) = some (.file text)) :
    later.read (name :: outer) = .ok text ↔ tree.read (name :: outer) = .ok text := by
  refine read_eq_ok_iff_of_back grows notSelf notAround kept fun here follows _ inside => ?_
  have inFolder := grounded name here inside
  exact ⟨follow_of_grows grows grounded direct follows inFolder, inFolder⟩

end Back

end TypedClient.FileTree
