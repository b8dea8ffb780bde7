import TypedClient.Bundle
import TypedClient.Proofs.Files.Routes
import TypedClient.Proofs.Json.FlatObjects
import TypedClient.Proofs.Runs.Writing

/-! The package around an output folder, before and after a run.

A manifest that a client comes with declares the format of the client, and it is the nearest one
that a later run finds. A run that writes no manifest leaves those around the folder as they are.
-/

set_option autoImplicit false

namespace TypedClient

namespace Route
variable {route outer : Route}

theorem suffix_of_mem_upward (member : outer ∈ upward route) : outer <:+ route := by
  induction route with
  | nil => cases member
  | cons name inner ih =>
    rw [upward, List.mem_cons] at member
    obtain rfl | above := member
    · exact List.suffix_refl _
    · exact (ih above).trans (List.suffix_cons name inner)

theorem suffix_of_mem_ancestors (member : outer ∈ ancestors route) : outer <:+ route :=
  suffix_of_mem_upward (List.mem_filter.mp member).1

/-- The nearest ancestor is the route itself, but for the `.` at its end. -/
theorem exists_nearest (below : ancestors route ≠ []) :
    ∃ dots nearest further, route = dots ++ nearest ∧ (∀ name ∈ dots, name = self) ∧
      ancestors route = nearest :: further := by
  induction route with
  | nil => exact absurd rfl below
  | cons name outer ih =>
    by_cases special : name = self
    · subst special
      obtain ⟨dots, nearest, further, rfl, plain, found⟩ := ih below
      refine ⟨self :: dots, nearest, further, rfl, ?_, found⟩
      intro other inside
      obtain rfl | inside := List.mem_cons.mp inside
      · rfl
      · exact plain other inside
    · refine ⟨[], name :: outer, ancestors outer, rfl, nofun, ?_⟩
      rw [ancestors, upward, List.filter_cons_of_pos (by simpa using special)]
      rfl

theorem follow_of_dots {tree : FileTree} {dots nearest : Route} {here : Location}
    (plain : ∀ name ∈ dots, name = self) (follows : tree.follow (dots ++ nearest) = .ok here) :
    tree.follow nearest = .ok here := by
  induction dots generalizing here with
  | nil => exact follows
  | cons name dots ih =>
    obtain ⟨before, led, _, enters⟩ := FileTree.follow_cons_eq_ok_iff.mp follows
    have special : name = self := plain name (.head _)
    cases enters with
    | self _ same =>
      subst same
      exact ih (fun other inside => plain other (.tail _ inside)) led
    | around other => exact absurd (special.symm.trans other) (by decide)
    | below other => exact absurd special other

end Route

namespace Manifest

section Texts
variable {name : String} {format otherFormat : ModuleFormat} {extension other : TypeExtension}
  {hasImplementation otherHas : Bool}

def entries (name : String) (format : ModuleFormat) (extension : TypeExtension)
    (hasImplementation : Bool) : List (String × String) :=
  [("name", name), ("types", typesPath name extension)] ++
    (if format = .esm then [("type", esmType)] else []) ++
    (if hasImplementation then [("main", mainPath name format)] else [])

theorem value_eq : value name format extension hasImplementation =
    .object (Json.ofStrings (entries name format extension hasImplementation)) := by
  cases format <;> cases hasImplementation <;> rfl

theorem read?_text : Json.read? (text name format extension hasImplementation) =
    some (.object (Json.ofStrings (entries name format extension hasImplementation))) := by
  have distinct : ((entries name format extension hasImplementation).map Prod.fst).Nodup := by
    cases format <;> cases hasImplementation <;> simp [entries]
  rw [text, value_eq, Json.read?_pretty_ofStrings distinct]

theorem declaredFormat?_text :
    declaredFormat? (text name format extension hasImplementation) = some format := by
  rw [declaredFormat?, read?_text]
  cases format <;> cases hasImplementation <;> simp [entries, Json.ofStrings, Json.Value.get?, List.lookup_cons]

theorem formats_eq_of_text_eq (same : text name format extension hasImplementation =
    text name otherFormat other otherHas) : format = otherFormat ∧ extension = other := by
  have declared := congrArg declaredFormat? same
  rw [declaredFormat?_text, declaredFormat?_text] at declared
  apply And.intro (Option.some.inj declared)
  have read := congrArg Json.read? same
  rw [read?_text, read?_text] at read
  obtain ⟨paths, _⟩ : typesPath name extension = typesPath name other ∧ _ := by
    simpa [entries, Json.ofStrings] using read
  have texts : extension.text = other.text := by
    simpa [typesPath] using paths
  cases extension <;> cases other <;> simp [TypeExtension.text] at texts ⊢

end Texts

section Reading
variable {tree after : FileTree} {folder name : String} {format : ModuleFormat}
  {extension : TypeExtension} {hasImplementation : Bool} {location : Location}

/-- What the manifests of a tree say of the package around a folder. -/
def surroundingIn? (tree : FileTree) (folder : String) : Option ModuleFormat :=
  surrounding? (fun route => (tree.read route).toOption) (Route.ofPath folder)

/-- The nearest manifest that is there decides, if it is JSON. -/
theorem surrounding?_of_nearest {read : Route → Option String} {route place : Route}
    {nearer others : List Route} {content : String} (split : places route = nearer ++ place :: others)
    (missing : ∀ place ∈ nearer, read place = none)
    (found : read place = some content) (declared : declaredFormat? content = some format) :
    surrounding? read route = some format := by
  have skipped : nearer.findSome? (fun place => (read place).bind declaredFormat?) = none := by
    rw [List.findSome?_eq_none_iff]
    intro other member
    rw [missing other member]
    rfl
  unfold surrounding?
  rw [split, List.findSome?_append, skipped, Option.none_or, List.findSome?_cons]
  simp only [found, Option.bind_some, declared]

theorem surrounding?_of_first {read : Route → Option String} {route place : Route}
    {others : List Route} {content : String} (nearest : places route = place :: others)
    (found : read place = some content) (declared : declaredFormat? content = some format) :
    surrounding? read route = some format :=
  @surrounding?_of_nearest _ _ _ _ [] _ _ nearest nofun found declared

theorem not_special : fileName ≠ Route.self ∧ fileName ≠ Route.around := by decide

theorem ofPath_join_fileName (absolute : Route.isAbsolute folder = true) :
    Route.ofPath (Route.join folder fileName) = fileName :: Route.ofPath folder :=
  Route.ofPath_join absolute rfl

/-- A place above that of a file that is written is not too long to be read. -/
theorem isFollowed_of_suffix {inner : Route} (absolute : Route.isAbsolute folder = true)
    (fits : Run.checkPath (Route.join folder fileName) = .ok ())
    (suffix : inner <:+ Route.ofPath folder) :
    Route.isFollowed (Route.text (fileName :: inner)) = true := by
  have whole := Route.size_ofPath_le (Route.isAbsolute_join absolute fileName)
  have shorter := Route.size_le_of_suffix suffix
  have short : (Route.join folder fileName).utf8ByteSize ≤ Route.longestPath :=
    of_decide_eq_true (Run.checkPath_eq_ok_iff.mp fits).2
  apply decide_eq_true
  rw [Route.utf8ByteSize_text (List.cons_ne_nil fileName inner)]
  rw [ofPath_join_fileName absolute] at whole
  change 1 + fileName.utf8ByteSize + Route.size inner ≤ _
  change 1 + fileName.utf8ByteSize + Route.size (Route.ofPath folder) ≤ _ at whole
  omega

/-- A file stands at its place whether or not its folder is named with a `.` at the end. -/
theorem read_of_stands {content : String} {dots nearest : Route}
    (plain : ∀ other ∈ dots, other = Route.self)
    (stands : tree.Stands (name :: (dots ++ nearest)) location)
    (written : tree.get? location = some (.file content)) :
    tree.read (name :: nearest) = .ok content := by
  cases stands with
  | intro offers present =>
    rename_i here _
    have led : tree.follow nearest = .ok here := Route.follow_of_dots plain offers.follows
    have clean : FileTree.hasNul (name :: nearest) = false := by
      have given := offers.clean
      unfold FileTree.hasNul at given ⊢
      rw [List.any_cons, List.any_append, Bool.or_eq_false_iff, Bool.or_eq_false_iff] at given
      rw [List.any_cons, given.1, given.2.2]
      rfl
    have enters : tree.Enters here name (name :: here) :=
      .below offers.not_self offers.not_around offers.short (Option.isSome_of_eq_some present) rfl
    exact FileTree.read_eq_ok_iff.mpr ⟨name :: here, clean,
      FileTree.follow_cons_eq_ok_iff.mpr ⟨here, led, offers.folder, enters⟩, written⟩

/-- The manifest in an output folder below the root decides, for it is the nearest. -/
theorem surroundingIn?_own (absolute : Route.isAbsolute folder = true)
    (below : Route.ancestors (Route.ofPath folder) ≠ [])
    (fits : Run.checkPath (Route.join folder fileName) = .ok ())
    (stands : tree.Stands (Route.ofPath (Route.join folder fileName)) location)
    (written : tree.get? location =
      some (.file (text name format extension hasImplementation))) :
    surroundingIn? tree folder = some format := by
  obtain ⟨dots, nearest, further, split, plain, found⟩ := Route.exists_nearest below
  have followed := isFollowed_of_suffix absolute fits ⟨dots, split.symm⟩
  rw [ofPath_join_fileName absolute, split] at stands
  have read := read_of_stands plain stands written
  have nearestFirst : places (Route.ofPath folder) = (fileName :: nearest) ::
      (further.map (fileName :: ·)).filter fun place => Route.isFollowed (Route.text place) := by
    rw [places, found, List.map_cons, List.filter_cons, followed, if_pos rfl]
  exact surrounding?_of_first nearestFirst (toOption_eq_some_iff.mpr read) declaredFormat?_text

def Kept (tree later : FileTree) : Prop :=
  ∀ here content, later.get? (fileName :: here) = some (.file content) ↔
    tree.get? (fileName :: here) = some (.file content)

theorem surroundingIn?_of_kept (grows : tree.Grows after) (grounded : tree.Grounded)
    (direct : tree.Direct (Route.ofPath folder)) (kept : Kept tree after) :
    surroundingIn? after folder = surroundingIn? tree folder := by
  have sameAt : ∀ place ∈ places (Route.ofPath folder),
      (after.read place).toOption = (tree.read place).toOption := by
    intro place inside
    obtain ⟨outer, above, rfl⟩ := List.mem_map.mp (List.mem_filter.mp inside).1
    have earlier := direct.of_suffix (Route.suffix_of_mem_ancestors above)
    have same : ∀ content, after.read (fileName :: outer) = .ok content ↔
        tree.read (fileName :: outer) = .ok content := fun content =>
      FileTree.read_eq_ok_iff_of_grows grows grounded earlier not_special.1 not_special.2 kept
    apply Option.ext
    intro content
    rw [toOption_eq_some_iff, toOption_eq_some_iff, same]
  apply findSome?_congr
  intro place inside
  exact congrArg (Option.bind · declaredFormat?) (sameAt place inside)

end Reading

end Manifest

end TypedClient
