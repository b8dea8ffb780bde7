import Mathlib.Algebra.Order.BigOperators.Group.List
import TypedClient.Files.Route
import TypedClient.Proofs.Text.Pieces

/-! The names of joined paths, and the length of the path with given names. -/

set_option autoImplicit false

namespace TypedClient.Route

open Text (splitAt splitOn)

variable {base folder name path : String} {route inner : Route}

section Names

theorem splitOn_append (first rest : String) :
    splitOn separator (first ++ "/" ++ rest) = splitOn separator first ++ splitOn separator rest := by
  have cut : splitAt (· == separator) (first.toList ++ separator :: rest.toList) =
      splitAt (· == separator) first.toList ++ splitAt (· == separator) rest.toList :=
    @Text.splitAt_append_cons (· == separator) separator (beq_self_eq_true separator) _ _
  unfold splitOn
  rw [String.toList_append, String.toList_append, List.append_assoc]
  change (splitAt (· == separator) (first.toList ++ separator :: rest.toList)).map _ = _
  rw [cut, List.map_append]

theorem ofPath_append (first rest : String) :
    ofPath (first ++ "/" ++ rest) = ofPath rest ++ ofPath first := by
  unfold ofPath
  rw [splitOn_append, List.filter_append, List.reverse_append]

/-- A separator at the end of a path adds no name. -/
theorem ofPath_append_separator (first : String) : ofPath (first ++ "/") = ofPath first := by
  have given := ofPath_append first ""
  rwa [String.append_empty] at given

theorem isAbsolute_iff :
    isAbsolute path = true ↔ ∃ characters, path.toList = separator :: characters := by
  unfold isAbsolute
  rw [decide_eq_true_iff, List.head?_eq_some_iff]

theorem isAbsolute_append (absolute : isAbsolute path = true) (rest : String) :
    isAbsolute (path ++ rest) = true := by
  obtain ⟨characters, spelled⟩ := isAbsolute_iff.mp absolute
  apply isAbsolute_iff.mpr
  rw [String.toList_append, spelled]
  exact ⟨characters ++ rest.toList, rfl⟩

theorem isAbsolute_join (absolute : isAbsolute base = true) (path : String) :
    isAbsolute (join base path) = true := by
  unfold join
  split_ifs with given
  · exact given
  · exact isAbsolute_append absolute path
  · exact isAbsolute_append (isAbsolute_append absolute "/") path

/-- The names of a path come behind those of the folder in which it is looked for. -/
theorem ofPath_join (absolute : isAbsolute folder = true) (relative : isAbsolute name = false) :
    ofPath (join folder name) = ofPath name ++ ofPath folder := by
  unfold join
  rw [relative, if_neg nofun]
  split_ifs with ends
  · -- The folder ends with a separator, since it is not empty.
    obtain ⟨characters, spelled⟩ := isAbsolute_iff.mp absolute
    obtain empty | ⟨front, last, cut⟩ := List.eq_nil_or_concat folder.toList
    · rw [empty] at spelled
      cases spelled
    · rw [List.concat_eq_append] at cut
      rw [cut, List.getLast?_concat] at ends
      have same : last = separator := by simpa using ends
      have whole : folder = String.ofList front ++ "/" := by
        apply String.toList_injective
        rw [cut, same, String.toList_append, String.toList_ofList]
        rfl
      rw [whole, ofPath_append, ofPath_append_separator]
  · exact ofPath_append folder name

/-- A separator in front of a path adds no name. -/
theorem ofPath_root (path : String) : ofPath ("/" ++ path) = ofPath path := by
  have given := ofPath_append "" path
  rwa [String.empty_append, show ofPath "" = [] from rfl, List.append_nil] at given

theorem join_root (relative : isAbsolute name = false) :
    join ("/" ++ folder) name = "/" ++ join folder name := by
  have ends : ("/" ++ folder).toList.getLast?.all (· == separator) =
      folder.toList.getLast?.all (· == separator) := by
    rw [String.toList_append]
    cases folder.toList with
    | nil => rfl
    | cons first rest => exact congrArg (Option.all _) (List.getLast?_cons_cons ..)
  unfold join
  simp only [relative, ends, Bool.false_eq_true, if_false]
  split_ifs <;> simp only [String.append_assoc]

/-- A folder that is not absolute may as well be looked for from the root. -/
theorem ofPath_join_of_relative (folder : String) (relative : isAbsolute name = false) :
    ofPath (join folder name) = ofPath name ++ ofPath folder := by
  have absolute : isAbsolute ("/" ++ folder) = true := isAbsolute_append rfl folder
  rw [← ofPath_root (join folder name), ← join_root relative, ofPath_join absolute relative,
    ofPath_root]

/-- A text without separators stays at the end of the last name, and has no say in the others. -/
theorem exists_ofPath_append (front : String) :
    ∃ more outer, ∀ tail, tail ≠ "" → (∀ c ∈ tail.toList, c ≠ separator) →
      ofPath (front ++ tail) = (more ++ tail) :: outer := by
  obtain ⟨pieces, piece, cut⟩ := Text.exists_splitAt_append (· == separator) front.toList
  refine ⟨String.ofList piece, ((pieces.map String.ofList).filter (· ≠ "")).reverse, ?_⟩
  intro tail nonempty plain
  have stays : ∀ c ∈ tail.toList, (c == separator) = false :=
    fun c inside => beq_false_of_ne (plain c inside)
  have joined : String.ofList (piece ++ tail.toList) = String.ofList piece ++ tail := by
    rw [String.ofList_append, String.ofList_toList]
  have kept : String.ofList piece ++ tail ≠ "" := by
    intro empty
    exact nonempty (String.append_eq_empty_iff.mp empty).2
  unfold ofPath splitOn
  rw [String.toList_append, cut _ stays, List.map_append, List.filter_append, List.reverse_append,
    List.map_singleton, joined, List.filter_singleton, decide_eq_true kept]
  rfl

theorem ofPath_of_plain (nonempty : path ≠ "") (plain : ∀ c ∈ path.toList, c ≠ separator) :
    ofPath path = [path] := by
  have stays : ∀ c ∈ path.toList, (c == separator) = false :=
    fun c inside => beq_false_of_ne (plain c inside)
  unfold ofPath splitOn
  rw [@Text.splitAt_of_stays (· == separator) path.toList stays, List.map_singleton,
    String.ofList_toList, List.filter_singleton, decide_eq_true nonempty]
  rfl

theorem isAbsolute_of_plain (plain : ∀ c ∈ path.toList, c ≠ separator) :
    isAbsolute path = false := by
  rw [← Bool.not_eq_true, isAbsolute_iff]
  rintro ⟨characters, spelled⟩
  rw [spelled] at plain
  exact plain separator (.head _) rfl

/-- A path without separators at the end of another leaves this absolute or not. -/
theorem isAbsolute_append_of_plain {tail : String} (plain : ∀ c ∈ tail.toList, c ≠ separator) :
    isAbsolute (name ++ tail) = isAbsolute name := by
  unfold isAbsolute
  rw [String.toList_append]
  cases spelled : name.toList with
  | nil =>
    cases ending : tail.toList with
    | nil => rfl
    | cons first rest =>
      have other : first ≠ separator := plain first (ending ▸ .head _)
      simp [other]
  | cons first rest => rfl

/-- Names that begin alike and end without separators lead to one folder. -/
theorem exists_ofPath_join_append (folder name : String) :
    ∃ more outer, ∀ tail, tail ≠ "" → (∀ c ∈ tail.toList, c ≠ separator) →
      ofPath (join folder (name ++ tail)) = (more ++ tail) :: outer := by
  have joined : ∃ front, ∀ tail, (∀ c ∈ tail.toList, c ≠ separator) →
      join folder (name ++ tail) = front ++ tail := by
    unfold join
    by_cases absolute : isAbsolute name = true
    · refine ⟨name, fun tail plain => ?_⟩
      rw [isAbsolute_append_of_plain plain, if_pos absolute]
    · by_cases ends : folder.toList.getLast?.all (· == separator) = true
      · refine ⟨folder ++ name, fun tail plain => ?_⟩
        rw [isAbsolute_append_of_plain plain, if_neg absolute, if_pos ends, String.append_assoc]
      · refine ⟨folder ++ "/" ++ name, fun tail plain => ?_⟩
        rw [isAbsolute_append_of_plain plain, if_neg absolute, if_neg ends, String.append_assoc,
          String.append_assoc, String.append_assoc]
  obtain ⟨front, same⟩ := joined
  obtain ⟨more, outer, split⟩ := exists_ofPath_append front
  refine ⟨more, outer, fun tail nonempty plain => ?_⟩
  rw [same tail plain, split tail nonempty plain]

end Names

section Sizes

def size (route : Route) : ℕ := (route.map fun name => 1 + name.utf8ByteSize).sum

theorem utf8ByteSize_text (nonempty : route ≠ []) : (text route).utf8ByteSize = size route := by
  have joined : ∀ pieces : List String, pieces ≠ [] →
      1 + (Text.join "/" pieces).utf8ByteSize = size pieces := by
    intro pieces
    induction pieces with
    | nil => intro absurdity; exact absurd rfl absurdity
    | cons piece rest ih =>
      intro _
      cases rest with
      | nil => rfl
      | cons second more =>
        have shorter := ih (List.cons_ne_nil second more)
        rw [Text.join_cons_cons, String.utf8ByteSize_append, String.utf8ByteSize_append]
        change _ = 1 + piece.utf8ByteSize + size (second :: more)
        rw [← shorter]
        change 1 + (piece.utf8ByteSize + 1 + _) = _
        omega
  have whole := joined route.reverse (by simpa using nonempty)
  unfold text
  rw [String.utf8ByteSize_append]
  change 1 + _ = _
  rw [whole, size, List.map_reverse, List.sum_reverse, size]

theorem size_le_of_suffix (suffix : inner <:+ route) : size inner ≤ size route := by
  obtain ⟨front, rfl⟩ := suffix
  unfold size
  rw [List.map_append, List.sum_append]
  omega

theorem size_ofPath_le (absolute : isAbsolute path = true) :
    size (ofPath path) ≤ path.utf8ByteSize := by
  obtain ⟨characters, spelled⟩ := isAbsolute_iff.mp absolute
  have cut : splitOn separator path =
      "" :: (splitAt (· == separator) characters).map String.ofList := by
    unfold splitOn
    rw [spelled, @Text.splitAt_cons_of_separates (· == separator) separator (beq_self_eq_true _)]
    rfl
  have whole : path.utf8ByteSize = 1 + String.utf8Len characters := by
    rw [← String.utf8Len_toList, spelled, String.utf8Len_cons, Nat.add_comm]
    rfl
  have pieces : ((splitAt (· == separator) characters).map String.ofList).map
      (fun name => 1 + name.utf8ByteSize) =
        (splitAt (· == separator) characters).map (separator.utf8Size + String.utf8Len ·) := by
    rw [List.map_map]
    apply List.map_congr_left
    intro piece _
    exact congrArg (1 + ·) (String.utf8ByteSize_ofList piece)
  have fewer : List.Sublist
      (((splitAt (· == separator) characters).map String.ofList).filter (· ≠ ""))
      ((splitAt (· == separator) characters).map String.ofList) := List.filter_sublist
  unfold size ofPath
  rw [List.map_reverse, List.sum_reverse, cut, List.filter_cons_of_neg (by simp), whole]
  calc (((((splitAt (· == separator) characters).map String.ofList).filter (· ≠ "")).map
        fun name => 1 + name.utf8ByteSize)).sum
      ≤ (((splitAt (· == separator) characters).map String.ofList).map
        fun name => 1 + name.utf8ByteSize).sum :=
        (fewer.map _).sum_le_sum fun _ _ => Nat.zero_le _
    _ = 1 + String.utf8Len characters := by
        rw [pieces, Text.sum_utf8Len_splitAt]
        rfl

end Sizes

end TypedClient.Route
