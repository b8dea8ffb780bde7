import Mathlib.Data.List.TakeWhile
import TypedClient.Proofs.OpenApi.OperationIds
import TypedClient.Proofs.Text.Identifiers

/-! Which operation ids can be binding names.

Every id is an identifier. An id that is asked for is escaped if it is a reserved word,
but one that is made of a method and a path is not: the words of the path may all be
empty, and `delete` is a method and a reserved word at once. No other id is reserved.
-/

set_option autoImplicit false

namespace TypedClient.Text

variable {c : Char} {text first rest : List Char}

theorem isIdentifierList_append (legal : isIdentifierList first = true) (usable : Usable rest) :
    isIdentifierList (first ++ rest) = true := by
  cases first with
  | nil => cases legal
  | cons c first =>
    obtain ⟨begins, others⟩ := isIdentifierList_iff.mp legal
    exact isIdentifierList_iff.mpr ⟨begins, usable_append.mpr ⟨others, usable⟩⟩

theorem capitalizeList_scores_iff (usable : Usable text) :
    (∀ c ∈ capitalizeList text, c = '_') ↔ ∀ c ∈ text, c = '_' := by
  cases text with
  | nil => exact Iff.rfl
  | cons c rest =>
    have first := (usable_cons.mp usable).1
    rw [capitalizeList_cons first, List.forall_mem_cons, List.forall_mem_cons,
      toUpper_eq_underscore_iff first]

theorem camelCase_scores_iff (words : List (List Char)) (usable : ∀ word ∈ words, Usable word) :
    (∀ c ∈ camelCase words, c = '_') ↔ ∀ c ∈ words.flatten, c = '_' := by
  cases words with
  | nil => exact Iff.rfl
  | cons word rest =>
    rw [camelCase, List.flatten_cons, List.forall_mem_append, List.forall_mem_append]
    refine and_congr_right fun _ => ?_
    simp only [List.mem_flatMap, List.mem_flatten, forall_exists_index, and_imp]
    constructor
    · intro scores c other listed
      exact (capitalizeList_scores_iff (usable other (List.mem_cons_of_mem _ listed))).mp
        (fun c inside => scores c other listed inside) c
    · intro scores c other listed
      exact (capitalizeList_scores_iff (usable other (List.mem_cons_of_mem _ listed))).mpr
        (fun c inside => scores c other listed inside) c

/-- An identifier is all underscores if its text has some and nothing else to make words of. -/
theorem toIdentifier_scores_iff (text : String) :
    (∀ c ∈ (toIdentifier text).toList, c = '_') ↔
      '_' ∈ text.toList ∧ ∀ c ∈ text.toList, isIdentifierChar c = true → c = '_' := by
  have named := toIdentifier_cases text
  have camel := camelCase_scores_iff (identifierWords text.toList)
    fun _ member => usable_identifierWord member
  simp only [flatten_identifierWords, List.mem_filter, and_imp] at camel
  generalize (toIdentifier text).toList = name at named
  cases named with
  | empty words =>
    -- No words, so no underscore either.
    have none := flatten_identifierWords text.toList
    rw [words, List.flatten_nil, eq_comm, List.filter_eq_nil_iff] at none
    refine iff_of_false (by simp) ?_
    rintro ⟨score, _⟩
    exact none '_' score rfl
  | @marked c rest found mark =>
    -- What is marked begins with a digit or is a reserved word, and neither is all underscores.
    rw [found] at camel
    have other : ¬ ∀ d ∈ c :: rest, d = '_' := by
      intro scores
      rw [scores c List.mem_cons_self, isReserved_underscore] at mark
      cases mark
    refine iff_of_false ?_ ?_
    · exact fun scores => other fun d inside => scores d (List.mem_cons_of_mem _ inside)
    · rintro ⟨_, scores⟩
      exact other (camel.mpr scores)
  | @plain c rest found =>
    rw [found] at camel
    constructor
    · intro scores
      refine ⟨?_, camel.mp scores⟩
      -- The first character of the first word stands in the text.
      have words := flatten_identifierWords text.toList
      cases listed : identifierWords text.toList with
      | nil => rw [listed] at found; cases found
      | cons word others =>
        have nonempty : word ≠ [] := identifierWord_ne_nil (by rw [listed]; exact List.mem_cons_self)
        obtain ⟨d, tail, rfl⟩ := List.exists_cons_of_ne_nil nonempty
        rw [listed, camelCase, List.cons_append, List.cons.injEq] at found
        have inside : d ∈ text.toList.filter isIdentifierChar := by
          rw [← words, listed]
          exact List.mem_append_left _ List.mem_cons_self
        rw [found.1, scores c List.mem_cons_self] at inside
        exact (List.mem_filter.mp inside).1
    · rintro ⟨_, scores⟩
      exact camel.mpr scores

end TypedClient.Text

namespace TypedClient.OpenApi

open Text

section Segments
variable {c : Char} {segment : List Char} {path : String}

theorem mem_dropWhile_iff {dropped : Char} (other : c ≠ dropped) :
    c ∈ segment.dropWhile (· == dropped) ↔ c ∈ segment := by
  induction segment with
  | nil => rfl
  | cons d rest ih =>
    rw [List.dropWhile_cons]
    split
    case isTrue same =>
      rw [ih, List.mem_cons, beq_iff_eq.mp same]
      exact (or_iff_right other).symm
    case isFalse => rfl

theorem mem_dropEnd_iff {dropped : Char} (other : c ≠ dropped) :
    c ∈ dropEnd dropped segment ↔ c ∈ segment := by
  rw [dropEnd, List.mem_reverse, mem_dropWhile_iff other, List.mem_reverse]

/-- A segment with underscores and without any other identifier character. -/
def Blank (segment : List Char) : Prop :=
  '_' ∈ segment ∧ ∀ c ∈ segment, isIdentifierChar c = true → c = '_'

theorem segmentWord_eq_nil_iff : segmentWord segment = [] ↔ Blank segment := by
  -- The braces that are dropped first are no identifier characters.
  have inner : ∀ c, isIdentifierChar c = true →
      (c ∈ dropEnd '}' (segment.dropWhile (· == '{')) ↔ c ∈ segment) := by
    intro c usable
    have opening : c ≠ '{' := by rintro rfl; cases usable
    have closing : c ≠ '}' := by rintro rfl; cases usable
    rw [mem_dropEnd_iff closing, mem_dropWhile_iff opening]
  have name := toIdentifier_scores_iff (String.ofList (dropEnd '}' (segment.dropWhile (· == '{'))))
  rw [String.toList_ofList, inner '_' rfl] at name
  unfold segmentWord Blank
  simp only
  rw [capitalizeList_eq_nil_iff, List.dropWhile_eq_nil_iff]
  · simp only [beq_iff_eq]
    rw [name]
    refine and_congr_right fun _ => forall_congr' fun c => ?_
    exact ⟨fun scores inside usable => scores ((inner c usable).mpr inside) usable,
      fun scores inside usable => scores ((inner c usable).mp inside) usable⟩
  · exact (toIdentifier_cases _).usable.of_suffix (List.dropWhile_suffix _)

theorem usable_segmentWord (segment : List Char) : Usable (segmentWord segment) := by
  unfold segmentWord
  exact ((toIdentifier_cases _).usable.of_suffix (List.dropWhile_suffix _)).capitalizeList

theorem usable_joinWith {separator : List Char} (usable : Usable separator)
    {words : List (List Char)} (each : ∀ word ∈ words, Usable word) :
    Usable (joinWith separator words) := by
  induction words with
  | nil => exact usable_nil
  | cons word rest ih =>
    have first := each word List.mem_cons_self
    cases rest with
    | nil => exact first
    | cons second rest =>
      have others := ih fun word member => each word (List.mem_cons_of_mem _ member)
      exact usable_append.mpr ⟨usable_append.mpr ⟨first, usable⟩, others⟩

def pathSegments (path : String) : List (List Char) :=
  (splitAt (· == '/') path.toList).filter (!·.isEmpty)

/-- What the segments of a path add to the method: the words of the first ones, and behind `By` those
of the templates at the end. -/
def pathWords (path : String) : List Char :=
  let segments := pathSegments path
  let trailing := (segments.reverse.takeWhile isTemplate).length
  let templates := segments.drop (segments.length - trailing)
  (segments.take (segments.length - trailing)).flatMap segmentWord ++
    if templates.isEmpty then [] else
      "By".toList ++ joinWith "And".toList (templates.map segmentWord)

theorem toList_synthesizedId (method : Method) (path : String) :
    (synthesizedId method path).toList =
      method.text.toList ++ if (pathSegments path).isEmpty then "Root".toList else pathWords path := by
  unfold synthesizedId pathWords pathSegments
  simp only
  split <;> simp only [String.toList_append, String.toList_ofList]

theorem usable_pathWords (path : String) : Usable (pathWords path) := by
  have words : ∀ segments : List (List Char), ∀ word ∈ segments.map segmentWord, Usable word := by
    intro segments word member
    obtain ⟨segment, _, rfl⟩ := List.mem_map.mp member
    exact usable_segmentWord segment
  refine usable_append.mpr ⟨?_, ?_⟩
  · intro c member
    obtain ⟨segment, _, inside⟩ := List.mem_flatMap.mp member
    exact usable_segmentWord segment c inside
  · split
    · exact usable_nil
    · exact usable_append.mpr ⟨usable_of_all rfl, usable_joinWith (usable_of_all rfl) (words _)⟩

/-- A path with segments, all of them blank and the last one not in braces. -/
structure Wordless (path : String) : Prop where
  segments : pathSegments path ≠ []
  blank : ∀ segment ∈ pathSegments path, Blank segment
  bare : ∀ last, (pathSegments path).getLast? = some last → isTemplate last = false

theorem trailing_eq_zero_iff {segments : List (List Char)} :
    (segments.reverse.takeWhile isTemplate).length = 0 ↔
      ∀ last, segments.getLast? = some last → isTemplate last = false := by
  rw [← List.head?_reverse, List.length_eq_zero_iff]
  cases segments.reverse with
  | nil => simp
  | cons last rest => simp [List.takeWhile_cons]

theorem pathWords_eq_nil_iff (segments : pathSegments path ≠ []) :
    pathWords path = [] ↔ Wordless path := by
  unfold pathWords
  simp only [List.append_eq_nil_iff]
  have fewer : ((pathSegments path).reverse.takeWhile isTemplate).length ≤
      (pathSegments path).length := by
    have trailing : ((pathSegments path).reverse.takeWhile isTemplate).Sublist
        (pathSegments path).reverse := List.takeWhile_sublist _
    simpa using trailing.length_le
  constructor
  · rintro ⟨words, suffix⟩
    -- Without templates at the end all segments are among the first ones.
    have none : ((pathSegments path).reverse.takeWhile isTemplate).length = 0 := by
      split at suffix
      case isTrue empty =>
        have length := congrArg List.length (List.isEmpty_iff.mp empty)
        rw [List.length_drop, List.length_nil] at length
        omega
      case isFalse => simp at suffix
    rw [none, Nat.sub_zero, List.take_length, List.flatMap_eq_nil_iff] at words
    exact ⟨segments, fun segment member => segmentWord_eq_nil_iff.mp (words segment member),
      trailing_eq_zero_iff.mp none⟩
  · intro wordless
    rw [trailing_eq_zero_iff.mpr wordless.bare, Nat.sub_zero, List.take_length, List.drop_length]
    refine ⟨List.flatMap_eq_nil_iff.mpr fun segment member => ?_, rfl⟩
    exact segmentWord_eq_nil_iff.mpr (wordless.blank segment member)

end Segments

section Reserved
variable {method : Method} {base : String} {rest : List Char}

/-- A reserved word that begins with a method is that method, which is `delete`. -/
theorem isReserved_method_append
    (reserved : isReserved (String.ofList (method.text.toList ++ rest)) = true) :
    method = .delete ∧ rest = [] := by
  have leads : ∀ word ∈ reservedWords, ∀ method ∈ Method.all,
      dropLead? method.text.toList word.toList = none ∨
        method = .delete ∧ dropLead? method.text.toList word.toList = some [] := by
    decide
  have lead := leads _ (List.contains_iff_mem.mp reserved) method (by cases method <;> decide)
  rw [String.toList_ofList, dropLead?_append] at lead
  rcases lead with none | ⟨same, all⟩
  · cases none
  · exact ⟨same, Option.some.inj all⟩

theorem isReserved_numbered (base : String) (number : Nat) :
    isReserved (base ++ toString number) = false := by
  -- No reserved word has a digit in it.
  have letters : ∀ word ∈ reservedWords, word.toList.all (!·.isDigit) = true := by decide
  cases found : isReserved (base ++ toString number) with
  | false => rfl
  | true =>
    obtain ⟨c, inside⟩ := List.exists_mem_of_ne_nil _ (Nat.toDigits_ne_nil (n := number) (b := 10))
    have digit := Nat.isDigit_of_mem_toDigits (by decide) (by decide) inside
    have letter := List.all_eq_true.mp (letters _ (List.contains_iff_mem.mp found)) c (by
      rw [String.toList_append, Nat.toString_eq_repr, Nat.toList_repr]
      exact List.mem_append_right _ inside)
    rw [digit] at letter
    cases letter

theorem usable_number (number : Nat) : Usable (toString number).toList := by
  intro c inside
  rw [Nat.toString_eq_repr, Nat.toList_repr] at inside
  have digit := Nat.isDigit_of_mem_toDigits (by decide) (by decide) inside
  simp [isIdentifierChar, Char.isAlphanum, digit]

theorem isIdentifier_append_number (legal : isIdentifier base = true) (number : Nat) :
    isIdentifier (base ++ toString number) = true := by
  unfold isIdentifier
  rw [String.toList_append]
  exact isIdentifierList_append legal (usable_number number)

theorem isIdentifier_synthesizedId (method : Method) (path : String) :
    isIdentifier (synthesizedId method path) = true := by
  have begins : isIdentifierList method.text.toList = true := by cases method <;> decide
  unfold isIdentifier
  rw [toList_synthesizedId]
  refine isIdentifierList_append begins ?_
  split
  · exact usable_of_all rfl
  · exact usable_pathWords path

/-- Of the ids that are made of a method and a path, only the bare `delete` is reserved. -/
theorem isReserved_synthesizedId_iff {path : String} :
    isReserved (synthesizedId method path) = true ↔ method = .delete ∧ Wordless path := by
  have whole := String.ofList_toList (s := synthesizedId method path)
  rw [toList_synthesizedId] at whole
  rw [← whole]
  constructor
  · intro reserved
    obtain ⟨same, none⟩ := isReserved_method_append reserved
    split at none
    case isTrue => cases none
    case isFalse segments =>
      exact ⟨same, (pathWords_eq_nil_iff (mt List.isEmpty_iff.mpr segments)).mp none⟩
  · rintro ⟨rfl, wordless⟩
    rw [if_neg (mt List.isEmpty_iff.mp wordless.segments),
      (pathWords_eq_nil_iff wordless.segments).mpr wordless]
    decide

end Reserved

namespace IdRequest

variable {request : IdRequest} {taken : List String} {id : String}

/-- The request is due the bare `delete`: it has no id of its own, and its path has no words. -/
structure DueDelete (request : IdRequest) (taken : List String) : Prop where
  unserved : request.Unserved taken
  method : request.method = .delete
  wordless : Wordless request.path
  free : "delete" ∉ taken

theorem base_eq_delete (method : request.method = .delete) (wordless : Wordless request.path) :
    request.base = "delete" := by
  rw [base, ← String.toList_inj, toList_synthesizedId,
    if_neg (mt List.isEmpty_iff.mp wordless.segments),
    (pathWords_eq_nil_iff wordless.segments).mpr wordless, method]
  rfl

theorem Due.isIdentifier (due : request.Due taken id) : isIdentifier id = true := by
  cases due with
  | explicit => exact isIdentifier_toIdentifier _
  | base => exact isIdentifier_synthesizedId _ _
  | numbered => exact isIdentifier_append_number (isIdentifier_synthesizedId _ _) _

/-- An id is the one that is asked for, or begins with the method. -/
theorem Due.asked_or_begins (due : request.Due taken id) :
    (∃ text, request.explicit = some text ∧ toIdentifier text = id) ∨
      request.method.text.toList <+: id.toList := by
  have begins : request.method.text.toList <+: request.base.toList :=
    ⟨_, (toList_synthesizedId request.method request.path).symm⟩
  cases due with
  | @explicit text asked _ => exact .inl ⟨text, asked, rfl⟩
  | base => exact .inr begins
  | numbered =>
    rw [String.toList_append]
    exact .inr (begins.trans (List.prefix_append _ _))

theorem DueDelete.due (bare : request.DueDelete taken) : request.Due taken "delete" := by
  have same : request.base = "delete" := base_eq_delete bare.method bare.wordless
  rw [← same]
  exact .base bare.unserved (same ▸ bare.free)

theorem Due.isReserved_iff (due : request.Due taken id) :
    isReserved id = true ↔ request.DueDelete taken := by
  constructor
  · intro reserved
    cases due with
    | explicit =>
      rw [isReserved_toIdentifier] at reserved
      cases reserved
    | base unserved free =>
      obtain ⟨method, wordless⟩ := isReserved_synthesizedId_iff.mp reserved
      exact ⟨unserved, method, wordless, base_eq_delete method wordless ▸ free⟩
    | numbered =>
      rw [isReserved_numbered] at reserved
      cases reserved
  · intro bare
    rw [due.unique bare.due]
    decide

end IdRequest

section HandOut
variable {reserved : List String} {requests : List IdRequest} {position : Nat}
  {request : IdRequest} {id : String}

theorem isIdentifier_of_mem_handOut (member : id ∈ handOut reserved requests) :
    isIdentifier id = true := by
  induction requests generalizing reserved with
  | nil => cases member
  | cons request rest ih =>
    rcases List.mem_cons.mp member with rfl | inside
    · exact (request.due_operationIdFor reserved).isIdentifier
    · exact ih inside

/-- An id that begins with no method is asked for. -/
theorem exists_asked_of_mem_handOut (member : id ∈ handOut reserved requests)
    (other : ∀ method : Method, ¬ method.text.toList <+: id.toList) :
    ∃ request ∈ requests, ∃ text, request.explicit = some text ∧ toIdentifier text = id := by
  induction requests generalizing reserved with
  | nil => cases member
  | cons request rest ih =>
    rcases List.mem_cons.mp member with rfl | inside
    · obtain asked | begins := (request.due_operationIdFor reserved).asked_or_begins
      · exact ⟨request, .head _, asked⟩
      · exact absurd begins (other request.method)
    · obtain ⟨request, listed, asked⟩ := ih inside
      exact ⟨request, .tail _ listed, asked⟩

/-- Every id is an identifier, and none is reserved but the bare `delete`, for a request that is due
it. -/
theorem handOut_legal (asked : requests[position]? = some request)
    (handed : (handOut reserved requests)[position]? = some id) :
    isIdentifier id = true ∧ (isReserved id = true → id = "delete") ∧
      (isReserved id = true ↔
        request.DueDelete ((handOut reserved requests).take position ++ reserved)) := by
  obtain ⟨given, handedToo, due⟩ := handOut_due reserved asked
  rw [handed] at handedToo
  cases handedToo
  refine ⟨due.isIdentifier, fun word => ?_, due.isReserved_iff⟩
  exact due.unique (due.isReserved_iff.mp word).due

theorem escaped_handOut_legal :
    handOut ["build"] [⟨.delete, "/_", none⟩, ⟨.get, "/_", some "delete"⟩] = ["delete", "_delete"] ∧
      isIdentifier "_delete" = true ∧
      (isReserved "_delete" = true ↔
        IdRequest.DueDelete ⟨.get, "/_", some "delete"⟩ ["delete", "build"]) := by
  have handed : handOut ["build"] [⟨.delete, "/_", none⟩, ⟨.get, "/_", some "delete"⟩] =
      ["delete", "_delete"] := by decide
  obtain ⟨legal, _, word⟩ := @handOut_legal ["build"]
    [⟨.delete, "/_", none⟩, ⟨.get, "/_", some "delete"⟩] 1 _ "_delete" rfl (by rw [handed]; rfl)
  rw [handed] at word
  exact ⟨handed, legal, word⟩

/-- A path without words leaves the method alone, and that is reserved. -/
theorem delete_not_legal :
    handOut [] [⟨.delete, "/_", none⟩] = ["delete"] ∧ isReserved "delete" = true := by
  decide

end HandOut

end TypedClient.OpenApi
