import Mathlib.Data.List.Nodup
import Mathlib.Data.Nat.Find
import TypedClient.OpenApi.OperationId
import TypedClient.Proofs.Lists

/-! Operation ids that are handed out one after the other.

An id is taken from the moment it is handed out, so no two are equal. The numbers behind
a base give distinct ids, of which only as many can be taken as there are taken ids, so
the search for a free one ends. It tries the numbers in order and finds the least.
-/

set_option autoImplicit false

namespace TypedClient.OpenApi

open Text (toIdentifier)

variable {taken others : List String} {id : String}

/-- Among as many distinct ids as are taken and one more, one is free. -/
theorem exists_free {candidate : Nat → String} (distinct : Function.Injective candidate)
    (taken : List String) : ∃ index ≤ taken.length, candidate index ∉ taken := by
  -- Else the taken ids would include more distinct ones than there are of them.
  by_contra all
  simp only [not_exists, not_and, not_not] at all
  have inside : (List.range (taken.length + 1)).map candidate ⊆ taken := by
    intro id member
    obtain ⟨index, listed, rfl⟩ := List.mem_map.mp member
    exact all index (Nat.le_of_lt_succ (List.mem_range.mp listed))
  have fewer := (List.nodup_range.map distinct).length_le_of_subset inside
  rw [List.length_map, List.length_range] at fewer
  omega

theorem numbered_injective (base : String) :
    Function.Injective fun number : Nat => base ++ toString number := by
  intro first second same
  have texts : toString first = toString second := (String.append_right_inj base).mp same
  have digits : Nat.toDigits 10 first = Nat.toDigits 10 second := by
    simpa only [Nat.toString_eq_repr, Nat.toList_repr] using congrArg String.toList texts
  -- Digits can be read back as the number that they were written for.
  have numbers := congrArg (fun digits => Nat.ofDigitChars 10 digits 0) digits
  simpa only [Nat.ofDigitChars_ten_toDigits] using numbers

theorem numbered_ne_base (base : String) (number : Nat) : base ++ toString number ≠ base := by
  intro same
  have none : toString number = "" :=
    (String.append_right_inj base).mp (same.trans (String.append_empty).symm)
  have digits : Nat.toDigits 10 number = [] := by
    simpa only [Nat.toString_eq_repr, Nat.toList_repr, String.toList_empty] using
      congrArg String.toList none
  exact Nat.toDigits_ne_nil digits

theorem numberedId_injective (base : String) : Function.Injective (numberedId base) := by
  intro first second same
  rcases first with _ | first <;> rcases second with _ | second
  · rfl
  · exact absurd same.symm (numbered_ne_base base _)
  · exact absurd same (numbered_ne_base base _)
  · exact Nat.succ_injective (numbered_injective base same)

/-- The first candidate that is free is found, and all before it are taken. -/
theorem firstFree_spec (taken : List String) (base : String) :
    ∃ index, firstFree taken base = numberedId base index ∧ numberedId base index ∉ taken ∧
      ∀ smaller < index, numberedId base smaller ∈ taken := by
  have some : ∃ index, (List.range (taken.length + 1)).find?
      (fun index => !taken.contains (numberedId base index)) = some index := by
    obtain ⟨free, within, unused⟩ := exists_free (numberedId_injective base) taken
    refine Option.isSome_iff_exists.mp (List.find?_isSome.mpr ⟨free, ?_, by simpa using unused⟩)
    exact List.mem_range.mpr (Nat.lt_succ_of_le within)
  obtain ⟨index, found⟩ := some
  refine ⟨index, ?_, ?_⟩
  · simp only [firstFree, List.find?_map, Function.comp_def, found, Option.map_some, Option.getD_some]
  · obtain ⟨free, _, before⟩ := List.find?_range_eq_some.mp found
    exact ⟨by simpa using free, fun smaller below => by simpa using before smaller below⟩

section Search
variable {base : String} {number last : Nat}

/-- The search for a free id from one number behind the base to another: it goes on while the id at
hand is taken. -/
inductive Search (taken : List String) (base : String) : Nat → Nat → Prop where
  | free {number : Nat} : base ++ toString number ∉ taken → Search taken base number number
  | next {number last : Nat} : base ++ toString number ∈ taken →
      Search taken base (number + 1) last → Search taken base number last

theorem search_iff :
    Search taken base number last ↔ number ≤ last ∧ base ++ toString last ∉ taken ∧
      ∀ smaller, number ≤ smaller → smaller < last → base ++ toString smaller ∈ taken := by
  constructor
  · intro search
    induction search with
    | free unused => exact ⟨Nat.le_refl _, unused, fun smaller above below => by omega⟩
    | @next number last met _ ih =>
      obtain ⟨above, unused, passed⟩ := ih
      refine ⟨by omega, unused, fun smaller atLeast below => ?_⟩
      rcases Nat.eq_or_lt_of_le atLeast with rfl | later
      · exact met
      · exact passed smaller later below
  · rintro ⟨above, unused, passed⟩
    induction gap : last - number generalizing number with
    | zero =>
      obtain rfl : number = last := by omega
      exact .free unused
    | succ gap ih =>
      refine .next (passed number (Nat.le_refl _) (by omega)) (ih (by omega) ?_ (by omega))
      exact fun smaller atLeast below => passed smaller (by omega) below

theorem search_ends (taken : List String) (base : String) (number : Nat) :
    ∃ last, Search taken base number last := by
  have shifted : Function.Injective fun index => base ++ toString (number + index) :=
    (numbered_injective base).comp fun _ _ => Nat.add_left_cancel
  have some : ∃ last, number ≤ last ∧ base ++ toString last ∉ taken := by
    obtain ⟨index, _, unused⟩ := exists_free shifted taken
    exact ⟨number + index, Nat.le_add_right _ _, unused⟩
  obtain ⟨above, unused⟩ := Nat.find_spec some
  refine ⟨Nat.find some, search_iff.mpr ⟨above, unused, fun smaller atLeast below => ?_⟩⟩
  by_contra free
  exact Nat.find_min some below ⟨atLeast, free⟩

end Search

structure IdRequest where
  method : Method
  path : String
  explicit : Option String
  deriving DecidableEq, Repr

namespace IdRequest

def base (request : IdRequest) : String := synthesizedId request.method request.path

/-- No id is asked for, or one that is taken. -/
def Unserved (request : IdRequest) (taken : List String) : Prop :=
  ∀ text, request.explicit = some text → toIdentifier text ∈ taken

/-- The id that a request is due when some are taken: its own, else the base, else the base with the
least number from 2 on, each if it is free. -/
inductive Due (request : IdRequest) (taken : List String) : String → Prop where
  | explicit {text : String} : request.explicit = some text → toIdentifier text ∉ taken →
      Due request taken (toIdentifier text)
  | base : request.Unserved taken → request.base ∉ taken → Due request taken request.base
  | numbered {number : Nat} : request.Unserved taken → request.base ∈ taken → 2 ≤ number →
      request.base ++ toString number ∉ taken →
      (∀ smaller, 2 ≤ smaller → smaller < number → request.base ++ toString smaller ∈ taken) →
      Due request taken (request.base ++ toString number)

variable {request : IdRequest}

theorem Due.free (due : request.Due taken id) : id ∉ taken := by
  cases due with
  | explicit _ free => exact free
  | base _ free => exact free
  | numbered _ _ _ free _ => exact free

theorem Due.congr (due : request.Due taken id) (same : ∀ other, other ∈ taken ↔ other ∈ others) :
    request.Due others id := by
  cases due with
  | explicit asked free => exact .explicit asked (mt (same _).mpr free)
  | base unserved free =>
    exact .base (fun text asked => (same _).mp (unserved text asked)) (mt (same _).mpr free)
  | numbered unserved met above free passed =>
    refine .numbered (fun text asked => (same _).mp (unserved text asked)) ((same _).mp met) above
      (mt (same _).mpr free) ?_
    exact fun smaller atLeast below => (same _).mp (passed smaller atLeast below)

theorem Due.unique (due : request.Due taken id) {other : String} (also : request.Due taken other) :
    id = other := by
  cases due with
  | explicit asked free =>
    cases also with
    | explicit askedToo => rw [Option.some.inj (asked.symm.trans askedToo)]
    | base unserved => exact absurd (unserved _ asked) free
    | numbered unserved => exact absurd (unserved _ asked) free
  | base unserved free =>
    cases also with
    | explicit asked freeToo => exact absurd (unserved _ asked) freeToo
    | base => rfl
    | numbered _ met => exact absurd met free
  | @numbered number unserved met above free passed =>
    cases also with
    | explicit asked freeToo => exact absurd (unserved _ asked) freeToo
    | base _ freeToo => exact absurd met freeToo
    | @numbered least _ _ aboveToo freeToo passedToo =>
      -- The numbers below either are taken, so neither is below the other.
      rcases Nat.lt_trichotomy number least with below | rfl | below
      · exact absurd (passedToo number above below) free
      · rfl
      · exact absurd (passed least aboveToo below) freeToo

theorem due_firstFree (unserved : request.Unserved taken) :
    request.Due taken (firstFree taken request.base) := by
  obtain ⟨index, found, free, passed⟩ := firstFree_spec taken request.base
  rw [found]
  rcases index with _ | index
  · exact .base unserved free
  · refine .numbered unserved (passed 0 (Nat.succ_pos _)) (by omega) free ?_
    intro smaller atLeast below
    -- The candidate of each index but the first has the next number.
    obtain ⟨before, rfl⟩ : ∃ before, smaller = before + 1 + 1 := ⟨smaller - 2, by omega⟩
    exact passed (before + 1) (by omega)

theorem due_operationIdFor (request : IdRequest) (taken : List String) :
    request.Due taken (operationIdFor taken request.method request.path request.explicit) := by
  unfold operationIdFor
  split
  case h_1 text asked =>
    simp only
    split
    case isTrue met =>
      refine due_firstFree fun other also => ?_
      rw [asked] at also
      cases also
      exact List.contains_iff_mem.mp met
    case isFalse free => exact .explicit asked (mt List.contains_iff_mem.mpr free)
  case h_2 none =>
    refine due_firstFree fun other asked => ?_
    rw [none] at asked
    cases asked

end IdRequest

/-- The ids for some requests in order, each taken from then on. -/
def handOut : List String → List IdRequest → List String
  | _, [] => []
  | taken, request :: rest =>
    let id := operationIdFor taken request.method request.path request.explicit
    id :: handOut (id :: taken) rest

section HandOut
variable {requests : List IdRequest}

theorem fresh_handOut (taken : List String) (requests : List IdRequest) :
    Fresh (handOut taken requests) taken := by
  induction requests generalizing taken with
  | nil => exact fresh_nil
  | cons request rest ih =>
    exact fresh_cons.mpr ⟨(request.due_operationIdFor taken).free, ih _⟩

theorem handOut_append (taken : List String) (first rest : List IdRequest) :
    handOut taken (first ++ rest) =
      handOut taken first ++ handOut ((handOut taken first).reverse ++ taken) rest := by
  induction first generalizing taken with
  | nil => rfl
  | cons request first ih => simp [handOut, ih]

theorem length_handOut (taken : List String) (requests : List IdRequest) :
    (handOut taken requests).length = requests.length := by
  induction requests generalizing taken with
  | nil => rfl
  | cons request rest ih => simp [handOut, ih]

theorem handOut_due (taken : List String) {position : Nat} {request : IdRequest}
    (asked : requests[position]? = some request) :
    ∃ id, (handOut taken requests)[position]? = some id ∧
      request.Due ((handOut taken requests).take position ++ taken) id := by
  induction requests generalizing taken position with
  | nil => cases asked
  | cons first rest ih =>
    cases position with
    | zero =>
      cases asked
      exact ⟨_, rfl, request.due_operationIdFor taken⟩
    | succ position =>
      obtain ⟨id, handed, due⟩ :=
        ih (operationIdFor taken first.method first.path first.explicit :: taken) asked
      refine ⟨id, handed, due.congr fun other => ?_⟩
      simp only [handOut, List.take_succ_cons, List.cons_append, List.mem_append, List.mem_cons]
      exact or_left_comm

/-- Ids are handed out once each and never if they are reserved; each is the one that is due, and
every search for a number ends. -/
theorem handOut_distinct (reserved : List String) (requests : List IdRequest) :
    (handOut reserved requests).Nodup ∧ (∀ id ∈ handOut reserved requests, id ∉ reserved) ∧
      ∀ position request, requests[position]? = some request →
        (∃ id, (handOut reserved requests)[position]? = some id ∧
          request.Due ((handOut reserved requests).take position ++ reserved) id) ∧
        ∃ last, Search ((handOut reserved requests).take position ++ reserved) request.base 2 last := by
  obtain ⟨distinct, unreserved⟩ := fresh_handOut reserved requests
  refine ⟨distinct, unreserved, fun position request asked => ⟨handOut_due reserved asked, ?_⟩⟩
  exact search_ends _ _ _

def movieRequests : List IdRequest :=
  [⟨.get, "/films", some "getMovies2"⟩, ⟨.get, "/movies", none⟩, ⟨.get, "/movies/", some "get-movies"⟩]

theorem movies_handOut_distinct :
    handOut ["getMovies3"] movieRequests = ["getMovies2", "getMovies", "getMovies4"] ∧
      ["getMovies2", "getMovies", "getMovies4"].Nodup ∧
      IdRequest.Due ⟨.get, "/movies/", some "get-movies"⟩ ["getMovies2", "getMovies", "getMovies3"]
        "getMovies4" := by
  have handed : handOut ["getMovies3"] movieRequests = ["getMovies2", "getMovies", "getMovies4"] := by
    decide
  obtain ⟨distinct, _, each⟩ := handOut_distinct ["getMovies3"] movieRequests
  obtain ⟨⟨id, last, due⟩, _⟩ := each 2 _ rfl
  rw [handed] at distinct last due
  cases last
  exact ⟨handed, distinct, due⟩

end HandOut

end TypedClient.OpenApi
