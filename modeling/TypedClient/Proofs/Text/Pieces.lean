import Mathlib.Algebra.GroupWithZero.Nat
import Mathlib.Data.String.Basic
import TypedClient.Text.Pieces

/-! Where a text is cut, and how long its pieces are. -/

set_option autoImplicit false

namespace TypedClient.Text

variable {isSeparator : Char → Bool} {separator c : Char} {text tail : List Char}

theorem splitAt_cons_of_separates (separates : isSeparator c = true) (rest : List Char) :
    splitAt isSeparator (c :: rest) = [] :: splitAt isSeparator rest := by
  rw [splitAt, if_pos separates]

/-- A character that stays joins the first of the pieces behind it. -/
theorem exists_splitAt_cons (stays : isSeparator c = false) (rest : List Char) :
    ∃ piece pieces, splitAt isSeparator rest = piece :: pieces ∧
      splitAt isSeparator (c :: rest) = (c :: piece) :: pieces := by
  rw [splitAt, if_neg (by simp [stays])]
  cases found : splitAt isSeparator rest with
  | nil => exact absurd found (splitAt_ne_nil isSeparator rest)
  | cons piece pieces => exact ⟨piece, pieces, rfl, rfl⟩

theorem splitAt_append_cons (separates : isSeparator c = true) (first rest : List Char) :
    splitAt isSeparator (first ++ c :: rest) =
      splitAt isSeparator first ++ splitAt isSeparator rest := by
  induction first with
  | nil => exact splitAt_cons_of_separates separates rest
  | cons d first ih =>
    rw [List.cons_append]
    cases cut : isSeparator d with
    | true =>
      rw [splitAt_cons_of_separates cut, splitAt_cons_of_separates cut, ih, List.cons_append]
    | false =>
      obtain ⟨piece, pieces, shorter, longer⟩ := exists_splitAt_cons cut (first ++ c :: rest)
      obtain ⟨head, heads, before, now⟩ := exists_splitAt_cons cut first
      rw [ih, before, List.cons_append] at shorter
      cases shorter
      rw [longer, now, List.cons_append]

theorem splitAt_of_stays (stays : ∀ c ∈ text, isSeparator c = false) :
    splitAt isSeparator text = [text] := by
  induction text with
  | nil => rfl
  | cons c rest ih =>
    obtain ⟨piece, pieces, shorter, longer⟩ := exists_splitAt_cons (stays c (.head _)) rest
    rw [ih fun d inside => stays d (.tail _ inside)] at shorter
    cases shorter
    exact longer

theorem not_separates_of_mem_splitAt {piece : List Char} (member : piece ∈ splitAt isSeparator text)
    (inside : c ∈ piece) : isSeparator c = false := by
  induction text generalizing piece with
  | nil =>
    rw [splitAt, List.mem_singleton] at member
    rw [member] at inside
    cases inside
  | cons d rest ih =>
    cases cut : isSeparator d with
    | true =>
      rw [splitAt_cons_of_separates cut] at member
      rcases List.mem_cons.mp member with rfl | later
      · cases inside
      · exact ih later inside
    | false =>
      obtain ⟨head, heads, shorter, longer⟩ := exists_splitAt_cons cut rest
      rw [shorter] at ih
      rw [longer] at member
      rcases List.mem_cons.mp member with rfl | later
      · rcases List.mem_cons.mp inside with rfl | behind
        · exact cut
        · exact ih List.mem_cons_self behind
      · exact ih (List.mem_cons_of_mem head later) inside

/-- What no separator is in stays at the end of the last piece, behind what is always there. -/
theorem exists_splitAt_append (isSeparator : Char → Bool) (text : List Char) :
    ∃ pieces piece, ∀ tail, (∀ c ∈ tail, isSeparator c = false) →
      splitAt isSeparator (text ++ tail) = pieces ++ [piece ++ tail] := by
  induction text with
  | nil => exact ⟨[], [], fun tail stays => splitAt_of_stays stays⟩
  | cons c rest ih =>
    obtain ⟨pieces, piece, found⟩ := ih
    cases cut : isSeparator c with
    | true =>
      refine ⟨[] :: pieces, piece, fun tail stays => ?_⟩
      rw [List.cons_append, splitAt_cons_of_separates cut, found tail stays, List.cons_append]
    | false =>
      cases pieces with
      | nil =>
        refine ⟨[], c :: piece, fun tail stays => ?_⟩
        obtain ⟨head, heads, shorter, longer⟩ := exists_splitAt_cons cut (rest ++ tail)
        rw [found tail stays] at shorter
        cases shorter
        exact longer
      | cons first more =>
        refine ⟨(c :: first) :: more, piece, fun tail stays => ?_⟩
        obtain ⟨head, heads, shorter, longer⟩ := exists_splitAt_cons cut (rest ++ tail)
        rw [found tail stays] at shorter
        cases shorter
        exact longer

/-- A separator behind each piece makes the text longer by one separator. -/
theorem sum_utf8Len_splitAt (separator : Char) (text : List Char) :
    ((splitAt (· == separator) text).map (separator.utf8Size + String.utf8Len ·)).sum =
      separator.utf8Size + String.utf8Len text := by
  induction text with
  | nil => simp [splitAt]
  | cons c rest ih =>
    cases cut : c == separator with
    | true =>
      have same : c = separator := by simpa using cut
      rw [@splitAt_cons_of_separates (· == separator) c cut, List.map_cons, List.sum_cons, ih, String.utf8Len_cons,
        String.utf8Len_nil, same]
      omega
    | false =>
      obtain ⟨piece, pieces, shorter, longer⟩ :=
        @exists_splitAt_cons (· == separator) c cut rest
      rw [shorter, List.map_cons, List.sum_cons] at ih
      rw [longer, List.map_cons, List.sum_cons, String.utf8Len_cons, String.utf8Len_cons]
      omega

end TypedClient.Text
