import Mathlib.Data.List.Basic
import TypedClient.Factory

/-! Identifiers that texts are made into.

The characters of identifiers are ASCII, and upper case turns each into one other. The
words of a text hold exactly its identifier characters, so everything that is put
together from words is made of these. An identifier that is made of a text is never a
reserved word, since none of those begins with an underscore.
-/

set_option autoImplicit false

namespace TypedClient.Text

section Characters
variable {c : Char}

theorem ascii_of_identifierChar (usable : isIdentifierChar c = true) : c.toNat < 0x80 := by
  unfold isIdentifierChar Char.isAlphanum Char.isAlpha Char.isUpper Char.isLower Char.isDigit at usable
  simp only [Bool.or_eq_true, Bool.and_eq_true, decide_eq_true_eq, beq_iff_eq] at usable
  rcases usable with (((⟨_, upTo⟩ | ⟨_, upTo⟩) | ⟨_, upTo⟩) | rfl) | rfl
  case inr => decide
  case inl.inr => decide
  all_goals
    have bound := UInt32.le_iff_toNat_le.mp upTo
    simp at bound
    omega

/-- What holds of the 128 characters of ASCII, one by one, holds of every identifier character. -/
theorem identifierChar_cases {motive : Char → Prop}
    (each : ∀ code < 0x80, isIdentifierChar (Char.ofNat code) = true → motive (Char.ofNat code))
    (usable : isIdentifierChar c = true) : motive c := by
  have found := each c.toNat (ascii_of_identifierChar usable)
  rw [Char.ofNat_toNat] at found
  exact found usable

theorem isIdentifierChar_toUpper (usable : isIdentifierChar c = true) :
    isIdentifierChar c.toUpper = true :=
  identifierChar_cases (motive := fun c => isIdentifierChar c.toUpper = true) (by decide) usable

theorem toUpper_eq_underscore_iff (usable : isIdentifierChar c = true) :
    c.toUpper = '_' ↔ c = '_' :=
  identifierChar_cases (motive := fun c => c.toUpper = '_' ↔ c = '_') (by decide) usable

/-- An identifier character that does not begin identifiers is a digit. -/
theorem isIdentifierStart_of_not_digit (usable : isIdentifierChar c = true)
    (other : c.isDigit = false) : isIdentifierStart c = true := by
  simpa [isIdentifierChar, isIdentifierStart, Char.isAlphanum, other] using usable

theorem isIdentifierChar_of_start (begins : isIdentifierStart c = true) :
    isIdentifierChar c = true := by
  unfold isIdentifierStart at begins
  unfold isIdentifierChar Char.isAlphanum
  simp only [Bool.or_eq_true] at begins ⊢
  rcases begins with (letter | score) | dollar
  · exact .inl (.inl (.inl letter))
  · exact .inl (.inr score)
  · exact .inr dollar

end Characters

def Usable (text : List Char) : Prop := ∀ c ∈ text, isIdentifierChar c = true

section Usable
variable {c : Char} {text first rest : List Char}

theorem usable_nil : Usable [] := fun _ member => absurd member List.not_mem_nil

theorem usable_cons : Usable (c :: text) ↔ isIdentifierChar c = true ∧ Usable text :=
  List.forall_mem_cons

theorem usable_append : Usable (first ++ rest) ↔ Usable first ∧ Usable rest :=
  List.forall_mem_append

theorem usable_of_all (usable : text.all isIdentifierChar = true) : Usable text :=
  List.all_eq_true.mp usable

theorem Usable.of_suffix (usable : Usable text) (suffix : rest <:+ text) : Usable rest :=
  fun c member => usable c (suffix.subset member)

theorem capitalizeList_cons (usable : isIdentifierChar c = true) :
    capitalizeList (c :: rest) = c.toUpper :: rest := by
  rw [capitalizeList, upperCase_ascii (ascii_of_identifierChar usable), List.singleton_append]

theorem Usable.capitalizeList (usable : Usable text) : Usable (capitalizeList text) := by
  cases text with
  | nil => exact usable_nil
  | cons c rest =>
    obtain ⟨first, others⟩ := usable_cons.mp usable
    rw [capitalizeList_cons first]
    exact usable_cons.mpr ⟨isIdentifierChar_toUpper first, others⟩

theorem capitalizeList_eq_nil_iff (usable : Usable text) : capitalizeList text = [] ↔ text = [] := by
  cases text with
  | nil => exact Iff.rfl
  | cons c rest => simp [capitalizeList_cons (usable_cons.mp usable).1]

theorem isIdentifierList_iff :
    isIdentifierList (c :: rest) = true ↔ isIdentifierStart c = true ∧ Usable rest := by
  simp [isIdentifierList, Usable]

theorem usable_of_isIdentifierList (legal : isIdentifierList text = true) : Usable text := by
  cases text with
  | nil => cases legal
  | cons c rest =>
    obtain ⟨begins, others⟩ := isIdentifierList_iff.mp legal
    exact usable_cons.mpr ⟨isIdentifierChar_of_start begins, others⟩

end Usable

section Words

theorem flatten_splitAt (isSeparator : Char → Bool) (text : List Char) :
    (splitAt isSeparator text).flatten = text.filter fun c => !isSeparator c := by
  induction text with
  | nil => rfl
  | cons c rest ih =>
    rw [splitAt]
    split
    case isTrue separates => simp [separates, ih]
    case isFalse stays =>
      have different : isSeparator c = false := by simpa using stays
      split
      case h_1 none => exact absurd none (splitAt_ne_nil isSeparator rest)
      case h_2 piece pieces found =>
        rw [found] at ih
        simpa [different] using ih

theorem flatten_filter_nonempty (words : List (List Char)) :
    (words.filter fun word => !word.isEmpty).flatten = words.flatten := by
  induction words with
  | nil => rfl
  | cons word rest ih => cases word <;> simp [ih]

theorem flatten_identifierWords (text : List Char) :
    (identifierWords text).flatten = text.filter isIdentifierChar := by
  unfold identifierWords
  rw [flatten_filter_nonempty, flatten_splitAt]
  simp

variable {text word : List Char}

theorem usable_identifierWord (member : word ∈ identifierWords text) : Usable word := by
  intro c inside
  have found : c ∈ (identifierWords text).flatten := List.mem_flatten.mpr ⟨word, member, inside⟩
  rw [flatten_identifierWords] at found
  exact (List.mem_filter.mp found).2

theorem identifierWord_ne_nil (member : word ∈ identifierWords text) : word ≠ [] := by
  simpa using (List.mem_filter.mp member).2

theorem usable_camelCase {words : List (List Char)} (usable : ∀ word ∈ words, Usable word) :
    Usable (camelCase words) := by
  cases words with
  | nil => exact usable_nil
  | cons word rest =>
    refine usable_append.mpr ⟨usable word List.mem_cons_self, ?_⟩
    intro c member
    obtain ⟨other, listed, inside⟩ := List.mem_flatMap.mp member
    exact (usable other (List.mem_cons_of_mem _ listed)).capitalizeList c inside

end Words

/-- A text is not reserved if no reserved word begins with its first character. -/
theorem isReserved_cons {c : Char} (foreign : ∀ word ∈ reservedWords, word.toList.head? ≠ some c)
    (rest : List Char) : isReserved (String.ofList (c :: rest)) = false := by
  cases found : isReserved (String.ofList (c :: rest)) with
  | false => rfl
  | true => exact absurd (by simp) (foreign _ (List.contains_iff_mem.mp found))

theorem isReserved_underscore (rest : List Char) : isReserved (String.ofList ('_' :: rest)) = false :=
  isReserved_cons (by decide) rest

/-- How the identifier of a text comes out: the words in camel case, behind an underscore if they
could not stand alone. -/
inductive IdentifierOf (text : String) : List Char → Prop where
  | empty : identifierWords text.toList = [] → IdentifierOf text ['_', 'e', 'm', 'p', 't', 'y']
  | marked {c : Char} {rest : List Char} : camelCase (identifierWords text.toList) = c :: rest →
      (c.isDigit || isReserved (String.ofList (c :: rest))) = true → IdentifierOf text ('_' :: c :: rest)
  | plain {c : Char} {rest : List Char} : camelCase (identifierWords text.toList) = c :: rest →
      c.isDigit = false → isReserved (String.ofList (c :: rest)) = false → IdentifierOf text (c :: rest)

theorem toIdentifier_cases (text : String) : IdentifierOf text (toIdentifier text).toList := by
  unfold toIdentifier
  split
  case h_1 none =>
    cases words : identifierWords text.toList with
    | nil => exact .empty words
    | cons word rest =>
      -- A first word has a character, which camel case keeps.
      have nonempty : word ≠ [] := identifierWord_ne_nil (by rw [words]; exact List.mem_cons_self)
      rw [words, camelCase] at none
      exact absurd (List.append_eq_nil_iff.mp none).1 nonempty
  case h_2 c rest found =>
    simp only
    split
    case isTrue mark =>
      rw [String.toList_ofList]
      exact .marked found mark
    case isFalse alone =>
      simp only [Bool.or_eq_true, not_or, Bool.not_eq_true] at alone
      rw [String.toList_ofList]
      exact .plain found alone.1 alone.2

theorem IdentifierOf.usable {text : String} {name : List Char} (named : IdentifierOf text name) :
    Usable name := by
  -- Camel case changes no more than the first characters of words.
  have camel : Usable (camelCase (identifierWords text.toList)) :=
    usable_camelCase fun _ member => usable_identifierWord member
  cases named with
  | empty => exact usable_of_all rfl
  | marked found =>
    rw [found] at camel
    exact usable_cons.mpr ⟨rfl, camel⟩
  | plain found =>
    rw [found] at camel
    exact camel

theorem isIdentifier_toIdentifier (text : String) : isIdentifier (toIdentifier text) = true := by
  have named := toIdentifier_cases text
  have usable := named.usable
  unfold isIdentifier
  generalize (toIdentifier text).toList = name at named usable
  cases named with
  | empty => rfl
  | marked => exact isIdentifierList_iff.mpr ⟨rfl, (usable_cons.mp usable).2⟩
  | plain _ other =>
    obtain ⟨first, others⟩ := usable_cons.mp usable
    exact isIdentifierList_iff.mpr ⟨isIdentifierStart_of_not_digit first other, others⟩

theorem isReserved_toIdentifier (text : String) : isReserved (toIdentifier text) = false := by
  have named := toIdentifier_cases text
  rw [← String.ofList_toList (s := toIdentifier text)]
  generalize (toIdentifier text).toList = name at named
  cases named with
  | empty => rfl
  | marked => exact isReserved_underscore _
  | plain _ _ free => exact free

theorem usable_typeName (text : String) : Usable (typeName text).toList := by
  have usable := (toIdentifier_cases text).usable
  unfold typeName capitalize
  simp only
  split
  case h_1 rest found =>
    rw [found] at usable
    split
    · rw [String.toList_ofList]
      exact (usable_cons.mp usable).2.capitalizeList
    · rw [String.toList_ofList, found]
      exact usable.capitalizeList
  case h_2 =>
    rw [String.toList_ofList]
    exact usable.capitalizeList

theorem typeName_ne_empty (text : String) : typeName text ≠ "" := by
  have usable := (toIdentifier_cases text).usable
  have present : (toIdentifier text).toList ≠ [] := by
    intro none
    have legal := isIdentifier_toIdentifier text
    rw [isIdentifier, none] at legal
    cases legal
  have capital : capitalize (toIdentifier text) ≠ "" := by
    rw [capitalize, Ne, ← String.toList_eq_nil_iff, String.toList_ofList,
      capitalizeList_eq_nil_iff usable]
    exact present
  unfold typeName
  simp only
  split
  case h_1 rest found =>
    split
    case isTrue reserved =>
      -- No reserved word is empty.
      rw [found] at usable
      rw [Ne, ← String.toList_eq_nil_iff, String.toList_ofList,
        capitalizeList_eq_nil_iff (usable_cons.mp usable).2]
      rintro rfl
      exact absurd reserved (by decide)
    case isFalse => exact capital
  case h_2 => exact capital

end TypedClient.Text

namespace TypedClient.ClientName
variable (text : String)

theorem usable_interface : Text.Usable (ofText text).interface.toList := by
  have usable := (Text.toIdentifier_cases text).usable.of_suffix
    (List.dropWhile_suffix (· == '_'))
  unfold ofText dropUnderscores Text.capitalize
  simp only [String.toList_ofList]
  exact usable.capitalizeList

theorem usable_factory : Text.Usable (ofText text).factory.toList := by
  have spelled : (ofText text).factory = "generate" ++ (ofText text).interface ++ "Client" := rfl
  rw [spelled, String.toList_append, String.toList_append]
  exact Text.usable_append.mpr ⟨Text.usable_append.mpr
    ⟨Text.usable_of_all (by decide), usable_interface text⟩, Text.usable_of_all (by decide)⟩

end TypedClient.ClientName
