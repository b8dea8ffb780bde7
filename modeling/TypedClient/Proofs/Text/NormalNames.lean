import TypedClient.Proofs.Text.Identifiers
import TypedClient.Proofs.Text.Pieces

/-! Names in normal form.

A bindable name is an identifier and no reserved word. Every text has an identifier of that kind, and the
bindable names are those that are their own. The name of a type depends on the identifier of its text
only, and is bindable too, since no reserved word has a capital in front.
-/

set_option autoImplicit false

namespace TypedClient.Text

def Bindable (name : String) : Prop := isIdentifier name = true ∧ isReserved name = false

instance (name : String) : Decidable (Bindable name) := inferInstanceAs (Decidable (_ ∧ _))

section Capitals
variable {c : Char} {text : List Char}

theorem isIdentifierStart_toUpper (begins : isIdentifierStart c = true) :
    isIdentifierStart c.toUpper = true := by
  refine identifierChar_cases
    (motive := fun c => isIdentifierStart c = true → isIdentifierStart c.toUpper = true) (by decide)
    (isIdentifierChar_of_start begins) begins

theorem isLower_toUpper (usable : isIdentifierChar c = true) : c.toUpper.isLower = false :=
  identifierChar_cases (motive := fun c => c.toUpper.isLower = false) (by decide) usable

theorem isIdentifierList_capitalizeList (legal : isIdentifierList text = true) :
    isIdentifierList (capitalizeList text) = true := by
  cases text with
  | nil => cases legal
  | cons c rest =>
    obtain ⟨begins, others⟩ := isIdentifierList_iff.mp legal
    rw [capitalizeList_cons (isIdentifierChar_of_start begins)]
    exact isIdentifierList_iff.mpr ⟨isIdentifierStart_toUpper begins, others⟩

theorem isReserved_capitalizeList (usable : Usable text) :
    isReserved (String.ofList (capitalizeList text)) = false := by
  -- All reserved words begin with a small letter.
  have small : ∀ word ∈ reservedWords, word.toList.head?.any Char.isLower = true := by decide
  cases text with
  | nil => rfl
  | cons c rest =>
    have first := (usable_cons.mp usable).1
    rw [capitalizeList_cons first]
    apply isReserved_cons
    intro word member same
    have lower := small word member
    rw [same, Option.any_some, isLower_toUpper first] at lower
    cases lower

end Capitals

section Types
variable (text : String)

/-- The name of a type is an identifier with a capital in front. -/
theorem exists_typeName_eq :
    ∃ name, isIdentifierList name = true ∧ typeName text = String.ofList (capitalizeList name) := by
  have legal := isIdentifier_toIdentifier text
  have words : ∀ word ∈ reservedWords, isIdentifierList word.toList = true := by decide
  unfold typeName
  simp only
  split
  case h_1 rest found =>
    split
    case isTrue reserved =>
      refine ⟨rest, ?_, rfl⟩
      simpa using words _ (List.contains_iff_mem.mp reserved)
    case isFalse => exact ⟨_, legal, rfl⟩
  case h_2 => exact ⟨_, legal, rfl⟩

theorem bindable_typeName : Bindable (typeName text) := by
  obtain ⟨name, legal, spelled⟩ := exists_typeName_eq text
  rw [spelled]
  constructor
  · rw [isIdentifier, String.toList_ofList]
    exact isIdentifierList_capitalizeList legal
  · exact isReserved_capitalizeList (usable_of_isIdentifierList legal)

end Types

section Identifiers
variable {text : String} {letters : List Char}

theorem bindable_toIdentifier (text : String) : Bindable (toIdentifier text) :=
  ⟨isIdentifier_toIdentifier text, isReserved_toIdentifier text⟩

/-- A text of identifier characters is a single word. -/
theorem identifierWords_of_usable (usable : Usable letters) (nonempty : letters ≠ []) :
    identifierWords letters = [letters] := by
  unfold identifierWords
  rw [splitAt_of_stays fun c inside => by simp [usable c inside]]
  simp [nonempty]

theorem toIdentifier_of_bindable (bindable : Bindable text) : toIdentifier text = text := by
  obtain ⟨legal, free⟩ := bindable
  have spelled := String.ofList_toList (s := text)
  rw [isIdentifier] at legal
  rw [← spelled] at free
  cases letters : text.toList with
  | nil =>
    rw [letters] at legal
    cases legal
  | cons c rest =>
    rw [letters] at legal free spelled
    have begins := (isIdentifierList_iff.mp legal).1
    -- No digit begins an identifier, so no mark goes in front.
    have letter : c.isDigit = false :=
      identifierChar_cases (motive := fun c => isIdentifierStart c = true → c.isDigit = false) (by decide)
        (isIdentifierChar_of_start begins) begins
    have word := identifierWords_of_usable (usable_of_isIdentifierList legal) (List.cons_ne_nil c rest)
    unfold toIdentifier
    rw [letters, word, camelCase, List.flatMap_nil, List.append_nil]
    simp only [letter, free, Bool.or_self, Bool.false_eq_true, if_false]
    exact spelled

/-- The bindable names are the identifiers that texts are made into. -/
theorem toIdentifier_eq_self_iff : toIdentifier text = text ↔ Bindable text := by
  constructor
  · intro same
    rw [← same]
    exact bindable_toIdentifier text
  · exact toIdentifier_of_bindable

theorem toIdentifier_toIdentifier (text : String) :
    toIdentifier (toIdentifier text) = toIdentifier text :=
  toIdentifier_of_bindable (bindable_toIdentifier text)

theorem typeName_toIdentifier (text : String) : typeName (toIdentifier text) = typeName text := by
  unfold typeName
  rw [toIdentifier_toIdentifier]

end Identifiers

/-- Both names of a text are bindable, and normal forms: making an identifier changes what is not
bindable and nothing else, and leaves the name of the type as it is. -/
theorem names_normal (text : String) :
    Bindable (toIdentifier text) ∧ Bindable (typeName text) ∧
      (toIdentifier text = text ↔ Bindable text) ∧
      toIdentifier (toIdentifier text) = toIdentifier text ∧
      typeName (toIdentifier text) = typeName text :=
  ⟨bindable_toIdentifier text, bindable_typeName text, toIdentifier_eq_self_iff,
    toIdentifier_toIdentifier text, typeName_toIdentifier text⟩

end TypedClient.Text
