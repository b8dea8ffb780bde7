import TypedClient.Proofs.Text.NormalNames

/-! Which of the names that are made for a client are bindable.

The identifier of a client and its factory always are. The interface is named by the identifier without
its leading underscores, and these may be all there is, or stand in front of a digit. So its name is
bindable only if something better than a digit follows them.
-/

set_option autoImplicit false

namespace TypedClient.Text

section Leads
variable {c : Char} {letters : List Char}

def lead? (letters : List Char) : Option Char := letters.find? (· != '_')

theorem lead?_cons_of_ne (other : c ≠ '_') (rest : List Char) : lead? (c :: rest) = some c := by
  simp [lead?, other]

theorem lead?_underscore (rest : List Char) : lead? ('_' :: rest) = lead? rest := rfl

theorem head?_dropWhile_underscore (letters : List Char) :
    (letters.dropWhile (· == '_')).head? = lead? letters := by
  induction letters with
  | nil => rfl
  | cons c rest ih =>
    by_cases score : c = '_'
    · rw [score, lead?_underscore, List.dropWhile_cons_of_pos rfl, ih]
    · rw [lead?_cons_of_ne score, List.dropWhile_cons_of_neg (by simpa using score), List.head?_cons]

/-- Capitals change no digit and no underscore, nor do they make one. -/
theorem lead?_capitalizeList (usable : Usable letters) :
    (lead? (capitalizeList letters)).map Char.isDigit = (lead? letters).map Char.isDigit := by
  cases letters with
  | nil => rfl
  | cons c rest =>
    have first := (usable_cons.mp usable).1
    have digit : c.toUpper.isDigit = c.isDigit :=
      identifierChar_cases (motive := fun c => c.toUpper.isDigit = c.isDigit) (by decide) first
    rw [capitalizeList_cons first]
    by_cases score : c = '_'
    · rw [score]
      rfl
    · have kept : c.toUpper ≠ '_' := fun same => score ((toUpper_eq_underscore_iff first).mp same)
      rw [lead?_cons_of_ne score, lead?_cons_of_ne kept, Option.map_some, Option.map_some, digit]

theorem lead?_append (first rest : List Char) : lead? (first ++ rest) = (lead? first).or (lead? rest) :=
  List.find?_append

theorem lead?_capitalized {words : List (List Char)} (usable : ∀ word ∈ words, Usable word) :
    (lead? (words.flatMap capitalizeList)).map Char.isDigit =
      (lead? words.flatten).map Char.isDigit := by
  induction words with
  | nil => rfl
  | cons word rest ih =>
    have tail := ih fun other member => usable other (List.mem_cons_of_mem word member)
    rw [List.flatMap_cons, List.flatten_cons, lead?_append, lead?_append, Option.map_or, Option.map_or,
      lead?_capitalizeList (usable word List.mem_cons_self), tail]

theorem lead?_camelCase {words : List (List Char)} (usable : ∀ word ∈ words, Usable word) :
    (lead? (camelCase words)).map Char.isDigit = (lead? words.flatten).map Char.isDigit := by
  cases words with
  | nil => rfl
  | cons word rest =>
    have tail := lead?_capitalized fun other member => usable other (List.mem_cons_of_mem word member)
    rw [camelCase, List.flatten_cons, lead?_append, lead?_append, Option.map_or, Option.map_or, tail]

theorem isIdentifierList_capitalizeList_iff (usable : Usable letters) :
    isIdentifierList (capitalizeList letters) = true ↔ letters.head?.map Char.isDigit = some false := by
  cases letters with
  | nil => exact iff_of_false nofun nofun
  | cons c rest =>
    obtain ⟨first, others⟩ := usable_cons.mp usable
    have begins : isIdentifierStart c.toUpper = true ↔ c.isDigit = false :=
      identifierChar_cases (motive := fun c => isIdentifierStart c.toUpper = true ↔ c.isDigit = false)
        (by decide) first
    rw [capitalizeList_cons first, isIdentifierList_iff, begins]
    simp [others]

end Leads

theorem identifierWords_eq_nil_iff {letters : List Char} :
    identifierWords letters = [] ↔ letters.filter isIdentifierChar = [] := by
  rw [← flatten_identifierWords]
  constructor
  · intro none
    rw [none, List.flatten_nil]
  · intro none
    -- A word has a character, which is then among those of all words.
    refine List.eq_nil_iff_forall_not_mem.mpr fun word member => identifierWord_ne_nil member ?_
    exact List.flatten_eq_nil_iff.mp none word member

def usableChars (text : String) : List Char := text.toList.filter isIdentifierChar

/-- The first letter of an identifier is a digit where it is one in the text; a text without letters for
one has the identifier `_empty`. -/
theorem lead?_toIdentifier (text : String) :
    (lead? (toIdentifier text).toList).map Char.isDigit = some false ↔
      (lead? (usableChars text)).map Char.isDigit = some false ∨ usableChars text = [] := by
  have named := toIdentifier_cases text
  have camel := lead?_camelCase fun word (member : word ∈ identifierWords text.toList) =>
    usable_identifierWord member
  rw [flatten_identifierWords, ← usableChars] at camel
  have present {c : Char} {rest : List Char} (found : camelCase (identifierWords text.toList) = c :: rest) :
      usableChars text ≠ [] := by
    intro none
    rw [identifierWords_eq_nil_iff.mpr none] at found
    cases found
  generalize (toIdentifier text).toList = name at named
  cases named with
  | empty words =>
    have none := flatten_identifierWords text.toList
    rw [words, List.flatten_nil] at none
    exact iff_of_true rfl (.inr none.symm)
  | marked found => rw [lead?_underscore, ← found, camel, or_iff_left (present found)]
  | plain found => rw [← found, camel, or_iff_left (present found)]

end TypedClient.Text

namespace TypedClient.ClientName

open Text

/-- Whether the first letter of a text that is no underscore is no digit. A text without any letters
passes as well. -/
def NamesInterface (text : String) : Prop :=
  (lead? (usableChars text)).map Char.isDigit = some false ∨ usableChars text = []

instance (text : String) : Decidable (NamesInterface text) := inferInstanceAs (Decidable (_ ∨ _))

theorem exists_toList_generate (name : String) :
    ∃ rest, ("generate" ++ name ++ "Client").toList = 'g' :: rest := by
  rw [String.toList_append, String.toList_append, List.append_assoc]
  exact ⟨_, rfl⟩

section Names
variable (text : String)

theorem interface_eq : (ofText text).interface =
    String.ofList (capitalizeList ((toIdentifier text).toList.dropWhile (· == '_'))) := by
  simp [ofText, dropUnderscores, capitalize]

theorem usable_stripped : Usable ((toIdentifier text).toList.dropWhile (· == '_')) :=
  (toIdentifier_cases text).usable.of_suffix (List.dropWhile_suffix _)

theorem isIdentifier_interface_iff : isIdentifier (ofText text).interface = true ↔ NamesInterface text := by
  rw [interface_eq, isIdentifier, String.toList_ofList,
    isIdentifierList_capitalizeList_iff (usable_stripped text), head?_dropWhile_underscore]
  exact lead?_toIdentifier text

theorem isReserved_interface : isReserved (ofText text).interface = false := by
  rw [interface_eq]
  exact isReserved_capitalizeList (usable_stripped text)

theorem bindable_factory : Bindable (ofText text).factory := by
  have usable := usable_factory text
  have whole : (ofText text).factory = "generate" ++ (ofText text).interface ++ "Client" := rfl
  obtain ⟨rest, spelled⟩ := exists_toList_generate (ofText text).interface
  rw [← whole] at spelled
  rw [Bindable, isIdentifier, ← String.ofList_toList (s := (ofText text).factory)]
  rw [spelled] at usable ⊢
  constructor
  · rw [String.toList_ofList]
    exact isIdentifierList_iff.mpr ⟨rfl, (usable_cons.mp usable).2⟩
  · -- No reserved word begins with that letter.
    exact isReserved_cons (by decide) rest

end Names

/-- The identifier and the factory of a client are bindable. Its interface is never reserved, and an
identifier exactly if the name of the client leads to one. -/
theorem bindable_iff (text : String) :
    Bindable (ofText text).identifier ∧ Bindable (ofText text).factory ∧
      isReserved (ofText text).interface = false ∧
      (Bindable (ofText text).interface ↔ NamesInterface text) := by
  refine ⟨bindable_toIdentifier text, bindable_factory text, isReserved_interface text, ?_⟩
  rw [Bindable, isIdentifier_interface_iff, and_iff_left (isReserved_interface text)]

/-- The interface of `2fa` would be `2fa`. -/
theorem interfaces_not_bindable : ¬ ∀ text, Bindable (ofText text).identifier ∧
    Bindable (ofText text).interface ∧ Bindable (ofText text).factory := by
  intro always
  exact absurd (always "2fa").2.1 (by decide)

end TypedClient.ClientName
