import TypedClient.Proofs.GraphQl.Scanning
import TypedClient.Proofs.Lists
import TypedClient.Proofs.Text.Identifiers

/-! Texts that are spelled out as tokens, wherever they stand on a page.

A page may indent all lines of a text but the first. Blanks between tokens do no harm.
-/

set_option autoImplicit false

namespace TypedClient.GraphQl.Definitions

section Names

def isNameList : List Char → Bool
  | [] => false
  | c :: rest => isNameStart c && rest.all isNameChar

def isName (text : String) : Bool := isNameList text.toList

variable {c : Char}

theorem identifierChar_of_nameChar (inside : isNameChar c = true) :
    Text.isIdentifierChar c = true := by
  simp only [isNameChar, Bool.or_eq_true] at inside
  simp only [Text.isIdentifierChar, Bool.or_eq_true]
  exact .inl inside

theorem nameChar_of_start (begins : isNameStart c = true) : isNameChar c = true := by
  simp only [isNameStart, Bool.or_eq_true] at begins
  simp only [isNameChar, Char.isAlphanum, Bool.or_eq_true]
  rcases begins with letter | score
  · exact .inl (.inl letter)
  · exact .inr score

/-- What holds of the 128 characters of ASCII, one by one, holds of every name character. -/
theorem nameChar_cases {motive : Char → Prop}
    (each : ∀ code < 0x80, isNameChar (Char.ofNat code) = true → motive (Char.ofNat code))
    (inside : isNameChar c = true) : motive c :=
  Text.identifierChar_cases (motive := fun c => isNameChar c = true → motive c)
    (fun code small _ inside => each code small inside) (identifierChar_of_nameChar inside) inside

theorem nameChar_of_endsNumber (ended : endsNumber c = true) : isNameChar c = false := by
  cases inside : isNameChar c with
  | false => rfl
  | true =>
    have other := nameChar_cases (motive := fun c => endsNumber c = false) (by decide) inside
    rw [ended] at other
    cases other

end Names

/-- Nothing behind a name or a literal may run together with it. -/
def stops : List Char → Bool
  | [] => true
  | c :: _ => endsNumber c

section Tokens
variable {c : Char} {text value raw rest : List Char}

theorem lexAll_other (unquoted : c ≠ '"') : lexAll (c :: rest) = lexOther lexAll c rest := by
  rw [lexAll_eq, lexFrom]
  · exact fun _ quote => absurd quote unquoted
  · exact unquoted

theorem lexAll_ignored (ignored : isIgnored c = true) : lexAll (c :: rest) = lexAll rest := by
  have unquoted : c ≠ '"' := by
    rintro rfl
    exact absurd ignored (by decide)
  simp [lexAll_other unquoted, lexOther, ignored]

def isAnyMark (c : Char) : Bool := isOpening c || isClosing c || isMark c

theorem lexAll_mark (isMark : isAnyMark c = true) : lexAll (c :: rest) = .mark c :: lexAll rest := by
  have other : isIgnored c = false ∧ c ≠ '#' ∧ c ≠ '"' := by
    have listed : c ∈ "([\x7b)]\x7d!$:=@|&".toList := by
      simpa [isAnyMark, isOpening, isClosing, Definitions.isMark, or_assoc] using isMark
    have plain : ("([\x7b)]\x7d!$:=@|&".toList.all fun c => !isIgnored c && (c != '#' && c != '"')) = true := by
      decide
    simpa using List.all_eq_true.mp plain c listed
  simp only [isAnyMark] at isMark
  simp [lexAll_other other.2.2, lexOther, other, isMark]

theorem lexAll_name {name : String} (legal : isName name = true) (stopped : stops rest = true) :
    lexAll (name.toList ++ rest) = .name name :: lexAll rest := by
  unfold isName at legal
  cases begins : name.toList with
  | nil => rw [begins] at legal; cases legal
  | cons c others =>
    rw [begins] at legal
    obtain ⟨first, inside⟩ := Bool.and_eq_true_iff.mp legal
    have plain : c ≠ '"' ∧ isIgnored c = false ∧ c ≠ '#' ∧ isAnyMark c = false :=
      nameChar_cases (motive := fun c => c ≠ '"' ∧ isIgnored c = false ∧ c ≠ '#' ∧ isAnyMark c = false)
        (by decide) (nameChar_of_start first)
    have whole := takeWhile_append_stop rest (List.all_eq_true.mp inside) (by
      intro d head
      cases rest with
      | nil => cases head
      | cons e rest =>
        cases head
        exact nameChar_of_endsNumber stopped)
    have named : String.ofList (c :: others) = name := by rw [← begins, String.ofList_toList]
    have unmarked := plain.2.2.2
    simp only [isAnyMark] at unmarked
    rw [List.cons_append, lexAll_other plain.1]
    simp [lexOther, plain, unmarked, first, whole, named]

theorem lexAll_number (begins : c.isDigit = true ∨ c = '-')
    (inside : ∀ d ∈ text, endsNumber d = false) (stopped : stops rest = true) :
    lexAll (c :: text ++ rest) = (number? (c :: text)).getD noToken :: lexAll rest := by
  have plain : c ≠ '"' ∧ isIgnored c = false ∧ c ≠ '#' ∧ isAnyMark c = false ∧ isNameStart c = false := by
    rcases begins with digit | rfl
    · exact nameChar_cases (motive := fun c => c.isDigit = true → c ≠ '"' ∧ isIgnored c = false ∧
        c ≠ '#' ∧ isAnyMark c = false ∧ isNameStart c = false) (by decide)
        (by simp [isNameChar, Char.isAlphanum, digit]) digit
    · decide
  have kept : ∀ d ∈ text, (!endsNumber d) = true := fun d member => by simp [inside d member]
  have whole := takeWhile_append_stop rest kept (by
    intro d head
    cases rest with
    | nil => cases head
    | cons e rest =>
      cases head
      simpa [stops] using stopped)
  have unmarked := plain.2.2.2.1
  simp only [isAnyMark] at unmarked
  rw [List.cons_append, lexAll_other plain.1]
  simp [lexOther, plain, unmarked, begins, whole]

theorem lexAll_text (read : readText text = some (value, rest))
    (unblocked : ∀ more, text ≠ '"' :: '"' :: more) :
    lexAll ('"' :: text) = .text (String.ofList value) :: lexAll rest := by
  rw [lexAll_eq, lexFrom]
  · simp only [read]
  · exact unblocked

theorem lexAll_block (read : readBlock text = some (raw, rest)) :
    lexAll ('"' :: '"' :: '"' :: text) = .text (String.ofList (blockText raw)) :: lexAll rest := by
  rw [lexAll_eq]
  simp only [lexFrom, read]

end Tokens

section Margins

def startsLine : List Char → Bool
  | [] => false
  | c :: _ => c != '\n'

def margin (indent : Nat) (c : Char) (rest : List Char) : List Char :=
  if c = '\n' ∧ startsLine rest then List.replicate indent ' ' else []

/-- The text with its lines indented, apart from the first one and from empty ones. -/
def reindent (indent : Nat) : List Char → List Char
  | [] => []
  | c :: rest => c :: (margin indent c rest ++ reindent indent rest)

variable {indent : Nat} {c : Char} {text rest : List Char}

theorem margin_of_ne (other : c ≠ '\n') : margin indent c rest = [] := by
  rw [margin, if_neg]
  exact fun both => other both.1

theorem reindent_cons (other : c ≠ '\n') :
    reindent indent (c :: rest) = c :: reindent indent rest := by
  rw [reindent, margin_of_ne other, List.nil_append]

theorem reindent_append (ended : text.getLast? ≠ some '\n') :
    reindent indent (text ++ rest) = reindent indent text ++ reindent indent rest := by
  induction text with
  | nil => rfl
  | cons c text ih =>
    cases text with
    | nil =>
      have other : c ≠ '\n' := by
        rintro rfl
        exact ended rfl
      rw [List.singleton_append, reindent_cons other, reindent_cons other]
      rfl
    | cons d text =>
      have same : margin indent c (d :: text ++ rest) = margin indent c (d :: text) := rfl
      have first : reindent indent (c :: d :: text) =
          c :: (margin indent c (d :: text) ++ reindent indent (d :: text)) := rfl
      rw [List.cons_append, reindent, same, ih (by simpa using ended), first, List.cons_append,
        List.append_assoc]

theorem reindent_of_one_line (single : '\n' ∉ text) : reindent indent text = text := by
  induction text with
  | nil => rfl
  | cons c text ih =>
    rw [List.mem_cons, not_or] at single
    rw [reindent_cons (Ne.symm single.1), ih single.2]

end Margins

/-- The text is spelled out as these tokens wherever it begins on a line, if nothing runs together
with it. -/
structure Spelled (indent : Nat) (text : List Char) (tokens : List Token) : Prop where
  ended : text.getLast? ≠ some '\n'
  lexes : ∀ rest, stops rest = true →
    lexAll (reindent indent text ++ rest) = tokens ++ lexAll rest

section Spelled
variable {indent : Nat} {c : Char} {text rest : List Char} {tokens more : List Token}

theorem Spelled.nil : Spelled indent [] [] := ⟨by simp, fun _ _ => rfl⟩

theorem Spelled.append (first : Spelled indent text tokens) (second : Spelled indent rest more)
    (apart : stops rest = true) : Spelled indent (text ++ rest) (tokens ++ more) := by
  constructor
  · cases rest with
    | nil => simpa using first.ended
    | cons c rest => simpa [List.getLast?_append] using second.ended
  · intro behind stopped
    have stopped' : stops (reindent indent rest ++ behind) = true := by
      cases rest with
      | nil => exact stopped
      | cons c rest => exact apart
    rw [reindent_append first.ended, List.append_assoc, first.lexes _ stopped',
      second.lexes _ stopped, List.append_assoc]

theorem Spelled.mark (isMark : isAnyMark c = true) (spelled : Spelled indent text tokens) :
    Spelled indent (c :: text) (.mark c :: tokens) := by
  have other : c ≠ '\n' := by
    rintro rfl
    exact absurd isMark (by decide)
  constructor
  · cases text with
    | nil => simpa using other
    | cons d text => simpa using spelled.ended
  · intro rest stopped
    rw [reindent_cons other, List.cons_append, lexAll_mark isMark, spelled.lexes rest stopped]
    rfl

theorem Spelled.blank (ignored : isIgnored c = true) (other : c ≠ '\n')
    (spelled : Spelled indent text tokens) : Spelled indent (c :: text) tokens := by
  constructor
  · cases text with
    | nil => simpa using other
    | cons d text => simpa using spelled.ended
  · intro rest stopped
    rw [reindent_cons other, List.cons_append, lexAll_ignored ignored, spelled.lexes rest stopped]

/-- Texts on one line are the same at all indentations. -/
theorem Spelled.of_one_line (single : '\n' ∉ text)
    (lexes : ∀ rest, stops rest = true → lexAll (text ++ rest) = tokens ++ lexAll rest) :
    Spelled indent text tokens := by
  constructor
  · intro last
    exact single (List.mem_of_getLast? last)
  · rwa [reindent_of_one_line single]

theorem name_ne_noToken {name : String} (legal : isName name = true) : Token.name name ≠ noToken := by
  intro same
  rw [(Token.name.inj same : name = "")] at legal
  exact absurd legal (by decide)

theorem newline_not_mem_name {name : String} (legal : isName name = true) : '\n' ∉ name.toList := by
  intro member
  unfold isName at legal
  cases begins : name.toList with
  | nil => rw [begins] at member; cases member
  | cons c others =>
    rw [begins] at legal member
    obtain ⟨first, inside⟩ := Bool.and_eq_true_iff.mp legal
    rcases List.mem_cons.mp member with same | member
    · exact absurd (same ▸ first) (by decide)
    · exact absurd (List.all_eq_true.mp inside _ member) (by decide)

theorem Spelled.name {name : String} (legal : isName name = true) :
    Spelled indent name.toList [.name name] :=
  .of_one_line (newline_not_mem_name legal) fun _ stopped => lexAll_name legal stopped

/-- Commas are blanks. -/
theorem Spelled.join {ι : Type} {items : List ι} {textOf : ι → String} {tokensOf : ι → List Token}
    (each : ∀ item ∈ items, Spelled indent (textOf item).toList (tokensOf item)) :
    Spelled indent (Text.join ", " (items.map textOf)).toList (items.flatMap tokensOf) := by
  induction items with
  | nil => exact .nil
  | cons item items ih =>
    obtain ⟨first, others⟩ := List.forall_mem_cons.mp each
    cases items with
    | nil => simpa using first
    | cons next items =>
      rw [List.map_cons, List.map_cons, Text.join_cons_cons, String.toList_append,
        String.toList_append, List.append_assoc, List.flatMap_cons]
      exact first.append (.blank rfl (by decide) (.blank rfl (by decide) (ih others))) rfl

end Spelled

end TypedClient.GraphQl.Definitions
