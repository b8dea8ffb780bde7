import TypedClient.Proofs.Text.Pages
import TypedClient.Proofs.TypeScript.Parts

/-! The characters of declarations without their layout.

White space counts inside of literals only, and a semicolon counts unless a closing brace or the end
is next. A text that ends outside of literals can be read apart from what stands behind it.
-/

set_option autoImplicit false

namespace TypedClient.TypeScript

open Text (QuoteStyle quote escapeChar escapeChars)

inductive Place where
  | code
  | literal (delimiter : Char)
  | escaped (delimiter : Char)
  deriving DecidableEq, Repr

def isQuote (c : Char) : Bool := c == '\'' || c == '"'

def Place.next : Place → Char → Place
  | code, c => if isQuote c then literal c else code
  | literal delimiter, c =>
    if c == '\\' then escaped delimiter else if c == delimiter then code else literal delimiter
  | escaped delimiter, _ => literal delimiter

def Place.after (place : Place) (text : List Char) : Place := text.foldl Place.next place

/-- A character that counts; those of literals are told from all others. -/
inductive Symbol where
  | code (c : Char)
  | quoted (c : Char)
  deriving DecidableEq, Repr

def Place.symbols : Place → Char → List Symbol
  | code, c => if isBlank c then [] else if isQuote c then [.quoted c] else [.code c]
  | _, c => [.quoted c]

def symbols (place : Place) : List Char → List Symbol
  | [] => []
  | c :: rest => place.symbols c ++ symbols (place.next c) rest

/-- Takes a symbol in front of others, unless it is a semicolon that has nothing to separate. -/
def settle (symbol : Symbol) (rest : List Symbol) : List Symbol :=
  if symbol = .code ';' ∧ (rest = [] ∨ rest.head? = some (.code '\x7d')) then rest
  else symbol :: rest

/-- Equal up to white space outside of literals and semicolons before a closing brace or the end. -/
def SameCode (first second : List Char) : Prop :=
  (symbols .code first).foldr settle [] = (symbols .code second).foldr settle []

section Reading
variable {place : Place} {text rest : List Char}

theorem symbols_append (place : Place) (text rest : List Char) :
    symbols place (text ++ rest) = symbols place text ++ symbols (place.after text) rest := by
  induction text generalizing place with
  | nil => rfl
  | cons c text ih =>
    rw [List.cons_append, symbols, symbols, ih, List.append_assoc]
    rfl

theorem after_append (place : Place) (text rest : List Char) :
    place.after (text ++ rest) = (place.after text).after rest := List.foldl_append

theorem after_plain (plain : ∀ c ∈ text, isQuote c = false) : Place.code.after text = .code := by
  induction text with
  | nil => rfl
  | cons c text ih =>
    obtain ⟨first, others⟩ := List.forall_mem_cons.mp plain
    rw [Place.after, List.foldl_cons, Place.next, if_neg (by simp [first])]
    exact ih others

theorem after_escapeChar (quotes : QuoteStyle) (c : Char) :
    (Place.literal quotes.delimiter).after (escapeChar quotes c) = .literal quotes.delimiter := by
  unfold escapeChar
  split_ifs with backslash feed carriage delimiter
  · cases quotes <;> rfl
  · cases quotes <;> rfl
  · cases quotes <;> rfl
  · rw [delimiter]
    cases quotes <;> rfl
  · simp [Place.after, Place.next, backslash, delimiter]

theorem after_quote (quotes : QuoteStyle) (value : String) :
    Place.code.after (quote quotes value).toList = .code := by
  have inside (text : List Char) : (Place.literal quotes.delimiter).after (escapeChars quotes text) =
      .literal quotes.delimiter := by
    induction text with
    | nil => rfl
    | cons c text ih => rw [Text.escapeChars_cons, after_append, after_escapeChar, ih]
  have opens : Place.code.next quotes.delimiter = .literal quotes.delimiter := by
    cases quotes <;> rfl
  have closes : (Place.literal quotes.delimiter).next quotes.delimiter = .code := by
    cases quotes <;> rfl
  rw [Text.toList_quote, List.cons_append, Place.after, List.foldl_cons, opens]
  change (Place.literal quotes.delimiter).after (escapeChars quotes value.toList ++ _) = _
  rw [after_append, inside]
  exact closes

end Reading

/-- Outside of literals at the start, the text is so at its end too and has these symbols. -/
def HasSymbols (text : List Char) (read : List Symbol) : Prop :=
  Place.code.after text = .code ∧ symbols .code text = read

theorem HasSymbols.append {text rest : List Char} {read more : List Symbol}
    (has : HasSymbols text read) (others : HasSymbols rest more) :
    HasSymbols (text ++ rest) (read ++ more) := by
  constructor
  · rw [after_append, has.1, others.1]
  · rw [symbols_append, has.1, has.2, others.2]

theorem hasSymbols_blanks (count : Nat) : HasSymbols (List.replicate count ' ') [] := by
  induction count with
  | zero => exact ⟨rfl, rfl⟩
  | succ count ih => exact ih

def Closed (text : String) : Prop := Place.code.after text.toList = .code ∧ OneLine text

instance (text : String) : Decidable (Closed text) := inferInstanceAs (Decidable (_ ∧ _))

def textSymbols (text : String) : List Symbol := symbols .code text.toList

section Closed
variable {first second text : String} {texts : List String}

theorem Closed.hasSymbols (closed : Closed text) : HasSymbols text.toList (textSymbols text) :=
  ⟨closed.1, rfl⟩

theorem Closed.append (closed : Closed first) (others : Closed second) :
    Closed (first ++ second) := by
  refine ⟨?_, oneLine_append.mpr ⟨closed.2, others.2⟩⟩
  rw [String.toList_append, after_append, closed.1, others.1]

theorem Closed.textSymbols_append (closed : Closed first) (second : String) :
    textSymbols (first ++ second) = textSymbols first ++ textSymbols second := by
  rw [textSymbols, String.toList_append, symbols_append, closed.1]
  rfl

theorem Closed.join {separator : String} (between : Closed separator)
    (each : ∀ text ∈ texts, Closed text) : Closed (Text.join separator texts) := by
  induction texts with
  | nil => exact ⟨rfl, List.not_mem_nil⟩
  | cons text texts ih =>
    obtain ⟨first, others⟩ := List.forall_mem_cons.mp each
    cases texts with
    | nil => exact first
    | cons next texts =>
      rw [Text.join_cons_cons]
      exact (first.append between).append (ih others)

theorem closed_of_plain (plain : ∀ c ∈ text.toList, isQuote c = false ∧ c ≠ '\n') : Closed text :=
  ⟨after_plain fun c member => (plain c member).1, fun member => (plain _ member).2 rfl⟩

theorem closed_quote (quotes : QuoteStyle) (value : String) : Closed (quote quotes value) :=
  ⟨after_quote quotes value, oneLine_quote quotes value⟩

theorem closed_of_isIdentifier (legal : Text.isIdentifier text = true) : Closed text := by
  refine closed_of_plain fun c member => ?_
  exact Text.identifierChar_cases (motive := fun c => isQuote c = false ∧ c ≠ '\n') (by decide)
    (Text.usable_of_isIdentifierList legal c member)

end Closed

end TypedClient.TypeScript
