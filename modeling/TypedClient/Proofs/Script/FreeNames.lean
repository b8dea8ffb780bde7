import TypedClient.Proofs.Script.Items

/-! The names that a piece of code refers to and does not bind.

A reference is a word in the place of a value. Scopes are taken as wide as can be: a name that is
bound anywhere in a piece of code is bound everywhere in it.
-/

set_option autoImplicit false

namespace TypedClient.Script

/-- The words that stand for values, or are words of the language. A word behind a dot is a member,
one before a colon is a label, and one behind `as` is a type or a module of types. -/
def references : List Token → List String
  | [] => []
  | .mark '.' :: .mark '.' :: .mark '.' :: rest => references rest
  | .mark '.' :: .word _ :: rest => references rest
  | .word "as" :: .word _ :: rest => references rest
  | .word _ :: .mark ':' :: rest => references rest
  | .word name :: rest => name :: references rest
  | _ :: rest => references rest

def patternNames : List Token → List String
  | [] => []
  | .mark '\x7d' :: _ => []
  | .lineEnd :: _ => []
  | .word name :: rest => name :: patternNames rest
  | _ :: rest => patternNames rest

def bound : List Token → List String
  | [] => []
  | .mark '.' :: .word _ :: rest => bound rest
  | .word "let" :: .word name :: rest => name :: bound rest
  | .word "const" :: .word name :: rest => name :: bound rest
  | .word "const" :: .mark '\x7b' :: rest => patternNames rest ++ bound rest
  | _ :: rest => bound rest

def argumentNames : List Token → List String
  | [] => []
  | .mark '(' :: .word name :: rest => name :: argumentNames rest
  | .mark ',' :: .word name :: .mark ':' :: rest => name :: argumentNames rest
  | .mark ',' :: .word name :: .mark '?' :: rest => name :: argumentNames rest
  | .mark ',' :: .word name :: .mark ')' :: rest => name :: argumentNames rest
  | _ :: rest => argumentNames rest

/-- Words of the language, also those that are reserved in some places only, and the types of which
the annotations of variables are made. -/
def fixedWords : List String := Text.reservedWords ++ ["from", "of", "type", "Record", "string"]

def isVariable (word : String) : Bool := Text.isIdentifier word && !fixedWords.contains word

def freeNames (arguments : List String) (tokens : List Token) : List String :=
  (references tokens).filter fun name =>
    isVariable name && !(arguments ++ bound tokens).contains name

theorem mem_freeNames_iff {arguments : List String} {tokens : List Token} {name : String} :
    name ∈ freeNames arguments tokens ↔ name ∈ references tokens ∧ isVariable name = true ∧
      name ∉ arguments ∧ name ∉ bound tokens := by
  simp [freeNames]

def Token.splits : Token → Bool
  | .word _ => false
  | .mark c => c != '.' && c != ':'
  | _ => true

section References
variable {token : Token}

theorem references_cons (splits : token.splits = true) (tokens : List Token) :
    references (token :: tokens) = references tokens := by
  rw [references.eq_7]
  · rintro rest rfl
    cases splits
  · rintro name rest rfl
    cases splits
  · rintro name rest rfl
    cases splits
  · rintro name rest rfl
    cases splits
  · rintro name rfl
    cases splits

theorem references_append (splits : token.splits = true) (first second : List Token) :
    references (first ++ token :: second) = references first ++ references second := by
  -- A rule may look two tokens ahead. The token between is of no use to any rule, so that none can
  -- look past the end of the first piece.
  induction first using references.induct with
  | case1 => exact references_cons splits second
  | case2 rest ih => simpa [references] using ih
  | case3 name rest ih => simpa [references] using ih
  | case4 name rest ih => simpa [references] using ih
  | case5 name rest ih => simpa [references] using ih
  | case6 name rest cast label ih =>
    rw [List.cons_append, references.eq_6, references.eq_6 name rest cast label, ih, List.cons_append]
    · intro other others tail same
      obtain ⟨more, found⟩ := exists_append_of_separates splits [.word other] rfl tail
      exact cast other more found same
    · intro others tail
      obtain ⟨more, found⟩ := exists_append_of_separates splits [.mark ':'] rfl tail
      exact label more found
  | case7 head rest spread member cast label word ih =>
    rw [List.cons_append, references.eq_7, references.eq_7 head rest spread member cast label word, ih]
    · rintro others rfl tail
      obtain ⟨more, found⟩ := exists_append_of_separates splits [.mark '.', .mark '.'] rfl tail
      exact spread more rfl found
    · rintro name others rfl tail
      obtain ⟨more, found⟩ := exists_append_of_separates splits [.word name] rfl tail
      exact member name more rfl found
    · rintro name others rfl
      exact absurd rfl (word "as")
    · rintro name others rfl
      exact absurd rfl (word name)
    · exact word

theorem linewise_references : Linewise references := ⟨rfl, references_append rfl⟩

theorem references_block (begun inside ended : List Token) :
    references (blockTokens begun inside ended) =
      references begun ++ (references inside ++ references ended) := by
  unfold blockTokens
  rw [references_append rfl, references_cons rfl, references_append rfl, linewise_references.concat]

end References

section Bound

theorem patternNames_append (first second : List Token) :
    patternNames (first ++ .lineEnd :: second) = patternNames first := by
  induction first using patternNames.induct with
  | case1 => rfl
  | case2 rest => simp [patternNames]
  | case3 rest => simp [patternNames]
  | case4 name rest ih => simpa [patternNames] using ih
  | case5 head rest brace line word ih =>
    rw [List.cons_append, patternNames.eq_5 _ _ brace line word,
      patternNames.eq_5 _ _ brace line word, ih]

theorem linewise_bound : Linewise bound := by
  refine ⟨rfl, fun first second => ?_⟩
  -- As for the references, but a pattern is over at the end of its line.
  induction first using bound.induct with
  | case1 => simp [bound]
  | case2 name rest ih => simpa [bound] using ih
  | case3 name rest ih => simpa [bound] using ih
  | case4 name rest ih => simpa [bound] using ih
  | case5 rest ih => simp [bound, ih, patternNames_append]
  | case6 head rest member variable_ constant pattern ih =>
    have splits : Token.lineEnd.splits = true := rfl
    rw [List.cons_append, bound.eq_6, bound.eq_6 head rest member variable_ constant pattern, ih]
    · rintro name others rfl tail
      obtain ⟨more, found⟩ := exists_append_of_separates splits [.word name] rfl tail
      exact member name more rfl found
    · rintro name others rfl tail
      obtain ⟨more, found⟩ := exists_append_of_separates splits [.word name] rfl tail
      exact variable_ name more rfl found
    · rintro name others rfl tail
      obtain ⟨more, found⟩ := exists_append_of_separates splits [.word name] rfl tail
      exact constant name more rfl found
    · rintro others rfl tail
      cases rest with
      | nil => cases tail
      | cons token rest =>
        obtain ⟨rfl, _⟩ := List.cons.inj tail
        exact pattern rest rfl rfl

end Bound

section Division

/-- Each variable among the words is a local name or one of the others, and these all occur. -/
structure Divides (locals others words : List String) : Prop where
  settled : ∀ word ∈ words, isVariable word = true → word ∈ locals ∨ word ∈ others
  occur : others ⊆ words

namespace Divides
variable {locals wider words others moreWords moreOthers : List String}

theorem append (divides : Divides locals others words) (further : Divides locals moreOthers moreWords) :
    Divides locals (others ++ moreOthers) (words ++ moreWords) := by
  constructor
  · intro word member variable_
    obtain first | second := List.mem_append.mp member
    · exact (divides.settled word first variable_).imp_right (List.mem_append_left _)
    · exact (further.settled word second variable_).imp_right (List.mem_append_right _)
  · intro word member
    obtain first | second := List.mem_append.mp member
    · exact List.mem_append_left _ (divides.occur first)
    · exact List.mem_append_right _ (further.occur second)

theorem widen (divides : Divides locals others words) (narrow : locals ⊆ wider) :
    Divides wider others words :=
  ⟨fun word member variable_ => (divides.settled word member variable_).imp_left (narrow ·),
    divides.occur⟩

/-- The order of the others does not matter. -/
theorem reorder (divides : Divides locals others words)
    (same : ∀ word, word ∈ others ↔ word ∈ moreOthers) : Divides locals moreOthers words :=
  ⟨fun word member variable_ => (divides.settled word member variable_).imp_right (same word).mp,
    fun word member => divides.occur ((same word).mpr member)⟩

theorem nil : Divides locals [] [] :=
  ⟨List.forall_mem_nil _, List.nil_subset _⟩

/-- The same words for each of some subjects. -/
theorem flatMap {α : Type} (divides : Divides locals others words) (subjects : List α) :
    Divides locals (if subjects.isEmpty then [] else others) (subjects.flatMap fun _ => words) := by
  cases subjects with
  | nil => exact nil
  | cons subject rest =>
    constructor
    · intro word member variable_
      obtain ⟨_, _, inside⟩ := List.mem_flatMap.mp member
      exact divides.settled word inside variable_
    · intro word member
      exact List.mem_append_left _ (divides.occur member)

end Divides

theorem mem_freeNames_iff_of_divides {arguments others : List String} {tokens : List Token}
    (divides : Divides (arguments ++ bound tokens) others (references tokens))
    (apart : ∀ name ∈ others, isVariable name = true ∧ name ∉ arguments ++ bound tokens)
    {name : String} : name ∈ freeNames arguments tokens ↔ name ∈ others := by
  rw [mem_freeNames_iff, ← not_or, ← List.mem_append]
  constructor
  · rintro ⟨member, variable_, free⟩
    exact (divides.settled name member variable_).resolve_left free
  · exact fun member => ⟨divides.occur member, apart name member⟩

end Division

end TypedClient.Script

namespace TypedClient

open Script

def Item.freeNames? : Item → Option (List String)
  | .line text => (Script.tokens? text).map (freeNames [])
  | .blank => some []
  | .block header body _ => do
    let begun ← Script.tokens? header
    let inside ← Item.tokensOf? body
    return freeNames (argumentNames begun) inside

/-- The names to which the statements of a module refer, each besides what it binds itself. -/
def moduleReferences? (items : List Item) : Option (List String) :=
  (items.mapM Item.freeNames?).map List.flatten

section Module
variable {first rest : List Item} {names more : List String}

theorem moduleReferences?_append (found : moduleReferences? first = some names)
    (others : moduleReferences? rest = some more) :
    moduleReferences? (first ++ rest) = some (names ++ more) := by
  obtain ⟨each, own, rfl⟩ := Option.map_eq_some_iff.mp found
  obtain ⟨further, behind, rfl⟩ := Option.map_eq_some_iff.mp others
  unfold moduleReferences?
  rw [List.mapM_append, own, behind, ← List.flatten_append]
  rfl

theorem moduleReferences?_flatMap {α : Type} {items : α → List Item} {names : α → List String}
    {all : List α} (each : ∀ one ∈ all, moduleReferences? (items one) = some (names one)) :
    moduleReferences? (all.flatMap items) = some (all.flatMap names) := by
  induction all with
  | nil => rfl
  | cons one rest ih =>
    obtain ⟨own, others⟩ := List.forall_mem_cons.mp each
    exact moduleReferences?_append own (ih others)

theorem moduleReferences?_block {header : String} {body : List Item} {begun inside : List Token}
    (begins : Reads header begun) (found : Item.tokensOf? body = some inside) :
    moduleReferences? [.blank, .block header body ""] =
      some (freeNames (argumentNames begun) inside) := by
  simp [moduleReferences?, Item.freeNames?, tokens?_of_reads begins, found]

end Module

end TypedClient
