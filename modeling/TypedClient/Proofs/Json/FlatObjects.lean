import Mathlib.Data.String.Basic
import TypedClient.Json.Printer
import TypedClient.Json.Reader

/-! Objects whose members are all strings: their indented text reads back as the same object.

Every string is read back from its escaped characters, whatever follows. The tokens of the
whole text are then those of the members, with commas between them.
-/

set_option autoImplicit false

namespace TypedClient.Json

open Text (hexValue?)

section Strings
variable {c : Char} {text rest : List Char}

def isPlain (c : Char) : Bool := c != '"' && c != '\\' && decide (0x20 ≤ c.toNat)

namespace Token

theorem readString_cons_of_isPlain (plain : isPlain c = true) (rest : List Char) :
    readString (c :: rest) = (readString rest).map fun read => (c :: read.1, read.2) := by
  unfold isPlain at plain
  simp only [Bool.and_eq_true, bne_iff_ne, decide_eq_true_eq] at plain
  obtain ⟨⟨notQuote, notBackslash⟩, printable⟩ := plain
  rw [readString]
  · rw [if_neg (by omega)]
    cases readString rest <;> rfl
  · exact notQuote
  · intro _ _ _ _ _ same
    exact absurd same notBackslash
  · intro _ _ same
    exact absurd same notBackslash

theorem readString_escape_of_letter {letter plain : Char} (known : escaped? letter = some plain)
    (rest : List Char) : readString ('\\' :: letter :: rest) =
      (readString rest).map fun read => (plain :: read.1, read.2) := by
  rw [readString]
  · rw [known]
    cases readString rest <;> rfl
  · rintro _ _ _ _ _ rfl
    cases known

theorem readString_escape_of_code {a b d e : Char} {unit : ℕ}
    (known : hexValue? [a, b, d, e] = some unit) (short : unit < 0xD800) (rest : List Char) :
    readString ('\\' :: 'u' :: a :: b :: d :: e :: rest) =
      (readString rest).map fun read => (Char.ofNat unit :: read.1, read.2) := by
  have notHigh : isHighSurrogate unit = false := by
    unfold isHighSurrogate
    rw [Bool.and_eq_false_iff, decide_eq_false_iff_not]
    omega
  have notLow : isLowSurrogate unit = false := by
    unfold isLowSurrogate
    rw [Bool.and_eq_false_iff, decide_eq_false_iff_not]
    omega
  rw [readString, known]
  change (if isHighSurrogate unit = true then _ else if isLowSurrogate unit = true then _ else _) = _
  rw [notHigh, notLow, if_neg nofun, if_neg nofun]
  cases readString rest <;> rfl

/-- The control characters are the first 32. -/
theorem hexValue?_control : ∀ code < 0x20,
    hexValue? ['0', '0', hexDigit (code / 16), hexDigit (code % 16)] = some code := by
  decide

theorem readString_escapeChar (c : Char) (rest : List Char) :
    readString (escapeChar c ++ rest) =
      (readString rest).map fun read => (c :: read.1, read.2) := by
  unfold escapeChar
  split_ifs with quote backslash backspace formFeed lineFeed carriageReturn tab control
  · rw [quote]
    exact readString_escape_of_letter rfl rest
  · rw [backslash]
    exact readString_escape_of_letter rfl rest
  · rw [backspace]
    exact readString_escape_of_letter rfl rest
  · rw [formFeed]
    exact readString_escape_of_letter rfl rest
  · rw [lineFeed]
    exact readString_escape_of_letter rfl rest
  · rw [carriageReturn]
    exact readString_escape_of_letter rfl rest
  · rw [tab]
    exact readString_escape_of_letter rfl rest
  · have read := readString_escape_of_code (hexValue?_control c.toNat control) (by omega) rest
    rwa [Char.ofNat_toNat] at read
  · apply readString_cons_of_isPlain
    unfold isPlain
    simp only [Bool.and_eq_true, bne_iff_ne, decide_eq_true_eq]
    exact ⟨⟨quote, backslash⟩, by omega⟩

theorem readString_escaped (text rest : List Char) :
    readString (text.flatMap escapeChar ++ '"' :: rest) = some (text, rest) := by
  induction text with
  | nil => rfl
  | cons c text ih =>
    rw [List.flatMap_cons, List.append_assoc, readString_escapeChar, ih]
    rfl

end Token

end Strings

section Scanning
variable {text rest : List Char} {tokens : List Token}

/-- A text has these tokens whenever the limit is long enough for its characters. -/
def Scans (text : List Char) (tokens : List Token) : Prop :=
  ∀ limit, text.length ≤ limit → Token.scan limit text = some tokens

def mark? : Char → Option Token
  | '{' => some .openObject
  | '}' => some .closeObject
  | ',' => some .comma
  | ':' => some .colon
  | _ => none

namespace Scans

theorem nil : Scans [] [] := by
  intro limit _
  cases limit <;> rfl

theorem mark {c : Char} {token : Token} (known : mark? c = some token) (scans : Scans rest tokens) :
    Scans (c :: rest) (token :: tokens) := by
  intro limit enough
  rw [List.length_cons] at enough
  cases limit with
  | zero => omega
  | succ limit =>
    have shorter := scans limit (by omega)
    unfold mark? at known
    split at known <;> cases known
    all_goals
      rw [Token.scan, shorter]
      rfl

theorem space {c : Char} (blank : c = ' ' ∨ c = '\n') (scans : Scans rest tokens) :
    Scans (c :: rest) tokens := by
  intro limit enough
  rw [List.length_cons] at enough
  cases limit with
  | zero => omega
  | succ limit =>
    have shorter := scans limit (by omega)
    obtain rfl | rfl := blank
    · exact shorter
    · exact shorter

theorem spaces (count : ℕ) (scans : Scans rest tokens) :
    Scans (List.replicate count ' ' ++ rest) tokens := by
  induction count with
  | zero => exact scans
  | succ count ih => exact ih.space (.inl rfl)

theorem string (text : String) (scans : Scans rest tokens) :
    Scans ((stringText text).toList ++ rest) (.scalar (.string text) :: tokens) := by
  intro limit enough
  have spelled : (stringText text).toList ++ rest =
      '"' :: (text.toList.flatMap escapeChar ++ '"' :: rest) := by
    unfold stringText
    rw [String.toList_ofList, List.cons_append, List.cons_append, List.append_assoc]
    rfl
  rw [spelled, List.length_cons, List.length_append, List.length_cons] at enough
  cases limit with
  | zero => omega
  | succ limit =>
    rw [spelled, Token.scan, Token.readString_escaped]
    change (do return Token.scalar (.string (String.ofList text.toList)) ::
      (← Token.scan limit rest)) = _
    rw [scans limit (by omega), String.ofList_toList]
    rfl

end Scans

end Scanning

section Objects
variable {rest : List Char} {tokens : List Token} {more : List (String × String)}

def ofStrings (members : List (String × String)) : Members :=
  members.map fun member => (member.1, .string member.2)

def memberText (member : String × String) : String :=
  stringText member.1 ++ ": " ++ stringText member.2

def memberTokens (member : String × String) : List Token :=
  [.scalar (.string member.1), .colon, .scalar (.string member.2)]

def furtherTokens (members : List (String × String)) : List Token :=
  members.flatMap fun member => .comma :: memberTokens member

theorem toList_margin (level : ℕ) : (Value.margin level).toList = List.replicate (2 * level) ' ' :=
  String.toList_ofList

theorem prettyMembers_ofStrings (level : ℕ) (members : List (String × String)) :
    Value.prettyMembers level (ofStrings members) = members.map memberText := by
  induction members with
  | nil => rfl
  | cons member more ih =>
    change (stringText member.1 ++ ": " ++ stringText member.2) ::
      Value.prettyMembers level (ofStrings more) = _
    rw [ih]
    rfl

theorem Scans.member (member : String × String) (scans : Scans rest tokens) :
    Scans ((memberText member).toList ++ rest) (memberTokens member ++ tokens) := by
  unfold memberText
  rw [String.toList_append, String.toList_append, List.append_assoc, List.append_assoc]
  apply Scans.string
  apply Scans.mark rfl
  apply Scans.space (.inl rfl)
  exact Scans.string member.2 scans

theorem Scans.members (level : ℕ) (first : String × String) (more : List (String × String))
    (scans : Scans rest tokens) :
    Scans ((Text.join (",\n" ++ Value.margin level) ((first :: more).map memberText)).toList ++ rest)
      (memberTokens first ++ (furtherTokens more ++ tokens)) := by
  induction more generalizing first with
  | nil => exact scans.member first
  | cons second more ih =>
    have spelled : (Text.join (",\n" ++ Value.margin level)
        ((first :: second :: more).map memberText)).toList ++ rest =
          (memberText first).toList ++ (',' :: '\n' :: (List.replicate (2 * level) ' ' ++
            ((Text.join (",\n" ++ Value.margin level) ((second :: more).map memberText)).toList ++
              rest))) := by
      rw [List.map_cons, List.map_cons, Text.join_cons_cons, String.toList_append,
        String.toList_append, String.toList_append, toList_margin, List.append_assoc,
        List.append_assoc, List.append_assoc]
      rfl
    rw [spelled]
    exact Scans.member first (.mark rfl (.space (.inr rfl) ((ih second).spaces (2 * level))))

theorem insert_of_not_mem {key : String} {value : Value} {known : Members}
    (fresh : key ∉ known.map Prod.fst) : Value.insert key value known = known ++ [(key, value)] := by
  induction known with
  | nil => rfl
  | cons entry known ih =>
    obtain ⟨name, old⟩ := entry
    rw [List.map_cons, List.mem_cons, not_or] at fresh
    rw [Value.insert, if_neg (Ne.symm fresh.1), ih fresh.2, List.cons_append]

theorem assemble_members (known : Members) (key : String) (value : Value)
    (distinct : ((known.map Prod.fst) ++ key :: more.map Prod.fst).Nodup) :
    assemble (.after value) [.object known key] (furtherTokens more ++ [.closeObject]) =
      some (.object (known ++ (key, value) :: ofStrings more)) := by
  induction more generalizing known key value with
  | nil =>
    have fresh : key ∉ known.map Prod.fst := by
      intro inside
      exact (List.nodup_append.mp distinct).2.2 key inside key (.head _) rfl
    change assemble (.after value) [.object known key] [.closeObject] = _
    rw [assemble, assemble, insert_of_not_mem fresh]
    rfl
  | cons member more ih =>
    have fresh : key ∉ known.map Prod.fst := by
      intro inside
      exact (List.nodup_append.mp distinct).2.2 key inside key (.head _) rfl
    have step : assemble (.after value) [.object known key]
        (furtherTokens (member :: more) ++ [.closeObject]) =
          assemble (.after (.string member.2)) [.object (Value.insert key value known) member.1]
            (furtherTokens more ++ [.closeObject]) := by
      change assemble (.after value) [.object known key] (.comma :: .scalar (.string member.1) ::
        .colon :: .scalar (.string member.2) :: (furtherTokens more ++ [.closeObject])) = _
      simp only [assemble, assemble.begin]
    rw [step, insert_of_not_mem fresh, ih]
    · rw [List.append_assoc]
      rfl
    · rwa [List.map_append, List.append_assoc]

theorem read?_of_scans {text : String} (scans : Scans text.toList tokens) :
    read? text = assemble .value [] tokens := by
  change (Token.scan text.toList.length text.toList >>= assemble .value []) = _
  rw [scans _ (Nat.le_refl _)]
  rfl

theorem read?_pretty_ofStrings {members : List (String × String)}
    (distinct : (members.map Prod.fst).Nodup) :
    read? ((Value.object (ofStrings members)).pretty 0) = some (.object (ofStrings members)) := by
  cases members with
  | nil =>
    have whole : Scans ['{', '}'] [.openObject, .closeObject] := .mark rfl (.mark rfl .nil)
    rw [@read?_of_scans _ ((Value.object (ofStrings [])).pretty 0) whole]
    simp [assemble, assemble.begin, deepest, ofStrings]
  | cons first more =>
    have ending : Scans ['\n', '}'] [.closeObject] := .space (.inr rfl) (.mark rfl .nil)
    have inside := ((Scans.members 1 first more ending).spaces 2).space (.inr rfl)
    have spelled : ((Value.object (ofStrings (first :: more))).pretty 0).toList = '{' :: '\n' ::
        (List.replicate 2 ' ' ++ ((Text.join (",\n" ++ Value.margin 1)
          ((first :: more).map memberText)).toList ++ ['\n', '}'])) := by
      have pieces : (Value.object (ofStrings (first :: more))).pretty 0 =
          "\x7b" ++ "\n" ++ Value.margin 1 ++ Text.join (",\n" ++ Value.margin 1)
            ((first :: more).map memberText) ++ "\n" ++ Value.margin 0 ++ "\x7d" := by
        rw [← prettyMembers_ofStrings 1]
        rfl
      rw [pieces]
      simp only [String.toList_append, List.append_assoc]
      rfl
    have whole : Scans ((Value.object (ofStrings (first :: more))).pretty 0).toList
        (.openObject :: (memberTokens first ++ (furtherTokens more ++ [.closeObject]))) := by
      rw [spelled]
      exact .mark rfl inside
    rw [read?_of_scans whole]
    change assemble .value [] (.openObject :: .scalar (.string first.1) :: .colon ::
      .scalar (.string first.2) :: (furtherTokens more ++ [.closeObject])) = _
    simp only [assemble, assemble.begin, deepest, List.length_nil, Nat.zero_lt_succ, if_true]
    exact assemble_members [] first.1 (.string first.2) distinct

end Objects

end TypedClient.Json
