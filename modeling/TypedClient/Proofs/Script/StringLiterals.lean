import TypedClient.Proofs.Text.Pages
import TypedClient.Proofs.TypeScript.Symbols
import TypedClient.Text.Pieces

/-! String literals of JavaScript.

A literal goes from a quote to the next one of its kind that no backslash escapes. Its value is a sequence
of UTF-16 code units, which need not be a text. The escape sequences are those of modules, where
octal digits are no codes. Line feeds and carriage returns cannot stand in a literal; the
Unicode separators of lines and of paragraphs can.
-/

set_option autoImplicit false

namespace TypedClient.Script

open Text (QuoteStyle quote escapeChar escapeChars hexValue?)
open TypeScript (Place)

section CodeUnits

/-- One code unit, or the two surrogates of a code point beyond the range of one. -/
def pointUnits (point : Nat) : List UInt16 :=
  if point < 0x10000 then [.ofNat point]
  else [.ofNat (0xD800 + (point - 0x10000) / 0x400), .ofNat (0xDC00 + (point - 0x10000) % 0x400)]

def charUnits (c : Char) : List UInt16 := pointUnits c.toNat

def textUnits (text : List Char) : List UInt16 := text.flatMap charUnits

theorem mod_eq_of_ofNat_eq {first second : Nat} (same : UInt16.ofNat first = UInt16.ofNat second) :
    first % 2 ^ 16 = second % 2 ^ 16 := by
  have values := congrArg UInt16.toNat same
  rwa [UInt16.toNat_ofNat', UInt16.toNat_ofNat'] at values

/-- No character has a surrogate for its code, so that the units of each can be told. -/
theorem charUnits_append_inj {c d : Char} {more others : List UInt16}
    (same : charUnits c ++ more = charUnits d ++ others) : c = d ∧ more = others := by
  have validC : c.toNat < 0xD800 ∨ 0xDFFF < c.toNat ∧ c.toNat < 0x110000 := c.valid
  have validD : d.toNat < 0xD800 ∨ 0xDFFF < d.toNat ∧ d.toNat < 0x110000 := d.valid
  rw [← Char.toNat_inj]
  unfold charUnits pointUnits at same
  split_ifs at same with shortC shortD shortD <;>
    simp only [List.cons_append, List.nil_append, List.cons.injEq] at same
  · have codes := mod_eq_of_ofNat_eq same.1
    exact ⟨by omega, same.2⟩
  -- Of two units the first is a surrogate, and a single unit is none.
  · have codes := mod_eq_of_ofNat_eq same.1
    omega
  · have codes := mod_eq_of_ofNat_eq same.1
    omega
  · have high := mod_eq_of_ofNat_eq same.1
    have low := mod_eq_of_ofNat_eq same.2.1
    exact ⟨by omega, same.2.2⟩

theorem charUnits_ne_nil (c : Char) : charUnits c ≠ [] := by
  unfold charUnits pointUnits
  split_ifs <;> exact List.cons_ne_nil _ _

theorem textUnits_injective : Function.Injective textUnits := by
  intro first second same
  induction first generalizing second with
  | nil =>
    cases second with
    | nil => rfl
    | cons d second => exact absurd (List.append_eq_nil_iff.mp same.symm).1 (charUnits_ne_nil d)
  | cons c first ih =>
    cases second with
    | nil => exact absurd (List.append_eq_nil_iff.mp same).1 (charUnits_ne_nil c)
    | cons d second =>
      obtain ⟨rfl, others⟩ := charUnits_append_inj same
      rw [ih others]

end CodeUnits

section Reader

def hexNumber? (count : Nat) (text : List Char) : Option Nat :=
  if (text.take count).length = count then hexValue? (text.take count) else none

/-- A code point in four digits, or any one in braces, and how many characters write it. -/
def codePoint? : List Char → Option (Nat × Nat)
  | '\x7b' :: text => do
    let digits := text.takeWhile (· ≠ '\x7d')
    let point ← hexValue? digits
    if digits = [] ∨ digits = text ∨ 0x10ffff < point then none else some (point, digits.length + 2)
  | text => (hexNumber? 4 text).map (·, 4)

/-- Some letters stand for a control character behind a backslash, and all else for itself. -/
def simpleEscape (c : Char) : Char :=
  if c = 'b' then '\x08'
  else if c = 't' then '\t'
  else if c = 'n' then '\n'
  else if c = 'v' then '\x0b'
  else if c = 'f' then '\x0c'
  else if c = 'r' then '\r'
  else c

def isLineBreak (c : Char) : Bool := c == '\n' || c == '\r' || c == '\u2028' || c == '\u2029'

/-- What the escape sequence behind a backslash stands for, and how many characters it has. A line
break stands for nothing. -/
def escape? : List Char → Option (List UInt16 × Nat)
  | [] => none
  | c :: rest =>
    if c = 'x' then (hexNumber? 2 rest).map fun point => (pointUnits point, 3)
    else if c = 'u' then (codePoint? rest).map fun (point, length) => (pointUnits point, length + 1)
    -- A zero alone is the null character; with digits behind it, it would be octal.
    else if c = '0' then if rest.head?.any Char.isDigit then none else some ([0], 1)
    else if c.isDigit then none
    else if c = '\r' then some ([], if rest.head? = some '\n' then 2 else 1)
    else if isLineBreak c then some ([], 1)
    else some (charUnits (simpleEscape c), 1)

def inside? (delimiter : Char) : List Char → Option (List UInt16 × List Char)
  | [] => none
  | c :: rest =>
    if c = delimiter then some ([], rest)
    else if c = '\\' then do
      let (units, length) ← escape? rest
      let (more, behind) ← inside? delimiter (rest.drop length)
      return (units ++ more, behind)
    else if c = '\n' || c = '\r' then none
    else do
      let (more, behind) ← inside? delimiter rest
      return (charUnits c ++ more, behind)
termination_by text => text.length

def literal? : List Char → Option (List UInt16 × List Char)
  | [] => none
  | c :: rest => if c = '\'' || c = '"' then inside? c rest else none

example : literal? "'\\x41\\u\x7b1F600\x7d\\0\\\n' + x".toList =
    some ([0x41, 0xD83D, 0xDE00, 0], " + x".toList) := by decide +kernel

end Reader

section Quoted
variable {style : QuoteStyle} {c : Char} {rest behind : List Char} {units more : List UInt16} {length : Nat}

theorem inside?_delimiter (style : QuoteStyle) (rest : List Char) :
    inside? style.delimiter (style.delimiter :: rest) = some ([], rest) := by
  rw [inside?, if_pos rfl]

theorem inside?_escape (escape : escape? rest = some (units, length))
    (read : inside? style.delimiter (rest.drop length) = some (more, behind)) :
    inside? style.delimiter ('\\' :: rest) = some (units ++ more, behind) := by
  have other : '\\' ≠ style.delimiter := by cases style <;> decide
  rw [inside?, if_neg other, if_pos rfl, escape]
  simp only [Option.bind_eq_bind, Option.bind_some, read]
  rfl

theorem inside?_escapeChar (read : inside? style.delimiter rest = some (more, behind)) :
    inside? style.delimiter (escapeChar style c ++ rest) = some (charUnits c ++ more, behind) := by
  unfold escapeChar
  split_ifs with backslash feed carriage delimiter
  · subst backslash
    exact inside?_escape rfl read
  · subst feed
    exact inside?_escape rfl read
  · subst carriage
    exact inside?_escape rfl read
  · subst delimiter
    have itself : escape? (style.delimiter :: rest) = some (charUnits style.delimiter, 1) := by
      cases style <;> rfl
    exact inside?_escape itself read
  · rw [List.singleton_append, inside?, if_neg delimiter, if_neg backslash, if_neg (by simp [feed, carriage]),
      read]
    rfl

theorem inside?_escapeChars (style : QuoteStyle) (text rest : List Char) :
    inside? style.delimiter (escapeChars style text ++ style.delimiter :: rest) =
      some (textUnits text, rest) := by
  induction text with
  | nil => exact inside?_delimiter style rest
  | cons c text ih =>
    rw [Text.escapeChars_cons, List.append_assoc]
    exact inside?_escapeChar ih

/-- Whatever is behind it, a quoted text is read to its end as one literal with the text as its value. -/
theorem literal?_quote (style : QuoteStyle) (text : String) (rest : List Char) :
    literal? ((quote style text).toList ++ rest) = some (textUnits text.toList, rest) := by
  have opens : (style.delimiter = '\'' || style.delimiter = '"') = true := by cases style <;> rfl
  rw [Text.toList_quote, List.cons_append, List.cons_append, List.append_assoc, literal?, if_pos opens]
  exact inside?_escapeChars style text.toList rest

end Quoted

section Guarded
variable {delimiter : Char} {text rest : List Char}

/-- Inside of a literal, every quote of its kind is behind a backslash that escapes it. -/
def Guarded (delimiter : Char) (text : List Char) : Prop :=
  ∀ before behind, text = before ++ delimiter :: behind →
    (Place.literal delimiter).after before = .escaped delimiter

theorem guarded_of_not_mem (absent : delimiter ∉ text) : Guarded delimiter text := by
  rintro before behind rfl
  exact absurd (List.mem_append_right before List.mem_cons_self) absent

theorem Guarded.append (guarded : Guarded delimiter text) (others : Guarded delimiter rest)
    (stays : (Place.literal delimiter).after text = .literal delimiter) :
    Guarded delimiter (text ++ rest) := by
  intro before behind cut
  -- The quote is in the second text, with all of the first in front of it, or else in the first.
  obtain ⟨more, rfl, later⟩ | ⟨more, earlier, later⟩ := List.append_eq_append_iff.mp cut
  · rw [TypeScript.after_append, stays]
    exact others more behind later
  · cases more with
    | nil =>
      rw [List.append_nil] at earlier
      rw [← earlier, stays]
      exact others [] behind later.symm
    | cons c more =>
      cases later
      exact guarded before more earlier

theorem guarded_escaped (style : QuoteStyle) : Guarded style.delimiter ['\\', style.delimiter] := by
  intro before behind cut
  rcases before with _ | ⟨first, _ | ⟨second, before⟩⟩
  · cases style <;> cases cut
  · obtain ⟨rfl, _⟩ := List.cons.inj cut
    cases style <;> rfl
  · simp at cut

theorem guarded_escapeChar (style : QuoteStyle) (c : Char) :
    Guarded style.delimiter (escapeChar style c) := by
  unfold escapeChar
  split_ifs with backslash feed carriage delimiter
  · exact guarded_of_not_mem (by cases style <;> decide)
  · exact guarded_of_not_mem (by cases style <;> decide)
  · exact guarded_of_not_mem (by cases style <;> decide)
  · rw [delimiter]
    exact guarded_escaped style
  · exact guarded_of_not_mem (by simpa using Ne.symm delimiter)

theorem guarded_escapeChars (style : QuoteStyle) (text : List Char) :
    Guarded style.delimiter (escapeChars style text) := by
  induction text with
  | nil => exact guarded_of_not_mem List.not_mem_nil
  | cons c text ih =>
    rw [Text.escapeChars_cons]
    exact (guarded_escapeChar style c).append ih (TypeScript.after_escapeChar style c)

/-- Only the first quote and the last one of a quoted text are not escaped. -/
theorem after_eq_escaped_of_quote {style : QuoteStyle} {value : String} {before behind : List Char}
    (cut : (quote style value).toList = before ++ style.delimiter :: behind)
    (first : before ≠ []) (last : behind ≠ []) :
    Place.code.after before = .escaped style.delimiter := by
  have opens : Place.code.next style.delimiter = .literal style.delimiter := by cases style <;> rfl
  -- Without its first and its last character, the literal is what has been escaped.
  obtain ⟨c, before, rfl⟩ := List.exists_cons_of_ne_nil first
  obtain ⟨behind, d, rfl⟩ : ∃ more d, behind = more ++ [d] :=
    ⟨_, _, (List.dropLast_append_getLast last).symm⟩
  rw [Text.toList_quote, List.cons_append, List.cons_append] at cut
  obtain ⟨rfl, behindOpening⟩ := List.cons.inj cut
  rw [← List.cons_append, ← List.append_assoc] at behindOpening
  have inside := (List.append_inj' behindOpening rfl).1
  rw [Place.after, List.foldl_cons, opens]
  exact guarded_escapeChars style value.toList before behind inside

end Guarded

structure IsLiteral (delimiter : Char) (text value : String) : Prop where
  /-- Whatever is behind the text, the literal ends with it, and only the value comes out of its escapes. -/
  read_iff : ∀ rest (other : String),
    literal? (text.toList ++ rest) = some (textUnits other.toList, rest) ↔ other = value
  /-- Its first quote and its last are the only ones of their kind that are not escaped. -/
  escaped : ∀ before behind, text.toList = before ++ delimiter :: behind → before ≠ [] → behind ≠ [] →
    Place.code.after before = .escaped delimiter
  unbroken : '\n' ∉ text.toList ∧ '\r' ∉ text.toList

/-- A quoted text is one literal of the text, and no other text has the same. -/
theorem isLiteral_quote (style : QuoteStyle) :
    (∀ text, IsLiteral style.delimiter (quote style text) text) ∧ Function.Injective (quote style) := by
  constructor
  · intro text
    refine ⟨?_, fun before behind => after_eq_escaped_of_quote, not_mem_quote (.inl rfl) style text,
      not_mem_quote (.inr rfl) style text⟩
    intro rest other
    rw [literal?_quote, Option.some.injEq, Prod.mk.injEq, textUnits_injective.eq_iff,
      String.toList_inj, eq_comm]
    exact and_iff_left rfl
  · intro first second same
    have read := literal?_quote style second []
    rw [← same, literal?_quote, Option.some.injEq, Prod.mk.injEq] at read
    exact String.toList_inj.mp (textUnits_injective read.1)

end TypedClient.Script
