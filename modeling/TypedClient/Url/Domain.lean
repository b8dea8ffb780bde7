import TypedClient.Text.Pieces
import TypedClient.Url.Domain.Classes
import TypedClient.Url.Domain.Composition
import TypedClient.Url.Domain.Punycode
import TypedClient.Url.Domain.Spelling

/-!
Domains in any script. A domain is spelled in plain characters, in the one form that such a text
has. Then each of its labels has to fit the rules for domain names: which characters it may have,
where joiners may stand, and how scripts of both directions may be mixed.
-/

set_option autoImplicit false

namespace TypedClient.Url

open Text (hexValue? splitAt)

def percentBytes : List Char → List UInt8
  | '%' :: a :: b :: rest =>
    match hexValue? [a, b] with
    | some code => code.toUInt8 :: percentBytes rest
    | none => '%'.toNat.toUInt8 :: percentBytes (a :: b :: rest)
  | c :: rest => (String.singleton c).toUTF8.toList ++ percentBytes rest
  | [] => []

def percentDecode? (text : List Char) : Option (List Char) :=
  (String.fromUTF8? ⟨(percentBytes text).toArray⟩).map String.toList

def isForbiddenInDomain (c : Char) : Bool :=
  c.toNat ≤ 0x20 || c.toNat == 0x7F || "%#/:<>?@[\\]^|".toList.contains c

def spelled? : List Char → Option (List Char)
  | [] => some []
  | c :: rest =>
    match spelling c with
    | .refused => none
    | .dropped => spelled? rest
    | .text plain => (spelled? rest).map (plain ++ ·)

namespace Label

def encodedMark : List Char := "xn--".toList

def longestEncoded : Nat := 2000

def longest : Nat := 1000

def isAscii (label : List Char) : Bool := label.all (·.toNat < 0x80)

/-- The label that is encoded in a text behind the mark. It has to be one that is encoded in no
other way. -/
def ofEncoded? (text : List Char) : Option (List Char) := do
  if text.getLast?.all (· == '-') || longestEncoded < text.length then none
  let label ← Punycode.decode? text
  if label.all isPlain && Composition.composed label == label && !encodedMark.isPrefixOf label then some label
  else none

/-- A joiner stands behind a virama. So does a non-joiner, or it parts letters that would join. -/
def joinerFits (before : List Char) (c : Char) (rest : List Char) : Bool :=
  if c == '\u200C' then
    before.head?.any viramas.contains ||
      ((before.dropWhile nonspacingMarks.contains).head?.any joiningOn.contains &&
        (rest.dropWhile nonspacingMarks.contains).head?.any joiningBack.contains)
  else if c == '\u200D' then before.head?.any viramas.contains
  else true

def joinersFit (before : List Char) : List Char → Bool
  | [] => true
  | c :: rest => joinerFits before c rest && joinersFit (c :: before) rest

def meaning? (label : List Char) : Option (List Char) := do
  let label ←
    if encodedMark.isPrefixOf label then ofEncoded? (label.drop encodedMark.length)
    else if isAscii label then some label
    else if label.length ≤ longest then some label
    else none
  if label.head?.any isMark || !joinersFit [] label then none else some label

/-- Whether a label belongs to a domain that is written from right to left, at least in part. -/
def isTurning (label : List Char) : Bool :=
  label.any fun c => direction c == .right || direction c == .arabicDigit

/-- A label of such a domain is written in one direction, which its first character has, and
ends in a letter or a digit with its marks. One from right to left has digits of one kind. -/
def isDirected (label : List Char) : Bool :=
  let directions := label.map direction
  let last := (directions.reverse.dropWhile (· == .mark)).head?
  match directions.head? with
  | none => true
  | some .left =>
    directions.all [Direction.left, .digit, .neutral, .mark].contains &&
      last.any [Direction.left, .digit].contains
  | some .right =>
    directions.all [Direction.right, .digit, .arabicDigit, .neutral, .mark].contains &&
      last.any [Direction.right, .digit, .arabicDigit].contains &&
        !(directions.contains .digit && directions.contains .arabicDigit)
  | some _ => false

end Label

def labelsFit (labels : List (List Char)) : Bool :=
  match labels.mapM Label.meaning? with
  | none => false
  | some labels => !labels.any Label.isTurning || labels.all Label.isDirected

def domain? (host : List Char) : Option (List Char) := do
  let domain := Composition.composed (← spelled? (← percentDecode? host))
  if domain.any isForbiddenInDomain || !labelsFit (splitAt (· == '.') domain) then none
  else some domain

end TypedClient.Url
