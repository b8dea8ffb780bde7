/-!
Cutting character lists into pieces and putting pieces together, and the numbers that digits write.
All functions recurse on the characters, so they run in proofs as they do in programs.
-/

set_option autoImplicit false

namespace TypedClient.Text

/-- The pieces between separators, empty ones included: one more than there are separators. -/
def splitAt (isSeparator : Char → Bool) : List Char → List (List Char)
  | [] => [[]]
  | c :: rest =>
    if isSeparator c then [] :: splitAt isSeparator rest
    else match splitAt isSeparator rest with
      | [] => [[c]]
      | piece :: pieces => (c :: piece) :: pieces

theorem splitAt_ne_nil (isSeparator : Char → Bool) (text : List Char) :
    splitAt isSeparator text ≠ [] := by
  cases text with
  | nil => simp [splitAt]
  | cons c rest =>
    simp only [splitAt]
    split
    · simp
    · split <;> simp

def splitOn (separator : Char) (text : String) : List String :=
  (splitAt (· == separator) text.toList).map String.ofList

def join (separator : String) : List String → String
  | [] => ""
  | [piece] => piece
  | piece :: rest => piece ++ separator ++ join separator rest

@[simp] theorem join_nil (separator : String) : join separator [] = "" := rfl

@[simp] theorem join_singleton (separator piece : String) : join separator [piece] = piece := rfl

theorem join_cons_cons (separator first second : String) (rest : List String) :
    join separator (first :: second :: rest) =
      first ++ separator ++ join separator (second :: rest) := rfl

def dropLead? : List Char → List Char → Option (List Char)
  | [], text => some text
  | _ :: _, [] => none
  | l :: lead, c :: text => if l = c then dropLead? lead text else none

theorem dropLead?_append (lead text : List Char) : dropLead? lead (lead ++ text) = some text := by
  induction lead with
  | nil => rfl
  | cons l lead ih => simp [dropLead?, ih]

def startsWith (lead text : String) : Bool := (dropLead? lead.toList text.toList).isSome

/-- Each character gives way to its replacement, all at once. -/
def replaceChars (replacement : Char → List Char) (text : String) : String :=
  String.ofList (text.toList.flatMap replacement)

/-- Lines end at a line feed, or at a carriage return with a line feed behind it. -/
def lineList : List Char → List (List Char)
  | [] => []
  | '\n' :: rest => [] :: lineList rest
  | '\r' :: '\n' :: rest => [] :: lineList rest
  | c :: rest =>
    match lineList rest with
    | [] => [[c]]
    | line :: more => (c :: line) :: more

def lines (text : String) : List String := (lineList text.toList).map String.ofList

def isBlank (c : Char) : Bool :=
  let n := c.toNat
  (0x09 ≤ n && n ≤ 0x0D) || n == 0x20 || n == 0x85 || n == 0xA0 || n == 0x1680 ||
    (0x2000 ≤ n && n ≤ 0x200A) || n == 0x2028 || n == 0x2029 || n == 0x202F || n == 0x205F ||
    n == 0x3000

def trimList (text : List Char) : List Char :=
  ((text.dropWhile isBlank).reverse.dropWhile isBlank).reverse

def trim (text : String) : String := String.ofList (trimList text.toList)

def digitValue (digit : Char) : Nat := digit.toNat - '0'.toNat

def digitsValue (digits : List Char) : Nat :=
  digits.foldl (fun value digit => value * 10 + digitValue digit) 0

def natural? (digits : List Char) : Option Nat :=
  if digits.isEmpty || !digits.all Char.isDigit then none else some (digitsValue digits)

theorem digitValue_le {c : Char} (digit : c.isDigit = true) : digitValue c ≤ 9 := by
  have bound : c.toNat ≤ '9'.toNat := by
    simp only [Char.isDigit, Bool.and_eq_true, decide_eq_true_eq] at digit
    exact digit.2
  exact Nat.sub_le_sub_right bound '0'.toNat

def hexDigit? (c : Char) : Option Nat :=
  if c.isDigit then some (digitValue c)
  else if 'a' ≤ c ∧ c ≤ 'f' then some (c.toNat - 'a'.toNat + 10)
  else if 'A' ≤ c ∧ c ≤ 'F' then some (c.toNat - 'A'.toNat + 10)
  else none

def hexValue? (digits : List Char) : Option Nat :=
  digits.foldlM (fun value digit => return value * 16 + (← hexDigit? digit)) 0

theorem hexDigit?_of_isDigit {c : Char} (digit : c.isDigit = true) :
    hexDigit? c = some (digitValue c) := if_pos digit

/-- The character with a code; surrogates and codes out of range have none. -/
def charOfCode? (code : Nat) : Option Char :=
  if h : code.isValidChar then some (Char.ofNatAux code h) else none

end TypedClient.Text
