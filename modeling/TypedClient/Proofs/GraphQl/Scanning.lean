import TypedClient.GraphQl.Definitions.Token

/-! The tokens of a text, apart from how deep its brackets are nested.

A text is scanned in two steps that do not depend on each other: cutting it into tokens, and
checking that each of them is one and that no brackets are too deep. The first step needs no
limit, so the tokens of a text put together are those of its pieces.
-/

set_option autoImplicit false

namespace TypedClient.GraphQl.Definitions

def noToken : Token := .name ""

def lexOther (again : List Char → List Token) (c : Char) (rest : List Char) : List Token :=
  if isIgnored c then again rest
  else if c == '#' then again (rest.dropWhile fun c => !isLineEnd c)
  else if isOpening c || isClosing c || isMark c then .mark c :: again rest
  else if isNameStart c then
    .name (String.ofList (c :: rest.takeWhile isNameChar)) :: again (rest.dropWhile isNameChar)
  else if c.isDigit || c == '-' then
    (number? (c :: rest.takeWhile fun c => !endsNumber c)).getD noToken ::
      again (rest.dropWhile fun c => !endsNumber c)
  else [noToken]

def lexFrom (again : List Char → List Token) : List Char → List Token
  | [] => []
  | '"' :: '"' :: '"' :: rest =>
    match readBlock rest with
    | some (raw, rest) => .text (String.ofList (blockText raw)) :: again rest
    | none => [noToken]
  | '"' :: rest =>
    match readText rest with
    | some (text, rest) => .text (String.ofList text) :: again rest
    | none => [noToken]
  | c :: rest => lexOther again c rest

def lexWithin : Nat → List Char → List Token
  | _, [] => []
  | 0, _ => [noToken]
  | limit + 1, text => lexFrom (lexWithin limit) text

def lexAll (text : List Char) : List Token := lexWithin text.length text

/-- Every token is one, and brackets behind `depth` open ones are not nested too deep. -/
def fits : Nat → List Token → Bool
  | _, [] => true
  | depth, .mark c :: rest =>
    if isOpening c then decide (depth < deepest) && fits (depth + 1) rest
    else if isClosing c then fits (depth - 1) rest
    else fits depth rest
  | depth, token :: rest => token != noToken && fits depth rest

section Limit
variable {text raw rest : List Char}

theorem length_readBlock (read : readBlock text = some (raw, rest)) :
    rest.length + 3 ≤ text.length := by
  fun_induction readBlock text generalizing raw with
  | case1 => cases read
  | case2 text ih =>
    simp only [Option.bind_eq_bind, Option.bind_eq_some_iff, Prod.exists] at read
    obtain ⟨more, behind, read, same⟩ := read
    cases same
    have := ih read
    simp only [List.length_cons]
    omega
  | case3 text =>
    cases read
    simp only [List.length_cons]
    omega
  | case4 c text _ _ ih =>
    simp only [Option.bind_eq_bind, Option.bind_eq_some_iff, Prod.exists] at read
    obtain ⟨more, behind, read, same⟩ := read
    cases same
    have := ih read
    simp only [List.length_cons]
    omega

theorem length_readText (read : readText text = some (raw, rest)) : rest.length < text.length := by
  fun_induction readText text generalizing raw with
  | case1 => cases read
  | case2 text =>
    cases read
    simp
  | case3 => cases read
  | case4 a b c d text ih =>
    simp only [Option.bind_eq_bind, Option.bind_eq_some_iff, Prod.exists] at read
    obtain ⟨_, _, _, _, more, behind, read, same⟩ := read
    cases same
    have := ih read
    simp only [List.length_cons]
    omega
  | case5 c text _ ih =>
    simp only [Option.bind_eq_bind, Option.bind_eq_some_iff, Prod.exists] at read
    obtain ⟨_, _, more, behind, read, same⟩ := read
    cases same
    have := ih read
    simp only [List.length_cons]
    omega
  | case6 c text _ _ _ _ ih =>
    simp only [Option.bind_eq_bind, Option.bind_eq_some_iff, Prod.exists] at read
    obtain ⟨more, behind, read, same⟩ := read
    cases same
    have := ih read
    simp only [List.length_cons]
    omega

/-- What stands behind the first token is shorter than the text. -/
theorem lexFrom_congr {again other : List Char → List Token}
    (same : ∀ rest : List Char, rest.length < text.length → again rest = other rest) :
    lexFrom again text = lexFrom other text := by
  fun_cases lexFrom again text with
  | case1 => rfl
  | case2 text raw rest read =>
    have shorter := length_readBlock read
    simp only [List.length_cons] at same
    simp only [lexFrom, read, same rest (by omega)]
  | case3 text read => simp only [lexFrom, read]
  | case4 rest unblocked text behind read =>
    have shorter := length_readText read
    rw [List.length_cons] at same
    rw [lexFrom]
    · simp only [read, same behind (by omega)]
    · exact unblocked
  | case5 rest unblocked read =>
    rw [lexFrom]
    · simp only [read]
    · exact unblocked
  | case6 c rest _ unquoted =>
    have dropped : ∀ keeps : Char → Bool,
        again (rest.dropWhile keeps) = other (rest.dropWhile keeps) := by
      intro keeps
      have := (List.dropWhile_suffix keeps (l := rest)).length_le
      exact same _ (by rw [List.length_cons]; omega)
    rw [lexFrom]
    · simp only [lexOther, same rest (by simp), dropped]
    · exact fun _ quote => absurd quote unquoted
    · exact unquoted

theorem lexWithin_eq {limit : Nat} (enough : text.length ≤ limit) : lexWithin limit text = lexAll text := by
  suffices any : ∀ limit other, text.length ≤ limit → text.length ≤ other →
      lexWithin limit text = lexWithin other text from any _ _ enough (Nat.le_refl _)
  clear enough limit
  intro limit
  induction limit generalizing text with
  | zero =>
    intro other empty _
    rw [List.length_eq_zero_iff.mp (Nat.le_zero.mp empty)]
    simp [lexWithin]
  | succ limit ih =>
    intro other enough enough'
    cases text with
    | nil => simp [lexWithin]
    | cons c rest =>
      rw [List.length_cons] at enough enough'
      obtain ⟨other, rfl⟩ : ∃ less, other = less + 1 := Nat.exists_eq_add_of_le' (by omega)
      refine lexFrom_congr fun behind shorter => ih _ ?_ ?_ <;>
      · rw [List.length_cons] at shorter
        omega

theorem lexAll_eq (text : List Char) : lexAll text = lexFrom lexAll text := by
  cases text with
  | nil => rfl
  | cons c rest =>
    refine lexFrom_congr fun behind shorter => lexWithin_eq ?_
    exact Nat.le_of_lt_succ shorter

end Limit

def checked (depth : Nat) (tokens : List Token) : Option (List Token) :=
  if fits depth tokens then some tokens else none

section Checked
variable {depth : Nat} {c : Char} {token : Token} {tokens : List Token}

theorem checked_opening (opening : isOpening c = true) :
    checked depth (.mark c :: tokens) =
      if depth < deepest then (.mark c :: ·) <$> checked (depth + 1) tokens else none := by
  by_cases room : depth < deepest
  · simp only [checked, fits, opening, if_true, room, decide_true, Bool.true_and]
    cases fits (depth + 1) tokens <;> rfl
  · simp [checked, fits, opening, room]

theorem checked_closing (other : isOpening c = false) (closing : isClosing c = true) :
    checked depth (.mark c :: tokens) = (.mark c :: ·) <$> checked (depth - 1) tokens := by
  simp only [checked, fits, other, closing, Bool.false_eq_true, if_false, if_true]
  cases fits (depth - 1) tokens <;> rfl

theorem checked_mark (other : isOpening c = false) (another : isClosing c = false) :
    checked depth (.mark c :: tokens) = (.mark c :: ·) <$> checked depth tokens := by
  simp only [checked, fits, other, another, Bool.false_eq_true, if_false]
  cases fits depth tokens <;> rfl

theorem checked_noToken : checked depth (noToken :: tokens) = none := by
  simp [checked, fits, noToken]

theorem checked_other (unmarked : ∀ c, token ≠ .mark c) (real : token ≠ noToken) :
    checked depth (token :: tokens) = (token :: ·) <$> checked depth tokens := by
  have same : fits depth (token :: tokens) = fits depth tokens := by
    cases token with
    | mark c => exact absurd rfl (unmarked c)
    | _ => simp [fits, real]
  simp only [checked, same]
  cases fits depth tokens <;> rfl

end Checked

theorem lexWithin_other {limit : Nat} {c : Char} {rest : List Char} (unquoted : c ≠ '"') :
    lexWithin (limit + 1) (c :: rest) = lexOther (lexWithin limit) c rest := by
  rw [lexWithin, lexFrom]
  · exact fun _ quote => absurd quote unquoted
  · exact unquoted
  · simp

/-- A number, or an integer of 64 bits. -/
def Token.IsNumeral : Token → Prop
  | .integer value => -0x8000000000000000 ≤ value ∧ value < 0x8000000000000000
  | .number _ => True
  | _ => False

theorem isNumeral_of_numberTail? {negative : Bool} {whole text : List Char} {token : Token}
    (found : numberTail? negative whole text = some token) : token.IsNumeral := by
  unfold numberTail? at found
  split at found
  case h_1 =>
    obtain ⟨range, same⟩ := Option.ite_none_right_eq_some.mp found
    cases same
    exact range
  case h_2 rest =>
    dsimp only at found
    split at found
    case isTrue => cases found
    case isFalse =>
      split at found
      case h_1 =>
        cases found
        trivial
      case h_2 c rest _ =>
        split at found
        case isTrue =>
          obtain ⟨shift, -, rfl⟩ := Option.map_eq_some_iff.mp found
          trivial
        case isFalse => cases found
  case h_3 c rest _ =>
    split at found
    case isTrue =>
      obtain ⟨shift, -, rfl⟩ := Option.map_eq_some_iff.mp found
      trivial
    case isFalse => cases found

theorem isNumeral_of_number? {text : List Char} {token : Token}
    (found : number? text = some token) : token.IsNumeral := by
  unfold number? at found
  exact isNumeral_of_numberTail? (Option.ite_none_right_eq_some.mp found).2

theorem checked_numeral {found : Option Token} {depth : Nat} {tokens : List Token}
    (numeral : ∀ token, found = some token → token.IsNumeral) :
    checked depth (found.getD noToken :: tokens) =
      found.bind fun token => (token :: ·) <$> checked depth tokens := by
  cases found with
  | none => exact checked_noToken
  | some token =>
    have holds := numeral token rfl
    have unmarked : ∀ c, token ≠ .mark c := by
      rintro c rfl
      exact holds
    have real : token ≠ noToken := by
      rintro rfl
      exact holds
    exact checked_other unmarked real

/-- A text has tokens if the first step finds only tokens and none is too deep. -/
theorem scan_eq (limit depth : Nat) (text : List Char) :
    scan limit depth text = checked depth (lexWithin limit text) := by
  -- One case for each way in which a text can begin, in the order in which they are tried.
  fun_induction scan limit depth text with
  | case1 limit depth => simp [lexWithin, checked, fits]
  | case2 depth text nonempty =>
    rw [lexWithin, checked_noToken]
    exact nonempty
  | case3 limit depth text ih =>
    simp only [lexWithin, lexFrom]
    cases readBlock text with
    | none => rw [checked_noToken]; rfl
    | some read =>
      simp only [Option.bind_eq_bind, Option.bind_some]
      rw [checked_other (by simp) (by simp [noToken]), ← ih]
      cases scan limit depth read.2 <;> rfl
  | case4 limit depth text unblocked ih =>
    rw [lexWithin, lexFrom]
    · cases readText text with
      | none => rw [checked_noToken]; rfl
      | some read =>
        simp only [Option.bind_eq_bind, Option.bind_some]
        rw [checked_other (by simp) (by simp [noToken]), ← ih]
        cases scan limit depth read.2 <;> rfl
    · exact unblocked
    · simp
  | case5 limit depth c rest _ unquoted ignored ih =>
    simp [lexWithin_other unquoted, lexOther, ignored, ih]
  | case6 limit depth c rest _ unquoted _ comment ih =>
    rw [lexWithin_other unquoted, ih]
    simp_all [lexOther]
  | case7 limit depth c rest _ unquoted _ _ opening room ih =>
    simp_all [lexWithin_other unquoted, lexOther, checked_opening]
  | case8 limit depth c rest _ unquoted _ _ opening full =>
    rw [lexWithin_other unquoted, lexOther, if_neg ‹_›, if_neg ‹_›, if_pos (by rw [opening]; rfl),
      checked_opening opening, if_neg full]
  | case9 limit depth c rest _ unquoted _ _ other closing ih =>
    simp_all [lexWithin_other unquoted, lexOther, checked_closing]
  | case10 limit depth c rest _ unquoted _ _ other another isMark ih =>
    simp_all [lexWithin_other unquoted, lexOther, checked_mark]
  | case11 limit depth c rest _ unquoted _ _ _ _ _ isStart ih =>
    have named : Token.name (String.ofList (c :: rest.takeWhile isNameChar)) ≠ noToken := by
      simp [noToken]
    simp_all [lexWithin_other unquoted, lexOther, checked_other]
  | case12 limit depth c rest _ unquoted _ _ _ _ _ _ isNumber ih =>
    have next : lexWithin (limit + 1) (c :: rest) =
        (number? (c :: rest.takeWhile fun c => !endsNumber c)).getD noToken ::
          lexWithin limit (rest.dropWhile fun c => !endsNumber c) := by
      rw [lexWithin_other unquoted]
      simp_all [lexOther]
    rw [next, checked_numeral fun _ => isNumeral_of_number?, ← ih]
    cases number? (c :: rest.takeWhile fun c => !endsNumber c) with
    | none => rfl
    | some token => cases scan limit depth (rest.dropWhile fun c => !endsNumber c) <;> rfl
  | case13 limit depth c rest _ unquoted _ _ _ _ _ _ _ =>
    simp_all [lexWithin_other unquoted, lexOther, checked_noToken]

theorem tokens?_eq (text : String) : tokens? text = checked 0 (lexAll text.toList) :=
  scan_eq _ _ _

/-- Brackets are closed again, and none of them is nested deeper than there is room. -/
def Balanced (room : Nat) (tokens : List Token) : Prop :=
  ∀ depth rest, depth + room ≤ deepest → fits depth (tokens ++ rest) = fits depth rest

section Balanced
variable {room : Nat} {c : Char} {token : Token} {tokens more : List Token}

theorem Balanced.nil : Balanced room [] := fun _ _ _ => rfl

theorem Balanced.append (first : Balanced room tokens) (second : Balanced room more) :
    Balanced room (tokens ++ more) := by
  intro depth rest enough
  rw [List.append_assoc, first depth _ enough, second depth _ enough]

theorem Balanced.mono {less : Nat} (balanced : Balanced less tokens) (atMost : less ≤ room) :
    Balanced room tokens :=
  fun depth rest enough => balanced depth rest (by omega)

theorem Balanced.literal (unmarked : ∀ c, token ≠ .mark c) (real : token ≠ noToken)
    (balanced : Balanced room tokens) : Balanced room (token :: tokens) := by
  intro depth rest enough
  rw [List.cons_append, ← balanced depth rest enough]
  cases token with
  | mark c => exact absurd rfl (unmarked c)
  | _ => simp [fits, real]

theorem Balanced.mark (other : isOpening c = false) (another : isClosing c = false)
    (balanced : Balanced room tokens) : Balanced room (.mark c :: tokens) := by
  intro depth rest enough
  rw [List.cons_append, fits, other, another, ← balanced depth rest enough]
  simp

theorem Balanced.brackets {opening closing : Char} (opens : isOpening opening = true)
    (other : isOpening closing = false) (closes : isClosing closing = true)
    (balanced : Balanced room tokens) :
    Balanced (room + 1) (.mark opening :: (tokens ++ [.mark closing])) := by
  intro depth rest enough
  have deeper : depth < deepest := by omega
  rw [List.cons_append, List.append_assoc, List.singleton_append, fits, opens, if_pos rfl,
    balanced (depth + 1) _ (by omega), fits, other, closes]
  simp [deeper]

theorem Balanced.flatMap {ι : Type} {items : List ι} {tokensOf : ι → List Token}
    (each : ∀ item ∈ items, Balanced room (tokensOf item)) :
    Balanced room (items.flatMap tokensOf) := by
  induction items with
  | nil => exact .nil
  | cons item items ih =>
    obtain ⟨first, others⟩ := List.forall_mem_cons.mp each
    exact first.append (ih others)

end Balanced

end TypedClient.GraphQl.Definitions
