import TypedClient.Proofs.GraphQl.Readers
import TypedClient.Proofs.GraphQl.ValueSources

/-! What readers find in the tokens of a text.

Whatever is read has proper names and fits into the brackets that are left. The brackets that a reader
opens it closes again.
-/

set_option autoImplicit false

namespace TypedClient.GraphQl.Definitions

section Tokens

def Token.Real : Token → Prop
  | .name word => isName word = true
  | .integer value => -0x8000000000000000 ≤ value ∧ value < 0x8000000000000000
  | _ => True

theorem real_of_isNumeral {token : Token} (numeral : token.IsNumeral) : token.Real := by
  cases token with
  | integer value => exact numeral
  | name text => exact numeral.elim
  | _ => trivial

theorem isName_of_taken {c : Char} (begins : isNameStart c = true) (rest : List Char) :
    isName (String.ofList (c :: rest.takeWhile isNameChar)) = true := by
  rw [isName, String.toList_ofList, isNameList, begins, Bool.true_and, List.all_takeWhile]

theorem real_of_lexOther {again : List Char → List Token}
    (others : ∀ text, ∀ token ∈ again text, token = noToken ∨ token.Real) (c : Char)
    (rest : List Char) : ∀ token ∈ lexOther again c rest, token = noToken ∨ token.Real := by
  fun_cases lexOther again c rest with
  | case1 => exact others _
  | case2 => exact others _
  | case3 => exact List.forall_mem_cons.mpr ⟨.inr trivial, others _⟩
  | case4 _ _ _ begins => exact List.forall_mem_cons.mpr ⟨.inr (isName_of_taken begins rest), others _⟩
  | case5 =>
    refine List.forall_mem_cons.mpr ⟨?_, others _⟩
    cases found : number? (c :: rest.takeWhile fun c => !endsNumber c) with
    | none => exact .inl rfl
    | some token => exact .inr (real_of_isNumeral (isNumeral_of_number? found))
  | case6 => simp

theorem real_of_lexFrom {again : List Char → List Token}
    (others : ∀ text, ∀ token ∈ again text, token = noToken ∨ token.Real) (text : List Char) :
    ∀ token ∈ lexFrom again text, token = noToken ∨ token.Real := by
  fun_cases lexFrom again text with
  | case1 => simp
  | case2 => exact List.forall_mem_cons.mpr ⟨.inr trivial, others _⟩
  | case3 => simp
  | case4 => exact List.forall_mem_cons.mpr ⟨.inr trivial, others _⟩
  | case5 => simp
  | case6 c rest => exact real_of_lexOther others c rest

theorem real_of_lexWithin (limit : Nat) :
    ∀ text, ∀ token ∈ lexWithin limit text, token = noToken ∨ token.Real := by
  induction limit with
  | zero =>
    intro text
    cases text <;> simp [lexWithin]
  | succ limit ih =>
    intro text
    cases text with
    | nil => simp [lexWithin]
    | cons c rest => exact real_of_lexFrom ih (c :: rest)

/-- The tokens are real, and they fit behind `depth` open brackets. -/
structure Sane (depth : Nat) (tokens : List Token) : Prop where
  fits : fits depth tokens = true
  real : ∀ token ∈ tokens, token.Real

theorem noToken_not_mem {depth : Nat} {tokens : List Token} (fitting : fits depth tokens = true) :
    noToken ∉ tokens := by
  fun_induction fits depth tokens with
  | case1 => exact List.not_mem_nil
  | case2 depth c rest _ ih =>
    rw [Bool.and_eq_true] at fitting
    exact List.not_mem_cons_of_ne_of_not_mem (by simp [noToken]) (ih fitting.2)
  | case3 depth c rest _ _ ih =>
    exact List.not_mem_cons_of_ne_of_not_mem (by simp [noToken]) (ih fitting)
  | case4 depth c rest _ _ ih =>
    exact List.not_mem_cons_of_ne_of_not_mem (by simp [noToken]) (ih fitting)
  | case5 depth token rest _ ih =>
    rw [Bool.and_eq_true, bne_iff_ne] at fitting
    exact List.not_mem_cons_of_ne_of_not_mem (Ne.symm fitting.1) (ih fitting.2)

theorem sane_of_tokens? {text : String} {tokens : List Token} (found : tokens? text = some tokens) :
    Sane 0 tokens := by
  rw [tokens?_eq, checked] at found
  obtain ⟨fitting, same⟩ := Option.ite_none_right_eq_some.mp found
  cases same
  refine ⟨fitting, fun token member => ?_⟩
  rcases real_of_lexWithin _ _ token member with rfl | real
  · exact absurd member (noToken_not_mem fitting)
  · exact real

variable {depth : Nat} {c : Char} {token : Token} {rest : List Token}

theorem Sane.opening (sane : Sane depth (.mark c :: rest)) (opens : isOpening c = true) :
    depth < deepest ∧ Sane (depth + 1) rest := by
  have fitting := sane.fits
  rw [Definitions.fits, if_pos opens, Bool.and_eq_true, decide_eq_true_eq] at fitting
  exact ⟨fitting.1, fitting.2, fun token member => sane.real token (List.mem_cons_of_mem _ member)⟩

theorem Sane.closing (sane : Sane (depth + 1) (.mark c :: rest)) (other : isOpening c = false)
    (closes : isClosing c = true) : Sane depth rest := by
  have fitting := sane.fits
  rw [Definitions.fits, other, if_neg Bool.false_ne_true, if_pos closes] at fitting
  exact ⟨fitting, fun token member => sane.real token (List.mem_cons_of_mem _ member)⟩

theorem Sane.mark (sane : Sane depth (.mark c :: rest)) (other : isOpening c = false)
    (another : isClosing c = false) : Sane depth rest := by
  have fitting := sane.fits
  rw [Definitions.fits, other, another, if_neg Bool.false_ne_true, if_neg Bool.false_ne_true] at fitting
  exact ⟨fitting, fun token member => sane.real token (List.mem_cons_of_mem _ member)⟩

theorem Sane.other (sane : Sane depth (token :: rest)) (unmarked : ∀ c, token ≠ .mark c) :
    token.Real ∧ Sane depth rest := by
  have fitting := sane.fits
  rw [Definitions.fits, Bool.and_eq_true] at fitting
  · exact ⟨sane.real token List.mem_cons_self, fitting.2,
      fun token member => sane.real token (List.mem_cons_of_mem _ member)⟩
  · exact unmarked

end Tokens

section Guarantees
variable {α β : Type}

/-- From tokens like those before, the reader takes something with which those behind are as said. -/
def Guarantees (before : List Token → Prop) (reader : Reader α)
    (behind : α → List Token → Prop) : Prop :=
  ∀ tokens value rest, before tokens → reader tokens = some (value, rest) → behind value rest

/-- The reader takes something good and closes the brackets that it opens. -/
def Yields (depth : Nat) (reader : Reader α) (good : α → Prop) : Prop :=
  Guarantees (Sane depth) reader fun value rest => good value ∧ Sane depth rest

variable {before : List Token → Prop} {reader : Reader α} {next : α → Reader β}
  {behind : α → List Token → Prop} {after : β → List Token → Prop}
  {depth : Nat} {good : α → Prop} {fine : β → Prop} {c : Char}

theorem Guarantees.bind (first : Guarantees before reader behind)
    (second : ∀ value, Guarantees (behind value) (next value) after) :
    Guarantees before (reader >>= next) after := by
  intro tokens result rest given read
  change (reader tokens).bind _ = _ at read
  obtain ⟨⟨value, more⟩, taken, read⟩ := Option.bind_eq_some_iff.mp read
  exact second value more result rest (first tokens value more given taken) read

theorem Guarantees.pure {value : α} (holds : ∀ tokens, before tokens → behind value tokens) :
    Guarantees before (pure value) behind := by
  rintro tokens _ _ given ⟨⟩
  exact holds tokens given

theorem Guarantees.of_and {holds : Prop} (given : holds → Guarantees before reader behind) :
    Guarantees (fun tokens => holds ∧ before tokens) reader behind :=
  fun tokens value rest both read => given both.1 tokens value rest both.2 read

theorem Guarantees.failure : Guarantees before (failure : Reader α) behind := by
  rintro tokens value rest given ⟨⟩

theorem Yields.bind (first : Yields depth reader good)
    (second : ∀ value, good value → Yields depth (next value) fine) :
    Yields depth (reader >>= next) fine :=
  Guarantees.bind first fun value _ result rest given read =>
    second value given.1 _ result rest given.2 read

theorem Yields.pure {value : α} (holds : good value) : Yields depth (pure value) good :=
  Guarantees.pure fun _ sane => ⟨holds, sane⟩

theorem Yields.failure : Yields depth (failure : Reader α) good := Guarantees.failure

theorem Yields.mono {other : α → Prop} (yields : Yields depth reader good)
    (weaker : ∀ value, good value → other value) : Yields depth reader other :=
  fun tokens value rest sane read =>
    (yields tokens value rest sane read).imp_left (weaker value)

theorem remaining_yields : Yields depth Reader.remaining fun _ => True := by
  rintro tokens _ _ sane ⟨⟩
  exact ⟨trivial, sane⟩

theorem peek?_yields : Yields depth Reader.peek? fun _ => True := by
  rintro tokens _ _ sane ⟨⟩
  exact ⟨trivial, sane⟩

theorem name_yields : Yields depth Reader.name fun name => isName name = true := by
  intro tokens name rest sane read
  unfold Reader.name at read
  split at read
  · cases read
    exact sane.other (by simp)
  · cases read

theorem description_yields : Yields depth Reader.description fun _ => True := by
  intro tokens description rest sane read
  unfold Reader.description at read
  split at read
  · cases read
    exact ⟨trivial, (sane.other (by simp)).2⟩
  · cases read
    exact ⟨trivial, sane⟩

theorem skipWord_yields (word : String) : Yields depth (Reader.skipWord word) fun _ => True := by
  intro tokens taken rest sane read
  unfold Reader.skipWord at read
  split at read
  · split_ifs at read
    · cases read
      exact ⟨trivial, (sane.other (by simp)).2⟩
    · cases read
      exact ⟨trivial, sane⟩
  · cases read
    exact ⟨trivial, sane⟩

theorem word_yields (word : String) : Yields depth (Reader.word word) fun _ => True := by
  intro tokens _ rest sane read
  unfold Reader.word at read
  split at read
  · split_ifs at read
    cases read
    exact ⟨trivial, (sane.other (by simp)).2⟩
  · cases read

/-- Taking a mark or not leads to different brackets. -/
theorem skip_guarantees {there : List Token → Prop}
    (taken : ∀ rest, before (.mark c :: rest) → there rest) :
    Guarantees before (Reader.skip c) fun found rest =>
      match found with
      | true => there rest
      | false => before rest := by
  intro tokens found rest given read
  unfold Reader.skip at read
  split at read
  · split_ifs at read with same
    · cases read
      subst same
      exact taken rest given
    · cases read
      exact given
  · cases read
    exact given

theorem mark_guarantees {there : List Token → Prop}
    (taken : ∀ rest, before (.mark c :: rest) → there rest) :
    Guarantees before (Reader.mark c) fun _ rest => there rest := by
  intro tokens _ rest given read
  unfold Reader.mark at read
  split at read
  · split_ifs at read with same
    cases read
    subst same
    exact taken rest given
  · cases read

theorem skip_yields (other : isOpening c = false) (another : isClosing c = false) :
    Yields depth (Reader.skip c) fun _ => True := by
  intro tokens found rest sane read
  have guaranteed := skip_guarantees (c := c) (fun rest sane => sane.mark other another) tokens found
    rest sane read
  cases found <;> exact ⟨trivial, guaranteed⟩

theorem mark_yields (other : isOpening c = false) (another : isClosing c = false) :
    Yields depth (Reader.mark c) fun _ => True := by
  intro tokens value rest sane read
  exact ⟨trivial, mark_guarantees (fun rest sane => sane.mark other another) tokens value rest sane read⟩

end Guarantees

section Lists
variable {α : Type} {depth : Nat} {item : Reader α} {good : α → Prop} {opening closing separator : Char}

theorem untilMark_guarantees (inside : Yields (depth + 1) item good)
    (other : isOpening closing = false) (closes : isClosing closing = true) (limit : Nat) :
    Guarantees (Sane (depth + 1)) (Reader.untilMark closing item limit) fun items rest =>
      (∀ one ∈ items, good one) ∧ Sane depth rest := by
  induction limit with
  | zero => exact .failure
  | succ limit ih =>
    refine .bind (skip_guarantees fun rest sane => sane.closing other closes) fun found => ?_
    cases found with
    | true => exact .pure fun tokens sane => ⟨by simp, sane⟩
    | false =>
      refine .bind inside fun first => .of_and fun isGood => .bind ih fun items => .of_and fun others => ?_
      exact .pure fun tokens sane => ⟨List.forall_mem_cons.mpr ⟨isGood, others⟩, sane⟩

theorem enclosed_yields (inside : depth < deepest → Yields (depth + 1) item good)
    (opens : isOpening opening = true) (other : isOpening closing = false)
    (closes : isClosing closing = true) :
    Yields depth (Reader.enclosed opening closing item) fun items =>
      depth < deepest ∧ ∀ one ∈ items, good one := by
  refine Guarantees.bind (mark_guarantees fun rest sane => sane.opening opens) fun _ =>
    .of_and fun room => .bind remaining_yields fun limit => .of_and fun _ => ?_
  intro tokens items rest sane read
  obtain ⟨each, behind⟩ := untilMark_guarantees (inside room) other closes _ tokens items rest sane read
  exact ⟨⟨room, each⟩, behind⟩

theorem group_yields (inside : depth < deepest → Yields (depth + 1) item good)
    (opens : isOpening opening = true) (other : isOpening closing = false)
    (closes : isClosing closing = true) :
    Yields depth (Reader.group opening closing item) fun items => ∀ one ∈ items, good one := by
  refine Guarantees.bind (skip_guarantees fun rest sane => sane.opening opens) fun found => ?_
  cases found with
  | false => exact .pure fun tokens sane => ⟨by simp, sane⟩
  | true =>
    refine .of_and fun room => .bind (inside room) fun first => .of_and fun isGood =>
      .bind remaining_yields fun limit => .of_and fun _ =>
      .bind (untilMark_guarantees (inside room) other closes _) fun items => .of_and fun others => ?_
    exact .pure fun tokens sane => ⟨List.forall_mem_cons.mpr ⟨isGood, others⟩, sane⟩

theorem following_yields (inside : Yields depth item good) (other : isOpening separator = false)
    (another : isClosing separator = false) (limit : Nat) :
    Yields depth (Reader.following separator item limit) fun items => ∀ one ∈ items, good one := by
  induction limit with
  | zero => exact .pure (by simp)
  | succ limit ih =>
    refine .bind (skip_yields other another) fun found _ => ?_
    cases found with
    | false => exact .pure (by simp)
    | true =>
      refine inside.bind fun first isGood => ih.bind fun items others => ?_
      exact .pure (List.forall_mem_cons.mpr ⟨isGood, others⟩)

theorem separated_yields (inside : Yields depth item good) (other : isOpening separator = false)
    (another : isClosing separator = false) :
    Yields depth (Reader.separated separator item) fun items => ∀ one ∈ items, good one := by
  refine .bind (skip_yields other another) fun _ _ => inside.bind fun first isGood => ?_
  refine .bind remaining_yields fun limit _ => ?_
  refine (following_yields inside other another limit).bind fun items others => ?_
  exact .pure (List.forall_mem_cons.mpr ⟨isGood, others⟩)

end Lists

end TypedClient.GraphQl.Definitions
