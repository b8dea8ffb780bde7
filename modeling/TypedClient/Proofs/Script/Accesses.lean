import TypedClient.Proofs.Script.Reading

/-! What code reads through a variable.

An access is a variable with the members that are read one from the other behind it. The names of
members are not variables. Brackets around it, commas and the ends of lines are not part of an
access, so the accesses in code are those in its parts.
-/

set_option autoImplicit false

namespace TypedClient.Script

def chain : List Token → List String
  | .mark '.' :: .word name :: rest => name :: chain rest
  | .mark '[' :: .text name :: .mark ']' :: rest => name :: chain rest
  | .mark '?' :: .mark '.' :: .word name :: rest => name :: chain rest
  | .mark '?' :: .mark '.' :: .mark '[' :: .text name :: .mark ']' :: rest => name :: chain rest
  | _ => []

/-- The members that are read behind each place where the variable stands. -/
def accesses (subject : String) : List Token → List (List String)
  | [] => []
  | .mark '.' :: .mark '.' :: .mark '.' :: rest => accesses subject rest
  | .mark '.' :: .word _ :: rest => accesses subject rest
  | .word name :: rest =>
    if name = subject then chain rest :: accesses subject rest else accesses subject rest
  | _ :: rest => accesses subject rest

def Token.separates : Token → Bool
  | .word _ | .text _ => false
  | .mark c => !".?[]".toList.contains c
  | _ => true

section Separated
variable {subject : String} {first second rest : List Token} {token : Token}

/-- What goes on beyond a token does not begin with others. -/
theorem exists_append_of_separates {separating : Token → Bool} (separates : separating token = true)
    (front : List Token) (joined : front.any separating = false)
    (same : first ++ token :: second = front ++ rest) : ∃ more, first = front ++ more := by
  induction front generalizing first with
  | nil => exact ⟨first, rfl⟩
  | cons head front ih =>
    simp only [List.any_cons, Bool.or_eq_false_iff] at joined
    obtain ⟨joins, others⟩ := joined
    cases first with
    | nil =>
      obtain ⟨rfl, _⟩ := List.cons.inj same
      rw [joins] at separates
      cases separates
    | cons other first =>
      obtain ⟨rfl, tails⟩ := List.cons.inj same
      obtain ⟨more, rfl⟩ := ih others tails
      exact ⟨more, rfl⟩

theorem chain_append (separates : token.separates = true) (first second : List Token) :
    chain (first ++ token :: second) = chain first := by
  induction first using chain.induct with
  | case1 name rest ih => simp [chain, ih]
  | case2 name rest ih => simp [chain, ih]
  | case3 name rest ih => simp [chain, ih]
  | case4 name rest ih => simp [chain, ih]
  | case5 first bare quoted optional optionalQuoted =>
    rw [chain.eq_5 first bare quoted optional optionalQuoted, chain.eq_5]
    -- What is no link without the rest is none with it.
    · intro name rest same
      obtain ⟨more, found⟩ :=
        exists_append_of_separates separates [.mark '.', .word name] rfl same
      exact bare name more found
    · intro name rest same
      obtain ⟨more, found⟩ :=
        exists_append_of_separates separates [.mark '[', .text name, .mark ']'] rfl same
      exact quoted name more found
    · intro name rest same
      obtain ⟨more, found⟩ :=
        exists_append_of_separates separates [.mark '?', .mark '.', .word name] rfl same
      exact optional name more found
    · intro name rest same
      obtain ⟨more, found⟩ := exists_append_of_separates separates
        [.mark '?', .mark '.', .mark '[', .text name, .mark ']'] rfl same
      exact optionalQuoted name more found

theorem accesses_cons (separates : token.separates = true) (tokens : List Token) :
    accesses subject (token :: tokens) = accesses subject tokens := by
  rw [accesses.eq_5]
  · rintro rest rfl
    cases separates
  · rintro name rest rfl
    cases separates
  · rintro name rfl
    cases separates

theorem accesses_append (separates : token.separates = true) (first second : List Token) :
    accesses subject (first ++ token :: second) =
      accesses subject first ++ accesses subject second := by
  induction first using accesses.induct subject with
  | case1 => exact accesses_cons separates second
  | case2 rest ih => simpa [accesses] using ih
  | case3 name rest ih => simpa [accesses] using ih
  | case4 rest ih => simp [accesses, ih, chain_append separates]
  | case5 name rest other ih => simp [accesses, other, ih]
  | case6 head rest spread member word ih =>
    rw [List.cons_append, accesses.eq_5 _ _ _ spread member word, accesses.eq_5, ih]
    · rintro others rfl tail
      obtain ⟨more, found⟩ :=
        exists_append_of_separates separates [.mark '.', .mark '.'] rfl tail
      exact spread more rfl found
    · rintro name others rfl tail
      obtain ⟨more, found⟩ := exists_append_of_separates separates [.word name] rfl tail
      exact member name more rfl found
    · exact word

theorem accesses_concat (separates : token.separates = true) (tokens : List Token) :
    accesses subject (tokens ++ [token]) = accesses subject tokens := by
  rw [accesses_append separates, accesses, List.append_nil]

end Separated


end TypedClient.Script
