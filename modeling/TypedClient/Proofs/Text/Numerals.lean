import Mathlib.Data.Nat.Digits.Defs
import Mathlib.Tactic.Ring
import TypedClient.Text.Pieces

/-! The decimal digits of natural numbers, written and read. -/

set_option autoImplicit false

namespace TypedClient.Text

theorem foldl_digits (digits : List Char) (start : ℕ) :
    digits.foldl (fun value digit => value * 10 + digitValue digit) start =
      start * 10 ^ digits.length + digitsValue digits := by
  induction digits generalizing start with
  | nil => simp [digitsValue]
  | cons digit rest ih =>
    unfold digitsValue
    rw [List.foldl_cons, List.foldl_cons, ih, ih (0 * 10 + digitValue digit), List.length_cons]
    ring

theorem digitsValue_append (digits more : List Char) :
    digitsValue (digits ++ more) = digitsValue digits * 10 ^ more.length + digitsValue more := by
  rw [digitsValue, List.foldl_append]
  exact foldl_digits more (digitsValue digits)

theorem digitsValue_zeros (count : ℕ) : digitsValue (List.replicate count '0') = 0 := by
  induction count with
  | zero => rfl
  | succ count ih =>
    rw [List.replicate_succ', digitsValue_append, ih]
    decide

theorem digitsValue_toDigits (number : ℕ) : digitsValue (Nat.toDigits 10 number) = number := by
  have same : digitsValue (Nat.toDigits 10 number) =
      Nat.ofDigitChars 10 (Nat.toDigits 10 number) 0 := by
    unfold digitsValue Nat.ofDigitChars digitValue
    simp only [Nat.mul_comm]
  rw [same, Nat.ofDigitChars_ten_toDigits]

theorem isDigit_of_mem_toDigits {number : ℕ} {c : Char} (member : c ∈ Nat.toDigits 10 number) :
    c.isDigit = true :=
  Nat.isDigit_of_mem_toDigits (by decide) (le_refl 10) member

/-- The digits of a number begin with a zero only if it is zero. -/
theorem toDigits_leading {number : ℕ} (nonzero : number ≠ 0) :
    ∃ c rest, Nat.toDigits 10 number = c :: rest ∧ c ≠ '0' := by
  induction number using Nat.strong_induction_on with
  | _ number ih =>
    by_cases small : number < 10
    · have other : ∀ digit < 10, digit ≠ 0 → digit.digitChar ≠ '0' := by decide
      exact ⟨number.digitChar, [], Nat.toDigits_of_lt_base small, other number small nonzero⟩
    · obtain ⟨c, rest, begins, other⟩ := ih (number / 10) (by omega) (by omega)
      have split := Nat.toDigits_append_toDigits (b := 10) (n := number / 10) (d := number % 10)
        (by decide) (by omega) (Nat.mod_lt _ (by decide))
      rw [Nat.div_add_mod, begins] at split
      exact ⟨c, _, split.symm, other⟩

theorem toList_toString (number : ℕ) : (toString number).toList = Nat.toDigits 10 number := by
  rw [Nat.toString_eq_repr, Nat.toList_repr]

theorem toList_intToString (value : ℤ) :
    (toString value).toList =
      (if decide (value < 0) = true then ['-'] else []) ++ Nat.toDigits 10 value.natAbs := by
  cases value with
  | ofNat number =>
    rw [if_neg (by simp), List.nil_append]
    exact toList_toString number
  | negSucc number =>
    rw [if_pos (by simp)]
    change ("-" ++ Nat.repr (number + 1)).toList = _
    rw [String.toList_append, Nat.toList_repr]
    rfl

end TypedClient.Text
