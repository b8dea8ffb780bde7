import TypedClient.Proofs.Decimal.Shortest
import TypedClient.Proofs.Text.Numerals

/-! Numbers written out in place, without an exponent.

The text is a sign, digits without a leading zero and, behind a point, some more digits. These
digits are exactly those of the shortest decimal, so they read back to the number.
-/

set_option autoImplicit false

namespace TypedClient.Decimal

open Text (digitsValue digitsValue_append digitsValue_zeros digitsValue_toDigits toList_toString
  isDigit_of_mem_toDigits toDigits_leading)

def Layout.plain (tie : Tie) : Layout := ⟨tie, none, false⟩

def pointed (whole fraction : List Char) : List Char :=
  whole ++ if fraction = [] then [] else '.' :: fraction

structure WrittenOut (decimal : Scaled) (whole fraction : List Char) : Prop where
  wholeDigits : ∀ c ∈ whole, c.isDigit = true
  fractionDigits : ∀ c ∈ fraction, c.isDigit = true
  leading : whole = ['0'] ∨ ∃ c rest, whole = c :: rest ∧ c ≠ '0'
  value : (digitsValue (whole ++ fraction) : ℚ) = decimal.toRat * 10 ^ fraction.length

/-- The first character and the others, for machines that take them one by one. -/
theorem exists_first (negative : Bool) {whole fraction : List Char} (nonempty : whole ≠ [])
    (wholeDigits : ∀ c ∈ whole, c.isDigit = true) (fractionDigits : ∀ c ∈ fraction, c.isDigit = true) :
    ∃ c rest, (if negative then ['-'] else []) ++ pointed whole fraction = c :: rest ∧
      (c.isDigit = true ∨ c = '-') ∧ ∀ d ∈ rest, d.isDigit = true ∨ d = '.' := by
  have inside : ∀ c ∈ pointed whole fraction, c.isDigit = true ∨ c = '.' := by
    intro c member
    rcases List.mem_append.mp member with digit | behind
    · exact .inl (wholeDigits c digit)
    · split_ifs at behind with empty
      · simp at behind
      · rcases List.mem_cons.mp behind with rfl | digit
        · exact .inr rfl
        · exact .inl (fractionDigits c digit)
  cases negative with
  | true => exact ⟨'-', _, rfl, .inr rfl, inside⟩
  | false =>
    obtain ⟨first, more, rfl⟩ := List.exists_cons_of_ne_nil nonempty
    refine ⟨first, _, rfl, .inl (wholeDigits first List.mem_cons_self), ?_⟩
    intro c member
    exact inside c (List.mem_cons_of_mem _ member)

theorem WrittenOut.nonempty {decimal : Scaled} {whole fraction : List Char}
    (written : WrittenOut decimal whole fraction) : whole ≠ [] := by
  rcases written.leading with zero | ⟨c, rest, other, -⟩
  · simp [zero]
  · simp [other]

theorem toList_zeros (count : ℕ) : (zeros count).toList = List.replicate count '0' :=
  String.toList_ofList

theorem isDigit_of_mem_zeros {count : ℕ} {c : Char} (member : c ∈ List.replicate count '0') :
    c.isDigit = true := by
  rw [List.eq_of_mem_replicate member]
  rfl

section InPlace
variable {decimal : Scaled}

theorem toRat_of_exponent_nonneg {count : ℕ} (whole : decimal.exponent = count) :
    decimal.toRat = decimal.digits * 10 ^ count := by
  rw [Scaled.toRat, whole, zpow_natCast]

theorem toRat_of_exponent_neg {count : ℕ} (places : decimal.exponent = -count) :
    decimal.toRat * 10 ^ count = decimal.digits := by
  rw [Scaled.toRat, places, zpow_neg, zpow_natCast]
  field_simp

/-- The digits of a decimal, of which only a single one can be a leading zero. -/
structure DigitsOf (decimal : Scaled) (digits : List Char) : Prop where
  value : digitsValue digits = decimal.digits
  areDigits : ∀ c ∈ digits, c.isDigit = true
  nonempty : digits ≠ []
  leading : digits = ['0'] ∨ ∃ c rest, digits = c :: rest ∧ c ≠ '0'

theorem digitsOf_toDigits (decimal : Scaled) : DigitsOf decimal (Nat.toDigits 10 decimal.digits) := by
  refine ⟨digitsValue_toDigits decimal.digits, fun c member => isDigit_of_mem_toDigits member,
    List.ne_nil_of_length_pos Nat.length_toDigits_pos, ?_⟩
  by_cases zero : decimal.digits = 0
  · rw [zero]
    exact .inl rfl
  · exact .inr (toDigits_leading zero)

namespace DigitsOf

variable {digits : List Char} {count : ℕ} (written : DigitsOf decimal digits)
include written

theorem writtenOut_below (places : decimal.exponent = -((count + digits.length : ℕ) : ℤ)) :
    WrittenOut decimal ['0'] (List.replicate count '0' ++ digits) := by
  refine ⟨List.forall_mem_singleton.mpr rfl, ?_, .inl rfl, ?_⟩
  · intro c member
    rcases List.mem_append.mp member with zero | digit
    · exact isDigit_of_mem_zeros zero
    · exact written.areDigits c digit
  · rw [List.length_append, List.length_replicate, toRat_of_exponent_neg places,
      digitsValue_append, digitsValue_append, digitsValue_zeros, written.value]
    simp [show digitsValue ['0'] = 0 from rfl]

theorem writtenOut_above (regular : decimal.digits ≠ 0 ∨ decimal.exponent = 0)
    (whole : decimal.exponent = count) : WrittenOut decimal (digits ++ List.replicate count '0') [] := by
  refine ⟨?_, by simp, ?_, ?_⟩
  · intro c member
    rcases List.mem_append.mp member with digit | zero
    · exact written.areDigits c digit
    · exact isDigit_of_mem_zeros zero
  · rcases written.leading with rfl | ⟨c, rest, rfl, other⟩
    · -- No zeros follow a zero.
      have zero : decimal.digits = 0 := written.value ▸ rfl
      have none := regular.resolve_left (fun nonzero => nonzero zero)
      rw [whole] at none
      rw [Int.natCast_eq_zero.mp none]
      exact .inl rfl
    · exact .inr ⟨c, _, List.cons_append .., other⟩
  · rw [List.append_nil, toRat_of_exponent_nonneg whole, digitsValue_append, digitsValue_zeros,
      written.value, List.length_replicate]
    simp

theorem writtenOut_between (places : decimal.exponent = -((digits.length - (count + 1) : ℕ) : ℤ))
    (inside : count + 1 < digits.length) :
    WrittenOut decimal (digits.take (count + 1)) (digits.drop (count + 1)) := by
  refine ⟨fun c member => written.areDigits c (List.mem_of_mem_take member),
    fun c member => written.areDigits c (List.mem_of_mem_drop member), ?_, ?_⟩
  · rcases written.leading with rfl | ⟨c, rest, rfl, other⟩
    · simp at inside
    · exact .inr ⟨c, _, List.take_succ_cons, other⟩
  · rw [List.take_append_drop, List.length_drop, toRat_of_exponent_neg places, written.value]

end DigitsOf

/-- A decimal in place is written out, unless it is a zero with zeros behind it. -/
theorem exists_writtenOut (regular : decimal.digits ≠ 0 ∨ decimal.exponent = 0) :
    ∃ whole fraction, WrittenOut decimal whole fraction ∧
      ((Layout.plain .up).magnitude decimal).toList = pointed whole fraction := by
  have written := digitsOf_toDigits decimal
  simp only [Layout.magnitude, Layout.plain, toList_toString]
  generalize Nat.toDigits 10 decimal.digits = digits at *
  have nonempty := List.length_pos_of_ne_nil written.nonempty
  simp only [inPlace, Bool.false_eq_true, if_false, String.append_empty]
  split_ifs with small short
  · -- Zeros between the point and the first digit.
    refine ⟨_, _, @DigitsOf.writtenOut_below _ _ (-(decimal.exponent + digits.length - 1) - 1).toNat written (by omega), ?_⟩
    simp [pointed, toList_zeros, written.nonempty]
  · -- Zeros behind the last digit.
    refine ⟨_, _, written.writtenOut_above regular (show decimal.exponent =
      ((decimal.exponent + digits.length - 1).toNat + 1 - digits.length : ℕ) by omega), ?_⟩
    simp [pointed, toList_zeros]
  · -- The point stands between two digits.
    refine ⟨_, _, @DigitsOf.writtenOut_between _ _ (decimal.exponent + digits.length - 1).toNat written
      (by omega) (by omega), ?_⟩
    have behind : digits.drop ((decimal.exponent + digits.length - 1).toNat + 1) ≠ [] := by
      simpa using short
    rw [pointed, if_neg behind]
    simp

end InPlace

/-- The rationals that round to a number other than zero are positive. -/
theorem shortest_digits_ne_zero {tie : Tie} {value : Binary64} (nonzero : value.mantissa ≠ 0) :
    (shortest tie value).digits ≠ 0 := by
  intro none
  obtain ⟨low, -⟩ := @covers_shortest _ tie nonzero
  have power := two_zpow_pos value.exponent
  have atLeast : (1 : ℚ) ≤ value.mantissa := by exact_mod_cast Nat.one_le_iff_ne_zero.mpr nonzero
  have half : value.below ≤ 1 / 2 := by
    unfold Binary64.below
    split_ifs <;> norm_num
  rw [Scaled.toRat, none] at low
  simp only [Nat.cast_zero, zero_mul] at low
  rcases low with low | ⟨-, low⟩ <;> nlinarith

theorem shortest_of_mantissa_zero {tie : Tie} {value : Binary64} (zero : value.mantissa = 0) :
    shortest tie value = ⟨0, 0⟩ := by
  simp [shortest, Binary64.isZero, zero]

/-- The text of a number, with digits that round to it. -/
theorem exists_digits (value : Binary64) :
    ∃ whole fraction, WrittenOut (shortest .up value) whole fraction ∧
      ((Layout.plain .up).render value).toList =
        (if value.negative then ['-'] else []) ++ pointed whole fraction := by
  have regular : (shortest .up value).digits ≠ 0 ∨ (shortest .up value).exponent = 0 := by
    by_cases zero : value.mantissa = 0
    · exact .inr (by rw [shortest_of_mantissa_zero zero])
    · exact .inl (shortest_digits_ne_zero zero)
  obtain ⟨whole, fraction, written, text⟩ := exists_writtenOut regular
  refine ⟨whole, fraction, written, ?_⟩
  unfold Layout.render
  rw [String.toList_append, ← text]
  cases value.negative <;> rfl

/-- The digits of a decimal that a number covers read back to it. -/
theorem WrittenOut.ofRatio? {value : Binary64} {decimal : Scaled} {whole fraction : List Char}
    (written : WrittenOut decimal whole fraction) (covers : value.Covers decimal.toRat)
    (nonzero : decimal.digits ≠ 0) :
    Binary64.ofRatio? value.negative (digitsValue (whole ++ fraction)) (10 ^ fraction.length) =
      some value := by
  have power : (0 : ℚ) < 10 ^ fraction.length := by positivity
  have ratio : ((digitsValue (whole ++ fraction) : ℕ) : ℚ) / ((10 ^ fraction.length : ℕ) : ℚ) =
      decimal.toRat := by
    rw [written.value]
    push_cast
    field_simp
  refine Binary64.Covers.ofRatio? (ratio ▸ covers) (by positivity) ?_
  intro zero
  have := written.value
  rw [zero, Nat.cast_zero, eq_comm, mul_eq_zero, Scaled.toRat, mul_eq_zero] at this
  rcases this with (digits | tens) | tens
  · exact nonzero (by exact_mod_cast digits)
  · exact (ten_zpow_pos _).ne' tens
  · exact power.ne' tens

end TypedClient.Decimal
