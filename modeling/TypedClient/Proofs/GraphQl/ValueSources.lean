import TypedClient.Proofs.Decimal.Layout
import TypedClient.Proofs.GraphQl.TextLiterals
import TypedClient.Proofs.GraphQl.Values

/-! The source text of constant values as tokens.

Values of most kinds are read back as they were. Texts with characters that have to be coded are
read back as other texts, and a number as an integer if it is whole; numbers whose text is no number
are the only ones that cannot be read back.
-/

set_option autoImplicit false

namespace TypedClient.GraphQl.Definitions

open Decimal (Binary64 Layout WrittenOut pointed)
open Text (digitsValue)

section Numerals
variable {whole fraction : List Char} {decimal : Decimal.Scaled}

theorem endsNumber_of_inside {c : Char} (inside : c.isDigit = true ∨ c = '.') :
    endsNumber c = false := by
  rcases inside with digit | rfl
  · cases ended : endsNumber c with
    | false => rfl
    | true =>
      have other := nameChar_of_endsNumber ended
      simp [isNameChar, Char.isAlphanum, digit] at other
  · decide

/-- Digits with a sign and a point are one token, or what stands for none. -/
theorem spelled_digits (indent : Nat) (negative : Bool) (written : WrittenOut decimal whole fraction) :
    Spelled indent ((if negative then ['-'] else []) ++ pointed whole fraction)
      [(number? ((if negative then ['-'] else []) ++ pointed whole fraction)).getD noToken] := by
  obtain ⟨c, rest, begins, isFirst, inside⟩ :=
    Decimal.exists_first negative written.nonempty written.wholeDigits written.fractionDigits
  rw [begins]
  refine .of_one_line ?_ ?_
  · intro member
    rcases List.mem_cons.mp member with rfl | member
    · exact absurd isFirst (by decide)
    · exact absurd (inside _ member) (by decide)
  · intro behind stopped
    rw [lexAll_number isFirst (fun d member => endsNumber_of_inside (inside d member)) stopped]
    rfl

theorem isWhole_of_leading (leading : whole = ['0'] ∨ ∃ c rest, whole = c :: rest ∧ c ≠ '0') :
    isWhole whole = true := by
  rcases leading with rfl | ⟨c, rest, rfl, other⟩
  · rfl
  · rw [isWhole]
    · simp
    · rintro rest' ⟨⟩
      exact other rfl

theorem number?_unsigned {text : List Char} (unsigned : ∀ rest, text ≠ '-' :: rest) :
    number? text =
      if isWhole (text.takeWhile Char.isDigit) then
        numberTail? false (text.takeWhile Char.isDigit) (text.dropWhile Char.isDigit)
      else none := by
  cases text with
  | nil => rfl
  | cons c rest => simp [number?]

theorem number?_pointed (negative : Bool) (written : WrittenOut decimal whole fraction) :
    number? ((if negative then ['-'] else []) ++ pointed whole fraction) =
      numberTail? negative whole (if fraction = [] then [] else '.' :: fraction) := by
  have taken := takeWhile_append_stop (if fraction = [] then [] else '.' :: fraction)
    written.wholeDigits (by split_ifs <;> simp)
  have isWhole := isWhole_of_leading written.leading
  cases negative with
  | true => simp [number?, pointed, taken, isWhole]
  | false =>
    have unsigned : ∀ rest, pointed whole fraction ≠ '-' :: rest := by
      intro rest same
      obtain ⟨first, others, begins⟩ := List.exists_cons_of_ne_nil written.nonempty
      have digit := written.wholeDigits first (begins ▸ List.mem_cons_self)
      rw [pointed, begins] at same
      cases same
      exact absurd digit (by decide)
    simp only [Bool.false_eq_true, if_false, List.nil_append]
    rw [number?_unsigned unsigned]
    simp [pointed, taken, isWhole]

/-- A whole number is read as an integer, if that has no more than 64 bits. -/
theorem number?_whole (negative : Bool) (written : WrittenOut decimal whole []) :
    number? ((if negative then ['-'] else []) ++ whole) =
      let value : Int := if negative then -(digitsValue whole : Int) else digitsValue whole
      if -0x8000000000000000 ≤ value ∧ value < 0x8000000000000000 then some (.integer value)
      else none := by
  have read := number?_pointed negative written
  simpa [pointed, numberTail?] using read

theorem spelled_integer (indent : Nat) {value : Int} (atLeast : -0x8000000000000000 ≤ value)
    (below : value < 0x8000000000000000) :
    Spelled indent (toString value).toList [.integer value] := by
  have leading : Nat.toDigits 10 value.natAbs = ['0'] ∨
      ∃ c rest, Nat.toDigits 10 value.natAbs = c :: rest ∧ c ≠ '0' := by
    by_cases zero : value.natAbs = 0
    · rw [zero]
      exact .inl rfl
    · exact .inr (Text.toDigits_leading zero)
  have written : WrittenOut ⟨value.natAbs, 0⟩ (Nat.toDigits 10 value.natAbs) [] :=
    ⟨fun c member => Text.isDigit_of_mem_toDigits member, by simp, leading, by
      simp [Text.digitsValue_toDigits, Decimal.Scaled.toRat]⟩
  have spelled := spelled_digits indent (decide (value < 0)) written
  have same : (if decide (value < 0) = true then -(value.natAbs : Int) else value.natAbs) = value := by
    simp only [decide_eq_true_eq]
    split_ifs <;> omega
  simp only [pointed, if_true, List.append_nil, number?_whole _ written,
    Text.digitsValue_toDigits, same, if_pos (And.intro atLeast below), Option.getD_some] at spelled
  rwa [Text.toList_intToString]

/-- A number whose text is one: finite and below `2 ^ 63`. The positive infinity is written as a
name. -/
def Number.Printable : Number → Prop
  | .finite value => value.size < 2 ^ 63
  | .infinite negative => negative = false

theorem toRat_shortest_lt {value : Binary64} (small : value.size < 2 ^ 63) :
    (Decimal.shortest .up value).toRat < 2 ^ 63 := by
  by_cases zero : value.mantissa = 0
  · rw [Decimal.shortest_of_mantissa_zero zero]
    norm_num [Decimal.Scaled.toRat]
  · exact (Decimal.covers_shortest zero).lt_two_pow (by norm_num) small

theorem number?_ne_none {value : Binary64}
    (written : WrittenOut (Decimal.shortest .up value) whole fraction) (small : value.size < 2 ^ 63) :
    number? ((if value.negative then ['-'] else []) ++ pointed whole fraction) ≠ none := by
  by_cases empty : fraction = []
  · subst empty
    have bound : digitsValue whole < 2 ^ 63 := by
      have same := written.value
      simp only [List.append_nil, List.length_nil, pow_zero, mul_one] at same
      have below := toRat_shortest_lt small
      rw [← same] at below
      exact_mod_cast below
    have range : -0x8000000000000000 ≤
        (if value.negative then -(digitsValue whole : Int) else digitsValue whole) ∧
        (if value.negative then -(digitsValue whole : Int) else digitsValue whole) <
          0x8000000000000000 := by
      split_ifs <;> omega
    have read := number?_whole value.negative written
    simp only [if_pos range] at read
    simp [pointed, read]
  · have digits := takeWhile_append_stop [] written.fractionDigits (by simp)
    rw [List.append_nil] at digits
    simp [number?_pointed _ written, empty, numberTail?, digits]

/-- The text of a number is read as a number, an integer or a name, or stands for no token. -/
theorem exists_spelled_number (indent : Nat) (value : Number) :
    ∃ again : Value, Spelled indent value.text.toList again.tokens ∧ again.Readable ∧
      (value.Printable → Balanced 0 again.tokens) := by
  cases value with
  | infinite negative =>
    -- The positive infinity is spelled like a name, the negative one like no token.
    cases negative with
    | false =>
      have legal : isName "inf" = true := by decide
      exact ⟨.symbol "inf", .name legal, .symbol (by simp [symbolValue]),
        fun _ => .literal (by simp) (by decide) .nil⟩
    | true =>
      refine ⟨.symbol "", .of_one_line (by decide) ?_, .symbol (by simp [symbolValue]), fun printable => ?_⟩
      · intro rest stopped
        have inside : ∀ d ∈ "inf".toList, endsNumber d = false := by
          have all : ("inf".toList.all fun d => !endsNumber d) = true := by decide
          simpa using List.all_eq_true.mp all
        exact lexAll_number (.inr rfl) inside stopped
      · cases printable
  | finite value =>
    obtain ⟨whole, fraction, written, text⟩ := Decimal.exists_digits value
    have spelled := spelled_digits indent value.negative written
    rw [← text] at spelled
    cases read : number? ((Layout.plain .up).render value).toList with
    | none =>
      rw [read] at spelled
      refine ⟨.symbol "", spelled, .symbol (by simp [symbolValue]), fun printable => ?_⟩
      rw [text] at read
      exact absurd read (number?_ne_none written printable)
    | some token =>
      rw [read] at spelled
      have numeral := isNumeral_of_number? read
      cases token with
      | integer value =>
        exact ⟨.integer value, spelled, .integer value,
          fun _ => .literal (by simp) (by simp [noToken]) .nil⟩
      | number value =>
        exact ⟨.number value, spelled, .number value,
          fun _ => .literal (by simp) (by simp [noToken]) .nil⟩
      | _ => exact absurd numeral (fun impossible => impossible)

end Numerals

@[simp] theorem Value.sources_eq_map (items : List Value) : sources items = items.map source := by
  induction items with
  | nil => rfl
  | cons item items ih => rw [sources, ih, List.map_cons]

def memberSource (member : String × Value) : String := member.1 ++ ": " ++ member.2.source

@[simp] theorem Value.memberSources_eq_map (members : List (String × Value)) :
    memberSources members = members.map memberSource := by
  induction members with
  | nil => rfl
  | cons member members ih =>
    obtain ⟨name, value⟩ := member
    rw [memberSources, ih, List.map_cons, memberSource]

/-- A constant, nested at most `room` deep, with certain texts and numbers in it only. -/
inductive Value.Sound (texts : String → Prop) (numbers : Number → Prop) : Nat → Value → Prop where
  | integer {room : Nat} {value : Int} : -0x8000000000000000 ≤ value →
      value < 0x8000000000000000 → Sound texts numbers room (.integer value)
  | number {room : Nat} {value : Number} : numbers value → Sound texts numbers room (.number value)
  | text {room : Nat} {value : String} : texts value → Sound texts numbers room (.text value)
  | boolean {room : Nat} (value : Bool) : Sound texts numbers room (.boolean value)
  | null {room : Nat} : Sound texts numbers room .null
  | symbol {room : Nat} {name : String} : isName name = true → symbolValue name = .symbol name →
      Sound texts numbers room (.symbol name)
  | list {room : Nat} {items : List Value} : (∀ item ∈ items, Sound texts numbers room item) →
      Sound texts numbers (room + 1) (.list items)
  | object {room : Nat} {members : List (String × Value)} : Sorted members →
      (∀ member ∈ members, isName member.1 = true) →
      (∀ member ∈ members, Sound texts numbers room member.2) →
      Sound texts numbers (room + 1) (.object members)

inductive Value.Has : Value → Number → Prop where
  | self (value : Number) : Has (.number value) value
  | item {item : Value} {items : List Value} {value : Number} : item ∈ items → Has item value →
      Has (.list items) value
  | member {member : String × Value} {members : List (String × Value)} {value : Number} :
      member ∈ members → Has member.2 value → Has (.object members) value

section Compound
variable {indent room : Nat} {items : List Value} {members : List (String × Value)}

theorem spelled_list (again : Value → Value)
    (each : ∀ item ∈ items, Spelled indent item.source.toList (again item).tokens) :
    Spelled indent (Value.list items).source.toList (Value.list (items.map again)).tokens := by
  rw [Value.source, Value.sources_eq_map, Value.tokens, Value.itemTokens_eq, List.flatMap_map,
    String.toList_append, String.toList_append, List.append_assoc]
  exact .mark rfl ((Spelled.join each).append (.mark rfl .nil) rfl)

theorem spelled_object (again : String × Value → Value)
    (legal : ∀ member ∈ members, isName member.1 = true)
    (each : ∀ member ∈ members, Spelled indent member.2.source.toList (again member).tokens) :
    Spelled indent (Value.object members).source.toList
      (Value.object (members.map fun member => (member.1, again member))).tokens := by
  have pairs : ∀ member ∈ members, Spelled indent (memberSource member).toList
      (pairTokens (member.1, again member)) := by
    intro member inside
    rw [memberSource, String.toList_append, String.toList_append, List.append_assoc]
    exact (Spelled.name (legal member inside)).append
      (.mark rfl (.blank rfl (by decide) (each member inside))) rfl
  rw [Value.source, Value.memberSources_eq_map, Value.tokens, Value.memberTokens_eq,
    List.flatMap_map, String.toList_append, String.toList_append, List.append_assoc]
  exact .mark rfl ((Spelled.join pairs).append (.mark rfl .nil) rfl)

theorem sorted_map {again : String × Value → Value} (sorted : Sorted members) :
    Sorted (members.map fun member => (member.1, again member)) := by
  unfold Sorted at sorted ⊢
  rwa [List.map_map]

theorem balanced_list (each : ∀ item ∈ items, Balanced room item.tokens) :
    Balanced (room + 1) (Value.list items).tokens := by
  rw [Value.tokens, Value.itemTokens_eq]
  exact .brackets rfl rfl rfl (.flatMap each)

theorem balanced_object (legal : ∀ member ∈ members, isName member.1 = true)
    (each : ∀ member ∈ members, Balanced room member.2.tokens) :
    Balanced (room + 1) (Value.object members).tokens := by
  have pairs : ∀ member ∈ members, Balanced room (pairTokens member) := by
    intro member inside
    exact .literal (by simp) (name_ne_noToken (legal member inside))
      (.mark rfl rfl (each member inside))
  rw [Value.tokens, Value.memberTokens_eq]
  exact .brackets rfl rfl rfl (.flatMap pairs)

end Compound

/-- The source of a constant is read as some constant. If each of its numbers has a text that is
one, all its tokens are some. -/
theorem Value.Sound.exists_spelled {texts : String → Prop} {numbers : Number → Prop} {room : Nat}
    {value : Value} (sound : value.Sound texts numbers room) (indent : Nat) :
    ∃ again : Value, Spelled indent value.source.toList again.tokens ∧ again.Readable ∧
      ((∀ number, value.Has number → number.Printable) → Balanced room again.tokens) := by
  -- Texts and numbers may come back as others, so what is read again need not be the value itself.
  induction sound with
  | integer atLeast below =>
    exact ⟨.integer _, spelled_integer indent atLeast below, .integer _,
      fun _ => .literal (by simp) (by simp [noToken]) .nil⟩
  | @number room value _ =>
    obtain ⟨again, spelled, readable, balanced⟩ := exists_spelled_number indent value
    exact ⟨again, spelled, readable, fun printable =>
      (balanced (printable value (.self value))).mono (Nat.zero_le _)⟩
  | @text room value _ =>
    obtain ⟨text, spelled⟩ := exists_spelled_valueText indent value
    exact ⟨.text text, spelled, .text text, fun _ => .literal (by simp) (by simp [noToken]) .nil⟩
  | boolean value =>
    refine ⟨.boolean value, ?_, .boolean value, fun _ => .literal (by simp) ?_ .nil⟩
    · cases value
      · exact @Spelled.name indent "false" (by decide)
      · exact @Spelled.name indent "true" (by decide)
    · cases value <;> decide
  | null =>
    exact ⟨.null, @Spelled.name indent "null" (by decide), .null,
      fun _ => .literal (by simp) (by decide) .nil⟩
  | @symbol room name legal proper =>
    exact ⟨.symbol name, .name legal, .symbol proper,
      fun _ => .literal (by simp) (name_ne_noToken legal) .nil⟩
  | @list room items _ ih =>
    choose! again spelled readable balanced using ih
    refine ⟨.list (items.map again), spelled_list again spelled, .list ?_, fun printable => ?_⟩
    · exact List.forall_mem_map.mpr readable
    · refine balanced_list ?_
      simp only [List.forall_mem_map]
      exact fun item inside => balanced item inside fun number has => printable number (.item inside has)
  | @object room members sorted legal _ ih =>
    choose! again spelled readable balanced using ih
    refine ⟨.object (members.map fun member => (member.1, again member)), spelled_object again legal spelled,
      .object (sorted_map sorted) ?_, fun printable => balanced_object ?_ ?_⟩
    · exact List.forall_mem_map.mpr readable
    · exact List.forall_mem_map.mpr legal
    · simp only [List.forall_mem_map]
      exact fun member inside => balanced member inside fun number has =>
        printable number (.member inside has)

def PlainText (text : String) : Prop := ∀ c ∈ text.toList, isPlain c = true

/-- A constant of plain texts, without numbers other than integers, is read back as it was. -/
theorem Value.Sound.spelled {room : Nat} {value : Value}
    (sound : value.Sound PlainText (fun _ => False) room) (indent : Nat) :
    Spelled indent value.source.toList value.tokens ∧ value.Readable ∧ Balanced room value.tokens := by
  induction sound with
  | integer atLeast below =>
    exact ⟨spelled_integer indent atLeast below, .integer _,
      .literal (by simp) (by simp [noToken]) .nil⟩
  | number impossible => exact impossible.elim
  | @text room value plain =>
    exact ⟨spelled_valueText_of_plain indent plain, .text value,
      .literal (by simp) (by simp [noToken]) .nil⟩
  | boolean value =>
    refine ⟨?_, .boolean value, .literal (by simp) ?_ .nil⟩
    · cases value
      · exact @Spelled.name indent "false" (by decide)
      · exact @Spelled.name indent "true" (by decide)
    · cases value <;> decide
  | null => exact ⟨@Spelled.name indent "null" (by decide), .null, .literal (by simp) (by decide) .nil⟩
  | @symbol room name legal proper =>
    exact ⟨.name legal, .symbol proper, .literal (by simp) (name_ne_noToken legal) .nil⟩
  | @list room items _ ih =>
    have spelled := spelled_list id fun item inside => (ih item inside).1
    rw [List.map_id] at spelled
    exact ⟨spelled, .list fun item inside => (ih item inside).2.1,
      balanced_list fun item inside => (ih item inside).2.2⟩
  | @object room members sorted legal _ ih =>
    have spelled := spelled_object Prod.snd legal fun member inside => (ih member inside).1
    rw [List.map_id'] at spelled
    exact ⟨spelled, .object sorted fun member inside => (ih member inside).2.1,
      balanced_object legal fun member inside => (ih member inside).2.2⟩

end TypedClient.GraphQl.Definitions
