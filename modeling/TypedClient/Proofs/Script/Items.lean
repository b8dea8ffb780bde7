import TypedClient.Proofs.Script.Accesses

/-! How the items of a page are read as code. -/

set_option autoImplicit false

namespace TypedClient

open Script

variable {first rest body : List Item} {text header suffix : String}
  {tokens more inside begun ended : List Token}

def blockTokens (begun inside ended : List Token) : List Token :=
  begun ++ .mark '\x7b' :: .lineEnd :: (inside ++ .mark '\x7d' :: (ended ++ [.lineEnd]))

theorem Item.tokensOf?_append (found : Item.tokensOf? first = some tokens)
    (others : Item.tokensOf? rest = some more) :
    Item.tokensOf? (first ++ rest) = some (tokens ++ more) := by
  induction first generalizing tokens with
  | nil =>
    cases found
    exact others
  | cons item first ih =>
    simp only [Item.tokensOf?, Option.bind_eq_bind, Option.bind_eq_some_iff] at found
    obtain ⟨own, read, behind, remaining, given⟩ := found
    cases given
    simp [Item.tokensOf?, read, ih remaining]

theorem Item.tokensOf?_line (reads : Reads text tokens) :
    Item.tokensOf? [.line text] = some (tokens ++ [.lineEnd]) := by
  simp [Item.tokensOf?, Item.tokens?, tokens?_of_reads reads]

theorem Item.tokensOf?_blank (found : Item.tokensOf? rest = some tokens) :
    Item.tokensOf? (.blank :: rest) = some tokens := by
  simp [Item.tokensOf?, Item.tokens?, found]

theorem Item.tokensOf?_block (begins : Reads header begun)
    (found : Item.tokensOf? body = some inside) (ends : Reads suffix ended) :
    Item.tokensOf? [.block header body suffix] = some (blockTokens begun inside ended) := by
  simp [Item.tokensOf?, Item.tokens?, tokens?_of_reads begins, tokens?_of_reads ends, found,
    blockTokens]

/-- Items that are read one by one are read in a row. -/
theorem Item.tokensOf?_map {α : Type} {item : α → Item} {read : α → List Token} (subjects : List α)
    (each : ∀ one, Item.tokensOf? [item one] = some (read one)) :
    Item.tokensOf? (subjects.map item) = some (subjects.flatMap read) := by
  induction subjects with
  | nil => rfl
  | cons one rest ih => exact Item.tokensOf?_append (each one) ih

/-- Items end with their lines. -/
theorem Item.eq_nil_or_lineEnd_of_tokensOf? {items : List Item}
    (found : Item.tokensOf? items = some tokens) :
    tokens = [] ∨ ∃ front, tokens = front ++ [.lineEnd] := by
  induction items generalizing tokens with
  | nil =>
    cases found
    exact .inl rfl
  | cons item rest ih =>
    simp only [Item.tokensOf?, Option.bind_eq_bind, Option.bind_eq_some_iff] at found
    obtain ⟨own, read, behind, remaining, given⟩ := found
    cases given
    have last : own = [] ∨ ∃ front, own = front ++ [.lineEnd] := by
      cases item with
      | line text =>
        simp only [Item.tokens?, Option.bind_eq_bind, Option.bind_eq_some_iff] at read
        obtain ⟨front, _, given⟩ := read
        cases given
        exact .inr ⟨front, rfl⟩
      | blank =>
        cases read
        exact .inl rfl
      | block header body suffix =>
        simp only [Item.tokens?, Option.bind_eq_bind, Option.bind_eq_some_iff] at read
        obtain ⟨begun, _, inside, _, ended, _, given⟩ := read
        cases given
        exact .inr ⟨begun ++ .mark '\x7b' :: .lineEnd :: (inside ++ .mark '\x7d' :: ended),
          by simp⟩
    obtain rfl | ⟨front, rfl⟩ := ih remaining
    · rw [List.append_nil]
      exact last
    · exact .inr ⟨own ++ front, (List.append_assoc _ _ _).symm⟩

/-- A reading of tokens that begins anew with each line. -/
structure Linewise {β : Type} (read : List Token → List β) : Prop where
  nil : read [] = []
  append_lineEnd : ∀ first second, read (first ++ .lineEnd :: second) = read first ++ read second

namespace Linewise
variable {β : Type} {read : List Token → List β}

theorem concat (linewise : Linewise read) (tokens : List Token) :
    read (tokens ++ [.lineEnd]) = read tokens := by
  rw [linewise.append_lineEnd, linewise.nil, List.append_nil]

theorem append (linewise : Linewise read) (found : Item.tokensOf? first = some tokens)
    (more : List Token) : read (tokens ++ more) = read tokens ++ read more := by
  obtain rfl | ⟨front, rfl⟩ := Item.eq_nil_or_lineEnd_of_tokensOf? found
  · rw [linewise.nil, List.nil_append, List.nil_append]
  · rw [List.append_assoc, List.singleton_append, linewise.append_lineEnd, linewise.concat]

theorem block (linewise : Linewise read) (found : Item.tokensOf? body = some inside)
    (begun ended : List Token) :
    read (blockTokens begun inside ended) =
      read (begun ++ [.mark '\x7b']) ++ (read inside ++ read (.mark '\x7d' :: ended)) := by
  have spelled : blockTokens begun inside ended = (begun ++ [.mark '\x7b']) ++ .lineEnd ::
      (inside ++ (.mark '\x7d' :: ended ++ [.lineEnd])) := by
    simp [blockTokens]
  rw [spelled, linewise.append_lineEnd, linewise.append found, linewise.concat]

theorem flatMap {α : Type} {item : α → Item} {spell : α → List Token} (linewise : Linewise read)
    (subjects : List α) (each : ∀ one, Item.tokensOf? [item one] = some (spell one)) :
    read (subjects.flatMap spell) = subjects.flatMap fun one => read (spell one) := by
  induction subjects with
  | nil => exact linewise.nil
  | cons one rest ih => rw [List.flatMap_cons, List.flatMap_cons, linewise.append (each one), ih]

end Linewise

theorem linewise_accesses (subject : String) : Linewise (accesses subject) :=
  ⟨rfl, Script.accesses_append rfl⟩

theorem Item.accesses_block (subject : String) (begun inside ended : List Token) :
    accesses subject (blockTokens begun inside ended) =
      accesses subject begun ++ (accesses subject inside ++ accesses subject ended) := by
  unfold blockTokens
  rw [Script.accesses_append rfl, accesses_cons rfl, Script.accesses_append rfl, accesses_concat rfl]

end TypedClient
