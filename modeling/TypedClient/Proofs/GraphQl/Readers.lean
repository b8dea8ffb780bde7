import TypedClient.GraphQl.Definitions.Reader

/-! Readers that take exactly the tokens of what they read.

A reader looks at no more than one token behind what it takes, so what it reads depends on the rest
only by its first token.
-/

set_option autoImplicit false

namespace TypedClient.GraphQl.Definitions

variable {α β : Type}

section Steps
variable {reader : Reader α} {next : α → Reader β} {tokens rest : List Token} {value : α} {c : Char}

theorem bind_eq (read : reader tokens = some (value, rest)) :
    (reader >>= next) tokens = next value rest := by
  change (reader tokens).bind _ = _
  rw [read]
  rfl

theorem bind_eq_none (read : reader tokens = none) : (reader >>= next) tokens = none := by
  change (reader tokens).bind _ = _
  rw [read]
  rfl

theorem pure_eq (value : α) (tokens : List Token) :
    (pure value : Reader α) tokens = some (value, tokens) := rfl

theorem remaining_eq (tokens : List Token) :
    Reader.remaining tokens = some (tokens.length, tokens) := rfl

theorem peek?_eq (tokens : List Token) :
    Reader.peek? tokens = some (tokens.head?, tokens) := rfl

theorem skip_mark (rest : List Token) : Reader.skip c (.mark c :: rest) = some (true, rest) := by
  simp [Reader.skip]

theorem skip_other (other : tokens.head? ≠ some (.mark c)) :
    Reader.skip c tokens = some (false, tokens) := by
  unfold Reader.skip
  split
  case h_1 d rest =>
    have different : c ≠ d := by
      rintro rfl
      exact other rfl
    rw [if_neg different]
  case h_2 => rfl

theorem mark_eq (rest : List Token) : Reader.mark c (.mark c :: rest) = some ((), rest) := by
  simp [Reader.mark]

theorem name_eq (name : String) (rest : List Token) :
    Reader.name (.name name :: rest) = some (name, rest) := rfl

end Steps

/-- The reader takes these tokens, whatever comes behind them, if it may stop there. -/
def Reads (stop : List Token → Bool) (reader : Reader α) (tokens : List Token) (value : α) : Prop :=
  ∀ rest, stop rest = true → reader (tokens ++ rest) = some (value, rest)

def anywhere (_ : List Token) : Bool := true

def ends : List Token → Bool
  | .mark c :: _ => isClosing c
  | _ => true

section Lists
variable {ι : Type} {stop : List Token → Bool} {item : Reader α} {items : List ι}
  {tokensOf : ι → List Token} {valueOf : ι → α} {opening closing separator : Char}

/-- An item begins with a token before which other items may end, and the list does not. -/
def Begins (stop : List Token → Bool) (closing : Char) (tokens : List Token) : Prop :=
  ∃ first more, tokens = first :: more ∧ first ≠ .mark closing ∧
    ∀ rest, stop (first :: rest) = true

theorem untilMark_eq (each : ∀ one ∈ items, Reads stop item (tokensOf one) (valueOf one))
    (begins : ∀ one ∈ items, Begins stop closing (tokensOf one))
    (closes : ∀ rest, stop (.mark closing :: rest) = true) {limit : Nat} (enough : items.length < limit)
    (rest : List Token) :
    Reader.untilMark closing item limit (items.flatMap tokensOf ++ .mark closing :: rest) =
      some (items.map valueOf, rest) := by
  induction items generalizing limit with
  | nil =>
    obtain ⟨limit, rfl⟩ := Nat.exists_eq_add_of_lt enough
    rw [List.flatMap_nil, List.nil_append, Reader.untilMark, bind_eq (skip_mark rest)]
    rfl
  | cons one items ih =>
    obtain ⟨limit, rfl⟩ := Nat.exists_eq_add_of_lt enough
    obtain ⟨first, others⟩ := List.forall_mem_cons.mp each
    obtain ⟨⟨token, more, same, other, _⟩, begins⟩ := List.forall_mem_cons.mp begins
    -- What follows an item is the closing mark or the first token of the next item.
    have stopped : stop (items.flatMap tokensOf ++ .mark closing :: rest) = true := by
      cases items with
      | nil => exact closes rest
      | cons next items =>
        obtain ⟨token, more, same, -, stopped⟩ := begins next List.mem_cons_self
        rw [List.flatMap_cons, same]
        exact stopped _
    have unclosed : (tokensOf one ++ (items.flatMap tokensOf ++ .mark closing :: rest)).head? ≠
        some (.mark closing) := by
      rw [same]
      simpa using other
    rw [List.flatMap_cons, List.append_assoc, Reader.untilMark, bind_eq (skip_other unclosed)]
    simp only [Bool.false_eq_true, if_false]
    have fewer : items.length < (one :: items).length + limit := by
      rw [List.length_cons]
      omega
    rw [bind_eq (first _ stopped), bind_eq (ih others begins fewer)]
    rfl

theorem Begins.ne_nil {tokens : List Token} (begins : Begins stop closing tokens) : tokens ≠ [] := by
  obtain ⟨first, more, same, -⟩ := begins
  rw [same]
  exact List.cons_ne_nil _ _

theorem length_le_flatMap (nonempty : ∀ one ∈ items, tokensOf one ≠ []) :
    items.length ≤ (items.flatMap tokensOf).length := by
  induction items with
  | nil => exact Nat.le_refl _
  | cons one items ih =>
    obtain ⟨first, others⟩ := List.forall_mem_cons.mp nonempty
    have := ih others
    have := List.length_pos_iff.mpr first
    rw [List.flatMap_cons, List.length_append, List.length_cons]
    omega

theorem enclosed_eq (opening : Char)
    (each : ∀ one ∈ items, Reads stop item (tokensOf one) (valueOf one))
    (begins : ∀ one ∈ items, Begins stop closing (tokensOf one))
    (closes : ∀ rest, stop (.mark closing :: rest) = true) (rest : List Token) :
    Reader.enclosed opening closing item
      (.mark opening :: (items.flatMap tokensOf ++ .mark closing :: rest)) =
      some (items.map valueOf, rest) := by
  have enough := length_le_flatMap fun one member => (begins one member).ne_nil
  unfold Reader.enclosed
  rw [bind_eq (mark_eq _), bind_eq (remaining_eq _)]
  refine untilMark_eq each begins closes ?_ rest
  rw [List.length_append]
  omega

theorem group_eq (opening : Char) (nonempty : items ≠ [])
    (each : ∀ one ∈ items, Reads stop item (tokensOf one) (valueOf one))
    (begins : ∀ one ∈ items, Begins stop closing (tokensOf one))
    (closes : ∀ rest, stop (.mark closing :: rest) = true) (rest : List Token) :
    Reader.group opening closing item
      (.mark opening :: (items.flatMap tokensOf ++ .mark closing :: rest)) =
      some (items.map valueOf, rest) := by
  obtain ⟨one, items, rfl⟩ := List.exists_cons_of_ne_nil nonempty
  obtain ⟨first, others⟩ := List.forall_mem_cons.mp each
  obtain ⟨-, begins⟩ := List.forall_mem_cons.mp begins
  have enough := length_le_flatMap fun one member => (begins one member).ne_nil
  have stopped : stop (items.flatMap tokensOf ++ .mark closing :: rest) = true := by
    cases items with
    | nil => exact closes rest
    | cons next items =>
      obtain ⟨token, more, same, -, stopped⟩ := begins next List.mem_cons_self
      rw [List.flatMap_cons, same]
      exact stopped _
  unfold Reader.group
  rw [bind_eq (skip_mark _)]
  simp only [if_true]
  rw [List.flatMap_cons, List.append_assoc, bind_eq (first _ stopped), bind_eq (remaining_eq _),
    bind_eq (untilMark_eq others begins closes (by rw [List.length_append]; omega) rest)]
  rfl

theorem group_absent {tokens : List Token} (other : tokens.head? ≠ some (.mark opening)) :
    Reader.group opening closing item tokens = some ([], tokens) := by
  unfold Reader.group
  rw [bind_eq (skip_other other)]
  rfl

theorem group_empty {rest : List Token} (fails : item (.mark closing :: rest) = none) :
    Reader.group opening closing item (.mark opening :: .mark closing :: rest) = none := by
  unfold Reader.group
  rw [bind_eq (skip_mark _)]
  simp only [if_true]
  exact bind_eq_none fails

theorem following_eq (separator : Char)
    (each : ∀ one ∈ items, Reads stop item (tokensOf one) (valueOf one))
    (goesOn : ∀ rest, stop (.mark separator :: rest) = true) {limit : Nat}
    (enough : items.length ≤ limit) {rest : List Token} (stopped : stop rest = true)
    (other : rest.head? ≠ some (.mark separator)) :
    Reader.following separator item limit
      (items.flatMap (fun one => .mark separator :: tokensOf one) ++ rest) =
      some (items.map valueOf, rest) := by
  induction items generalizing limit with
  | nil =>
    cases limit with
    | zero => rfl
    | succ limit =>
      rw [List.flatMap_nil, List.nil_append, Reader.following, bind_eq (skip_other other)]
      rfl
  | cons one items ih =>
    obtain ⟨limit, rfl⟩ := Nat.exists_eq_add_of_le' (Nat.le_trans (Nat.succ_pos _) enough)
    rw [List.length_cons] at enough
    obtain ⟨first, others⟩ := List.forall_mem_cons.mp each
    have stopped' :
        stop (items.flatMap (fun one => .mark separator :: tokensOf one) ++ rest) = true := by
      cases items with
      | nil => exact stopped
      | cons next items => exact goesOn _
    rw [List.flatMap_cons, List.append_assoc, List.cons_append, Reader.following,
      bind_eq (skip_mark _)]
    simp only [if_true]
    rw [bind_eq (first _ stopped'), bind_eq (ih others (by omega))]
    rfl

def separatedTokens (separator : Char) (tokensOf : ι → List Token) : List ι → List Token
  | [] => []
  | one :: items =>
    tokensOf one ++ items.flatMap fun one => .mark separator :: tokensOf one

theorem separated_eq (separator : Char) (nonempty : items ≠ [])
    (each : ∀ one ∈ items, Reads stop item (tokensOf one) (valueOf one))
    (begins : ∀ one ∈ items, (tokensOf one).head? ≠ some (.mark separator) ∧ tokensOf one ≠ [])
    (goesOn : ∀ rest, stop (.mark separator :: rest) = true)
    {rest : List Token} (stopped : stop rest = true)
    (other : rest.head? ≠ some (.mark separator)) :
    Reader.separated separator item (separatedTokens separator tokensOf items ++ rest) =
      some (items.map valueOf, rest) := by
  obtain ⟨one, items, rfl⟩ := List.exists_cons_of_ne_nil nonempty
  obtain ⟨first, others⟩ := List.forall_mem_cons.mp each
  obtain ⟨⟨unseparated, real⟩, -⟩ := List.forall_mem_cons.mp begins
  have stopped' :
      stop (items.flatMap (fun one => .mark separator :: tokensOf one) ++ rest) = true := by
    cases items with
    | nil => exact stopped
    | cons next items => exact goesOn _
  have unseparated' : (tokensOf one ++ (items.flatMap (fun one => .mark separator :: tokensOf one) ++
      rest)).head? ≠ some (.mark separator) := by
    obtain ⟨token, more, same⟩ := List.exists_cons_of_ne_nil real
    rw [same] at unseparated ⊢
    exact unseparated
  have enough : items.length ≤
      (items.flatMap (fun one => .mark separator :: tokensOf one) ++ rest).length := by
    have fewer : items.length ≤ (items.flatMap fun one => .mark separator :: tokensOf one).length :=
      length_le_flatMap fun one _ => List.cons_ne_nil _ _
    rw [List.length_append]
    omega
  unfold Reader.separated separatedTokens
  rw [List.append_assoc, bind_eq (skip_other unseparated'), bind_eq (first _ stopped'),
    bind_eq (remaining_eq _), bind_eq (following_eq separator others goesOn enough stopped other)]
  rfl

end Lists

end TypedClient.GraphQl.Definitions
