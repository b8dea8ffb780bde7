import Mathlib.Data.List.Induction
import Mathlib.Data.String.Basic
import TypedClient.Proofs.GraphQl.Readers
import TypedClient.Proofs.GraphQl.Scanning

/-! Constant values as tokens. -/

set_option autoImplicit false

namespace TypedClient.GraphQl.Definitions

instance : Inhabited Value := ⟨.null⟩

section Tokens

mutual

def Value.tokens : Value → List Token
  | .variable name => [.mark '$', .name name]
  | .integer value => [.integer value]
  | .number value => [.number value]
  | .text value => [.text value]
  | .boolean value => [.name (if value then "true" else "false")]
  | .null => [.name "null"]
  | .symbol name => [.name name]
  | .list items => .mark '[' :: (Value.itemTokens items ++ [.mark ']'])
  | .object members => .mark '\x7b' :: (Value.memberTokens members ++ [.mark '\x7d'])

def Value.itemTokens : List Value → List Token
  | [] => []
  | item :: rest => item.tokens ++ Value.itemTokens rest

def Value.memberTokens : List (String × Value) → List Token
  | [] => []
  | (name, value) :: rest => .name name :: .mark ':' :: value.tokens ++ Value.memberTokens rest

end

def pairTokens (member : String × Value) : List Token :=
  .name member.1 :: .mark ':' :: member.2.tokens

@[simp] theorem Value.itemTokens_eq (items : List Value) : itemTokens items = items.flatMap tokens := by
  induction items with
  | nil => rfl
  | cons item items ih => rw [itemTokens, ih, List.flatMap_cons]

@[simp] theorem Value.memberTokens_eq (members : List (String × Value)) :
    memberTokens members = members.flatMap pairTokens := by
  induction members with
  | nil => rfl
  | cons member members ih =>
    obtain ⟨name, value⟩ := member
    rw [memberTokens, ih, List.flatMap_cons, pairTokens]

/-- Names by which the members of an object are sorted. -/
def Sorted (members : List (String × Value)) : Prop := (members.map Prod.fst).Pairwise (· < ·)

/-- A value that its tokens stand for: no variable is in it, no word with another meaning is taken
for a symbol, and objects are sorted. -/
inductive Value.Readable : Value → Prop where
  | integer (value : Int) : Readable (.integer value)
  | number (value : Number) : Readable (.number value)
  | text (value : String) : Readable (.text value)
  | boolean (value : Bool) : Readable (.boolean value)
  | null : Readable .null
  | symbol {name : String} : symbolValue name = .symbol name → Readable (.symbol name)
  | list {items : List Value} : (∀ item ∈ items, Readable item) → Readable (.list items)
  | object {members : List (String × Value)} : Sorted members →
      (∀ member ∈ members, Readable member.2) → Readable (.object members)

end Tokens

section Sorting

theorem insertMember_last {name : String} {value : Value} {members : List (String × Value)}
    (last : ∀ member ∈ members, member.1 < name) :
    insertMember name value members = members ++ [(name, value)] := by
  induction members with
  | nil => rfl
  | cons member members ih =>
    obtain ⟨other, old⟩ := member
    obtain ⟨before, others⟩ := List.forall_mem_cons.mp last
    rw [insertMember, if_neg (ne_of_gt before), if_neg (not_lt_of_gt before), ih others,
      List.cons_append]

theorem sortedMembers_append (members : List (String × Value)) (last : String × Value) :
    sortedMembers (members ++ [last]) = insertMember last.1 last.2 (sortedMembers members) := by
  simp [sortedMembers, List.foldl_append]

theorem sortedMembers_of_sorted {members : List (String × Value)} (sorted : Sorted members) :
    sortedMembers members = members := by
  induction members using List.reverseRecOn with
  | nil => rfl
  | append_singleton members member ih =>
    obtain ⟨name, value⟩ := member
    unfold Sorted at sorted
    rw [List.map_append, List.pairwise_append] at sorted
    rw [sortedMembers_append, ih sorted.1, insertMember_last]
    intro other inside
    exact sorted.2.2 other.1 (List.mem_map_of_mem inside) name (by simp)

theorem mem_insertMember {name : String} {value : Value} {members : List (String × Value)}
    {member : String × Value} (inside : member ∈ insertMember name value members) :
    member = (name, value) ∨ member ∈ members := by
  induction members with
  | nil => exact .inl (List.mem_singleton.mp inside)
  | cons first members ih =>
    obtain ⟨other, old⟩ := first
    unfold insertMember at inside
    split_ifs at inside
    · rcases List.mem_cons.mp inside with same | inside
      · exact .inl same
      · exact .inr (List.mem_cons_of_mem _ inside)
    · rcases List.mem_cons.mp inside with same | inside
      · exact .inl same
      · exact .inr inside
    · rcases List.mem_cons.mp inside with same | inside
      · exact .inr (same ▸ List.mem_cons_self)
      · exact (ih inside).imp_right (List.mem_cons_of_mem _)

theorem mem_sortedMembers {members : List (String × Value)} {member : String × Value}
    (inside : member ∈ sortedMembers members) : member ∈ members := by
  induction members using List.reverseRecOn with
  | nil => exact inside
  | append_singleton members last ih =>
    rw [sortedMembers_append] at inside
    rcases mem_insertMember inside with same | inside
    · rw [same]
      exact List.mem_append_right _ List.mem_cons_self
    · exact List.mem_append_left _ (ih inside)

theorem sorted_cons {member : String × Value} {members : List (String × Value)} :
    Sorted (member :: members) ↔ (∀ other ∈ members, member.1 < other.1) ∧ Sorted members := by
  simp [Sorted]

theorem sorted_insertMember {name : String} {value : Value} {members : List (String × Value)}
    (sorted : Sorted members) : Sorted (insertMember name value members) := by
  induction members with
  | nil => exact List.pairwise_singleton _ _
  | cons first members ih =>
    obtain ⟨other, old⟩ := first
    obtain ⟨before, sorted'⟩ := sorted_cons.mp sorted
    unfold insertMember
    split_ifs with same less
    · subst same
      exact sorted_cons.mpr ⟨before, sorted'⟩
    · refine sorted_cons.mpr ⟨?_, sorted⟩
      intro member inside
      rcases List.mem_cons.mp inside with rfl | inside
      · exact less
      · exact less.trans (before member inside)
    · refine sorted_cons.mpr ⟨?_, ih sorted'⟩
      intro member inside
      rcases mem_insertMember inside with rfl | inside
      · exact lt_of_le_of_ne (not_lt.mp less) (Ne.symm same)
      · exact before member inside

theorem sorted_sortedMembers (members : List (String × Value)) : Sorted (sortedMembers members) := by
  induction members using List.reverseRecOn with
  | nil => exact List.Pairwise.nil
  | append_singleton members last ih =>
    rw [sortedMembers_append]
    exact sorted_insertMember ih

end Sorting

section Reading
variable {value : Value}

theorem Value.Readable.begins (readable : value.Readable) {closing : Char}
    (isClosing : isClosing closing = true) : Begins anywhere closing value.tokens := by
  cases readable with
  | list _ =>
    refine ⟨.mark '[', _, rfl, ?_, fun _ => rfl⟩
    rintro ⟨⟩
    exact absurd isClosing (by decide)
  | object _ _ =>
    refine ⟨.mark '\x7b', _, rfl, ?_, fun _ => rfl⟩
    rintro ⟨⟩
    exact absurd isClosing (by decide)
  | _ => exact ⟨_, [], rfl, by simp, fun _ => rfl⟩

theorem readPair_eq {item : Reader Value} {member : String × Value}
    (reads : Reads anywhere item member.2.tokens member.2) :
    Reads anywhere (do
      let name ← Reader.name
      Reader.mark ':'
      return (name, ← item)) (pairTokens member) member := by
  intro rest _
  rw [pairTokens, List.cons_append, List.cons_append, bind_eq (name_eq _ _), bind_eq (mark_eq _),
    bind_eq (reads rest rfl)]
  rfl

theorem length_le_of_mem {ι : Type} {items : List ι} {item : ι} (tokensOf : ι → List Token)
    (member : item ∈ items) : (tokensOf item).length ≤ (items.flatMap tokensOf).length := by
  obtain ⟨first, rest, rfl⟩ := List.append_of_mem member
  simp only [List.flatMap_append, List.flatMap_cons, List.length_append]
  omega

theorem readValue_eq (readable : value.Readable) (withVariables : Bool) {limit : Nat}
    (enough : value.tokens.length < limit) :
    Reads anywhere (readValue withVariables limit) value.tokens value := by
  induction readable generalizing limit with
  | boolean value =>
    obtain ⟨limit, rfl⟩ := Nat.exists_eq_add_of_lt enough
    intro rest _
    cases value <;> rfl
  | symbol proper =>
    obtain ⟨limit, rfl⟩ := Nat.exists_eq_add_of_lt enough
    intro rest _
    exact congrArg (fun value => some (value, rest)) proper
  | @list items readable ih =>
    obtain ⟨limit, rfl⟩ := Nat.exists_eq_add_of_le' (Nat.lt_of_le_of_lt (Nat.zero_le _) enough)
    intro rest _
    rw [Value.tokens, Value.itemTokens_eq] at enough ⊢
    simp only [List.length_cons, List.length_append, List.length_nil] at enough
    have each : ∀ item ∈ items, Reads anywhere (readValue withVariables limit) item.tokens item := by
      intro item member
      have short := length_le_of_mem Value.tokens member
      exact ih item member (by omega)
    have begins : ∀ item ∈ items, Begins anywhere ']' item.tokens :=
      fun item member => (readable item member).begins rfl
    have read := enclosed_eq '[' each begins (fun _ => rfl) rest
    rw [List.cons_append, List.append_assoc, List.singleton_append, readValue,
      bind_eq (peek?_eq _)]
    simp only [List.head?_cons]
    rw [bind_eq read, List.map_id']
    rfl
  | @object members sorted readable ih =>
    obtain ⟨limit, rfl⟩ := Nat.exists_eq_add_of_le' (Nat.lt_of_le_of_lt (Nat.zero_le _) enough)
    intro rest _
    rw [Value.tokens, Value.memberTokens_eq] at enough ⊢
    simp only [List.length_cons, List.length_append, List.length_nil] at enough
    have each : ∀ member ∈ members, Reads anywhere (do
        let name ← Reader.name
        Reader.mark ':'
        return (name, ← readValue withVariables limit)) (pairTokens member) member := by
      intro member inside
      have short := length_le_of_mem pairTokens inside
      simp only [pairTokens, List.length_cons] at short
      exact readPair_eq (ih member inside (by omega))
    have begins : ∀ member ∈ members, Begins anywhere '\x7d' (pairTokens member) := by
      intro member inside
      exact ⟨.name member.1, _, rfl, by simp, fun _ => rfl⟩
    have read := enclosed_eq '\x7b' each begins (fun _ => rfl) rest
    rw [List.cons_append, List.append_assoc, List.singleton_append, readValue,
      bind_eq (peek?_eq _)]
    simp only [List.head?_cons]
    rw [bind_eq read, List.map_id', sortedMembers_of_sorted sorted]
    rfl
  | _ =>
    obtain ⟨limit, rfl⟩ := Nat.exists_eq_add_of_lt enough
    intro rest _
    rfl

theorem constant_eq (readable : value.Readable) : Reads anywhere constant value.tokens value := by
  intro rest _
  unfold constant
  rw [bind_eq (remaining_eq _)]
  exact readValue_eq readable false (by rw [List.length_append]; omega) rest rfl

end Reading

end TypedClient.GraphQl.Definitions
