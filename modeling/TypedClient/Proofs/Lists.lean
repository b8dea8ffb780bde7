import Mathlib.Data.List.Forall2
import Mathlib.Data.List.Induction

/-! Facts about lists that the proofs share. -/

set_option autoImplicit false

namespace TypedClient

variable {α β : Type}

section Forall₂
variable {related : α → β → Prop} {lefts : List α} {rights : List β}

theorem exists_left_of_forall₂ (pairs : List.Forall₂ related lefts rights) {right : β}
    (member : right ∈ rights) : ∃ left ∈ lefts, related left right := by
  induction pairs with
  | nil => cases member
  | cons pair _ ih =>
    rcases List.mem_cons.mp member with rfl | inside
    · exact ⟨_, List.mem_cons_self, pair⟩
    · obtain ⟨left, listed, pair⟩ := ih inside
      exact ⟨left, List.mem_cons_of_mem _ listed, pair⟩

theorem exists_right_of_forall₂ (pairs : List.Forall₂ related lefts rights) {left : α}
    (member : left ∈ lefts) : ∃ right ∈ rights, related left right :=
  exists_left_of_forall₂ pairs.flip member

/-- It is enough that the relation is transitive from the elements of the first list on. -/
theorem trans_of_forall₂ {related : α → α → Prop} {firsts seconds thirds : List α}
    (each : ∀ first ∈ firsts, ∀ second third, related first second → related second third →
      related first third)
    (pairs : List.Forall₂ related firsts seconds) (others : List.Forall₂ related seconds thirds) :
    List.Forall₂ related firsts thirds := by
  induction pairs generalizing thirds with
  | nil => exact others
  | cons pair _ ih =>
    cases others with
    | cons other rest =>
      obtain ⟨own, more⟩ := List.forall_mem_cons.mp each
      exact .cons (own _ _ pair other) (ih more rest)

theorem forall₂_append_left_iff {more : List α} :
    List.Forall₂ related (lefts ++ more) rights ↔ ∃ first rest, List.Forall₂ related lefts first ∧
      List.Forall₂ related more rest ∧ rights = first ++ rest := by
  constructor
  · intro pairs
    have first := List.forall₂_take_append rights lefts more pairs.flip
    have rest := List.forall₂_drop_append rights lefts more pairs.flip
    exact ⟨_, _, first.flip, rest.flip, (List.take_append_drop _ _).symm⟩
  · rintro ⟨first, rest, each, others, rfl⟩
    exact List.rel_append each others

theorem map_eq_map_of_forall₂ {γ : Type} {f : α → γ} {g : β → γ}
    (pairs : List.Forall₂ (fun left right => f left = g right) lefts rights) :
    lefts.map f = rights.map g := by
  induction pairs with
  | nil => rfl
  | cons same _ ih => rw [List.map_cons, List.map_cons, same, ih]

theorem any_eq_any_of_forall₂ {p : α → Bool} {q : β → Bool}
    (pairs : List.Forall₂ (fun left right => p left = q right) lefts rights) :
    lefts.any p = rights.any q := by
  have values := congrArg (·.any id) (map_eq_map_of_forall₂ pairs)
  simpa only [List.any_map, Function.id_comp] using values

end Forall₂

section Traversal
variable {ε : Type} {f : α → Except ε β} {items : List α} {results : List β}

theorem ok_bind (value : α) (next : α → Except ε β) : Except.ok value >>= next = next value :=
  rfl

theorem bind_eq_ok_iff {first : Except ε α} {result : β} :
    first >>= f = .ok result ↔ ∃ value, first = .ok value ∧ f value = .ok result := by
  cases first with
  | error fault => exact iff_of_false (by rintro ⟨⟩) (by rintro ⟨_, ⟨⟩, _⟩)
  | ok value =>
    constructor
    · exact fun given => ⟨value, rfl, given⟩
    · rintro ⟨_, ⟨⟩, given⟩
      exact given

theorem bind_eq_error_iff {first : Except ε α} {fault : ε} :
    first >>= f = .error fault ↔
      first = .error fault ∨ ∃ value, first = .ok value ∧ f value = .error fault := by
  cases first with
  | error other => simp [bind, Except.bind]
  | ok value => simp [bind, Except.bind]

theorem toOption_eq_some_iff {outcome : Except ε α} {value : α} :
    outcome.toOption = some value ↔ outcome = .ok value := by
  cases outcome <;> simp [Except.toOption]

theorem mapM_congr {m : Type → Type} [Monad m] [LawfulMonad m] {f g : α → m β}
    (same : ∀ item ∈ items, f item = g item) : items.mapM f = items.mapM g := by
  induction items with
  | nil => rfl
  | cons item rest ih =>
    obtain ⟨own, others⟩ := List.forall_mem_cons.mp same
    rw [List.mapM_cons, List.mapM_cons, own, ih others]

theorem mapM_eq_ok_iff :
    items.mapM f = .ok results ↔
      List.Forall₂ (fun item result => f item = .ok result) items results := by
  induction items generalizing results with
  | nil =>
    rw [List.mapM_nil, List.forall₂_nil_left_iff]
    exact ⟨fun given => (Except.ok.inj given).symm, fun empty => by rw [empty]; rfl⟩
  | cons item rest ih =>
    rw [List.mapM_cons, bind_eq_ok_iff]
    simp only [bind_eq_ok_iff, List.forall₂_cons_left_iff, ih]
    constructor
    · rintro ⟨first, found, others, each, given⟩
      exact ⟨first, others, found, each, (Except.ok.inj given).symm⟩
    · rintro ⟨first, others, found, each, rfl⟩
      exact ⟨first, found, others, each, rfl⟩

theorem mapM_eq_some_of_forall {f : α → Option β} {g : α → β}
    (each : ∀ item ∈ items, f item = some (g item)) : items.mapM f = some (items.map g) := by
  induction items with
  | nil => rfl
  | cons item rest ih =>
    obtain ⟨own, others⟩ := List.forall_mem_cons.mp each
    rw [List.mapM_cons, own, ih others]
    rfl

theorem exists_mapM_ok_iff :
    (∃ results, items.mapM f = .ok results) ↔ ∀ item ∈ items, ∃ result, f item = .ok result := by
  simp only [mapM_eq_ok_iff]
  constructor
  · rintro ⟨results, each⟩ item member
    obtain ⟨result, _, found⟩ := exists_right_of_forall₂ each member
    exact ⟨result, found⟩
  · intro each
    induction items with
    | nil => exact ⟨[], .nil⟩
    | cons item rest ih =>
      obtain ⟨first, found⟩ := each item List.mem_cons_self
      obtain ⟨others, pairs⟩ := ih fun other member => each other (List.mem_cons_of_mem item member)
      exact ⟨first :: others, .cons found pairs⟩

/-- A traversal fails with the fault of one of its items. -/
theorem exists_error_of_mapM {fault : ε} (failed : items.mapM f = .error fault) :
    ∃ item ∈ items, f item = .error fault := by
  induction items with
  | nil => cases failed
  | cons item rest ih =>
    rw [List.mapM_cons, bind_eq_error_iff] at failed
    rcases failed with own | ⟨_, -, failed⟩
    · exact ⟨item, List.mem_cons_self, own⟩
    · rcases bind_eq_error_iff.mp failed with others | ⟨_, -, ⟨⟩⟩
      obtain ⟨other, member, found⟩ := ih others
      exact ⟨other, List.mem_cons_of_mem item member, found⟩

theorem map_eq_map_of_mapM {γ : Type} {f : α → Option β} {key : β → γ} {origin : α → γ}
    (same : ∀ item result, f item = some result → key result = origin item)
    (read : items.mapM f = some results) : results.map key = items.map origin := by
  induction items generalizing results with
  | nil =>
    cases read
    rfl
  | cons item rest ih =>
    rw [List.mapM_cons] at read
    obtain ⟨result, found, read⟩ := Option.bind_eq_some_iff.mp read
    obtain ⟨others, given, ⟨⟩⟩ := Option.bind_eq_some_iff.mp read
    rw [List.map_cons, List.map_cons, same item result found, ih given]

theorem mapM_filterMap_of_inverse {g : β → Option α}
    (inverse : ∀ result ∈ results, ∃ item, g result = some item ∧ f item = .ok result) :
    (results.filterMap g).mapM f = .ok results := by
  rw [mapM_eq_ok_iff]
  induction results with
  | nil => exact .nil
  | cons result results ih =>
    obtain ⟨⟨item, given, found⟩, others⟩ := List.forall_mem_cons.mp inverse
    rw [List.filterMap_cons_some given]
    exact .cons found (ih others)

theorem mapM_map_of_inverse {g : β → α} (inverse : ∀ result ∈ results, f (g result) = .ok result) :
    (results.map g).mapM f = .ok results := by
  rw [mapM_eq_ok_iff, List.forall₂_map_left_iff, List.forall₂_same]
  exact inverse

end Traversal

theorem filter_key_eq_singleton [DecidableEq β] {key : α → β} {items : List α} {item : α}
    (distinct : (items.map key).Nodup) (member : item ∈ items) :
    items.filter (key · = key item) = [item] := by
  obtain ⟨before, behind, rfl⟩ := List.append_of_mem member
  rw [List.map_append, List.map_cons, List.nodup_append, List.nodup_cons] at distinct
  obtain ⟨_, ⟨own, _⟩, apart⟩ := distinct
  have first : before.filter (key · = key item) = [] := by
    rw [List.filter_eq_nil_iff]
    intro other inside
    simpa using apart _ (List.mem_map_of_mem inside) _ List.mem_cons_self
  have last : behind.filter (key · = key item) = [] := by
    rw [List.filter_eq_nil_iff]
    intro other inside
    simpa using fun same : key other = key item => own (same ▸ List.mem_map_of_mem inside)
  rw [List.filter_append, first, List.filter_cons_of_pos (by simp), last, List.nil_append]

section FilterMap
variable {γ : Type} {all : List α} {parts : α → List β} {f : β → Option γ}

theorem filterMap_flatMap_eq_map {value : α → γ}
    (each : ∀ one ∈ all, (parts one).filterMap f = [value one]) :
    (all.flatMap parts).filterMap f = all.map value := by
  rw [List.filterMap_flatMap, ← List.flatMap_pure_eq_map]
  exact List.flatMap_congr each

theorem filterMap_flatMap_eq_nil (each : ∀ one ∈ all, (parts one).filterMap f = []) :
    (all.flatMap parts).filterMap f = [] := by
  rw [List.filterMap_flatMap]
  exact List.flatMap_eq_nil_iff.mpr each

end FilterMap

theorem findSome?_congr {f g : α → Option β} {items : List α} (same : ∀ item ∈ items, f item = g item) :
    items.findSome? f = items.findSome? g := by
  induction items with
  | nil => rfl
  | cons item rest ih =>
    rw [List.findSome?_cons, List.findSome?_cons, same item (.head _),
      ih fun other inside => same other (.tail _ inside)]

/-- With distinct keys, every entry is found. -/
theorem lookup_of_mem [BEq α] [LawfulBEq α] {entries : List (α × β)} {key : α} {value : β}
    (distinct : (entries.map Prod.fst).Nodup) (member : (key, value) ∈ entries) :
    entries.lookup key = some value := by
  obtain ⟨before, behind, rfl⟩ := List.append_of_mem member
  rw [List.map_append, List.map_cons] at distinct
  refine List.lookup_eq_some_iff.mpr ⟨before, behind, rfl, ?_⟩
  intro entry earlier
  have apart := (List.nodup_append.mp distinct).2.2 entry.1 (List.mem_map_of_mem earlier) key
    List.mem_cons_self
  simpa using apart.symm

/-- None of the items is repeated, and none is among the known ones. -/
def Fresh (items known : List α) : Prop := items.Nodup ∧ ∀ item ∈ items, item ∉ known

section Fresh
variable {item : α} {items known others : List α}

theorem fresh_nil : Fresh [] known := ⟨List.nodup_nil, fun _ member => absurd member List.not_mem_nil⟩

theorem Fresh.mono (fresh : Fresh items known) (fewer : others ⊆ known) : Fresh items others :=
  ⟨fresh.1, fun item member old => fresh.2 item member (fewer old)⟩

theorem fresh_cons : Fresh (item :: items) known ↔ item ∉ known ∧ Fresh items (item :: known) := by
  simp only [Fresh, List.nodup_cons, List.mem_cons, not_or]
  constructor
  · rintro ⟨⟨absent, distinct⟩, unknown⟩
    refine ⟨unknown item (.inl rfl), distinct, ?_⟩
    intro other member
    refine ⟨?_, unknown other (.inr member)⟩
    rintro rfl
    exact absent member
  · rintro ⟨unknown, distinct, rest⟩
    refine ⟨⟨fun member => (rest item member).1 rfl, distinct⟩, ?_⟩
    rintro other (rfl | member)
    · exact unknown
    · exact (rest other member).2

theorem fresh_append :
    Fresh (items ++ others) known ↔ Fresh items known ∧ Fresh others (items.reverse ++ known) := by
  induction items generalizing known with
  | nil => simp [Fresh]
  | cons item items ih =>
    rw [List.cons_append, fresh_cons, ih, fresh_cons, List.reverse_cons, List.append_assoc,
      List.singleton_append, and_assoc]

end Fresh

section Leading
variable {same : α → α → Bool} {items : List α} {item : α}

/-- The items that none before them is the same as. -/
def leading (same : α → α → Bool) (items : List α) : List α :=
  (items.zipIdx.filter fun entry => !(items.take entry.2).any (same · entry.1)).map Prod.fst

theorem leading_concat : leading same (items ++ [item]) =
    if items.any (same · item) then leading same items else leading same items ++ [item] := by
  have front : items.zipIdx.filter (fun entry => !((items ++ [item]).take entry.2).any (same · entry.1)) =
      items.zipIdx.filter fun entry => !(items.take entry.2).any (same · entry.1) := by
    refine List.filter_congr fun entry member => ?_
    have below : entry.2 < items.length := by
      simpa using List.snd_lt_add_of_mem_zipIdx member
    rw [List.take_append_of_le_length (Nat.le_of_lt below)]
  unfold leading
  rw [List.zipIdx_append, List.filter_append, List.map_append, List.zipIdx_singleton, Nat.zero_add, front,
    List.filter_singleton, List.take_left]
  cases items.any (same · item) <;> simp

theorem leading_sublist (same : α → α → Bool) (items : List α) : (leading same items).Sublist items := by
  induction items using List.reverseRecOn with
  | nil => exact List.Sublist.refl []
  | append_singleton items item ih =>
    rw [leading_concat]
    split_ifs
    · exact ih.trans (List.sublist_append_left items [item])
    · exact ih.append (List.Sublist.refl [item])

theorem leading_ne_nil (nonempty : items ≠ []) : leading same items ≠ [] := by
  induction items using List.reverseRecOn with
  | nil => exact absurd rfl nonempty
  | append_singleton items item ih =>
    rw [leading_concat]
    split_ifs with known
    · exact ih fun none => by simp [none] at known
    · exact List.append_ne_nil_of_right_ne_nil _ (List.cons_ne_nil _ _)

theorem pairwise_leading : (leading same items).Pairwise fun first second => same first second = false := by
  induction items using List.reverseRecOn with
  | nil => exact .nil
  | append_singleton items item ih =>
    rw [leading_concat]
    split_ifs with known
    · exact ih
    · refine List.pairwise_append.mpr ⟨ih, List.pairwise_singleton _ _, fun other kept last listed => ?_⟩
      obtain rfl := List.mem_singleton.mp listed
      have absent := List.any_eq_false.mp (Bool.not_eq_true _ ▸ known) other
        ((leading_sublist same items).subset kept)
      exact Bool.not_eq_true _ ▸ absent

variable (transitive : ∀ first second third, same first second = true → same second third = true →
  same first third = true)
include transitive

/-- What is the same as an item that is left out is the same as one that is not. -/
theorem any_leading (items : List α) (item : α) :
    (leading same items).any (same · item) = items.any (same · item) := by
  induction items using List.reverseRecOn with
  | nil => rfl
  | append_singleton items last ih =>
    rw [leading_concat, List.any_append, List.any_cons, List.any_nil, Bool.or_false]
    split_ifs with known
    · rw [ih]
      cases equal : same last item with
      | false => exact (Bool.or_false _).symm
      | true =>
        obtain ⟨other, member, before⟩ := List.any_eq_true.mp known
        rw [Bool.or_true, List.any_eq_true]
        exact ⟨other, member, transitive other last item before equal⟩
    · rw [List.any_append, ih, List.any_cons, List.any_nil, Bool.or_false]

theorem foldl_keep_eq_leading (items : List α) :
    items.foldl (fun kept item => if kept.any (same · item) then kept else kept ++ [item]) [] =
      leading same items := by
  induction items using List.reverseRecOn with
  | nil => rfl
  | append_singleton items item ih =>
    rw [List.foldl_append, ih, List.foldl_cons, List.foldl_nil, leading_concat, any_leading transitive]

end Leading

/-- What a predicate takes from a list ends where the first item fails it. -/
theorem takeWhile_append_stop {keeps : α → Bool} {items : List α} (rest : List α)
    (inside : ∀ item ∈ items, keeps item = true) (stop : ∀ item ∈ rest.head?, keeps item = false) :
    (items ++ rest).takeWhile keeps = items ∧ (items ++ rest).dropWhile keeps = rest := by
  rw [List.takeWhile_append_of_pos inside, List.dropWhile_append_of_pos inside]
  cases rest with
  | nil => simp
  | cons item rest => simp [stop item rfl]

theorem countP_lt_countP {p q : α → Bool} {items : List α} {item : α}
    (weaker : ∀ other ∈ items, p other → q other) (member : item ∈ items) (fails : p item = false)
    (holds : q item = true) : items.countP p < items.countP q := by
  obtain ⟨first, rest, rfl⟩ := List.append_of_mem member
  have before : first.countP p ≤ first.countP q :=
    List.countP_mono_left fun other inside => weaker other (by simp [inside])
  have after : rest.countP p ≤ rest.countP q :=
    List.countP_mono_left fun other inside => weaker other (by simp [inside])
  simp only [List.countP_append, List.countP_cons, fails, holds]
  simp only [Bool.false_eq_true, if_false, if_true]
  omega

end TypedClient
