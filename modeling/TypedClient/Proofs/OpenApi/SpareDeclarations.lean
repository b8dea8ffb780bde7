import TypedClient.OpenApi.StatusClass
import TypedClient.Proofs.OpenApi.ResolvedOperations

/-! Declarations that have no part in a client.

Cookies, and responses without a status class, that are declared in place always resolve, and nothing is
made of them. Documents that differ in no more than such declarations fail alike, or have the same
operations apart from them.
-/

set_option autoImplicit false

namespace TypedClient

section Alike
variable {α β γ δ ε : Type}

inductive Alike (related : α → β → Prop) : Except ε α → Except ε β → Prop where
  | ok {left : α} {right : β} : related left right → Alike related (.ok left) (.ok right)
  | error {fault : ε} : Alike related (.error fault) (.error fault)

namespace Alike

variable {related : α → β → Prop} {left : Except ε α} {right : Except ε β}

theorem refl {related : α → α → Prop} (same : ∀ value, related value value) (outcome : Except ε α) :
    Alike related outcome outcome := by
  cases outcome with
  | ok value => exact .ok (same value)
  | error fault => exact .error

theorem symm {related : α → α → Prop} {left right : Except ε α}
    (turned : ∀ first second, related first second → related second first)
    (alike : Alike related left right) : Alike related right left := by
  cases alike with
  | ok holds => exact .ok (turned _ _ holds)
  | error => exact .error

theorem trans {related : α → α → Prop} {left middle right : Except ε α}
    (chained : ∀ first second third, related first second → related second third → related first third)
    (alike : Alike related left middle) (further : Alike related middle right) :
    Alike related left right := by
  cases alike with
  | ok holds =>
    cases further with
    | ok also => exact .ok (chained _ _ _ holds also)
  | error =>
    cases further
    exact .error

theorem bind {behind : γ → δ → Prop} {next : α → Except ε γ} {other : β → Except ε δ}
    (alike : Alike related left right)
    (after : ∀ first second, related first second → Alike behind (next first) (other second)) :
    Alike behind (left >>= next) (right >>= other) := by
  cases alike with
  | ok holds => exact after _ _ holds
  | error => exact .error

end Alike

section Filtered
variable {f : α → Except ε β} {keep : α → Bool} {good : β → Bool}

/-- What is dropped beforehand could not have failed, and would be dropped afterwards. -/
theorem alike_mapM_filter
    (dropped : ∀ item, keep item = false → ∃ result, f item = .ok result ∧ good result = false)
    (items : List α) : Alike (fun all some => all.filter good = some.filter good)
      (items.mapM f) ((items.filter keep).mapM f) := by
  induction items with
  | nil => exact .ok rfl
  | cons item items ih =>
    rw [List.mapM_cons]
    cases kept : keep item with
    | true =>
      rw [List.filter_cons_of_pos kept, List.mapM_cons]
      refine (Alike.refl (fun _ => rfl) (f item) : Alike Eq _ _).bind ?_
      rintro result _ rfl
      refine ih.bind fun all some same => .ok ?_
      rw [List.filter_cons, List.filter_cons, same]
    | false =>
      -- Only the first traversal meets the item. It goes on all the same, and the result is dropped.
      obtain ⟨result, found, bad⟩ := dropped item kept
      rw [List.filter_cons_of_neg (ne_true_of_eq_false kept), found, ok_bind,
        ← bind_pure ((items.filter keep).mapM f)]
      refine ih.bind fun all some same => .ok ?_
      rw [List.filter_cons_of_neg (ne_true_of_eq_false bad), same]

theorem alike_mapM_of_filter_eq
    (dropped : ∀ item, keep item = false → ∃ result, f item = .ok result ∧ good result = false)
    {items others : List α} (same : items.filter keep = others.filter keep) :
    Alike (fun all some => all.filter good = some.filter good) (items.mapM f) (others.mapM f) := by
  have first := alike_mapM_filter dropped items
  have second := alike_mapM_filter dropped others
  rw [same] at first
  exact first.trans (fun _ _ _ => Eq.trans) (second.symm fun _ _ => Eq.symm)

end Filtered

end Alike

namespace OpenApi

section Spare

def RefOr.isCookie : RefOr Parameter → Bool
  | .item parameter => parameter.location == .cookie
  | .reference _ => false

def isUnclassified (entry : String × RefOr Response) : Bool :=
  match entry.2 with
  | .item _ => (StatusClass.ofKey? entry.1).isNone
  | .reference _ => false

def PathOperation.trimmed (operation : PathOperation) : PathOperation :=
  { operation with
    parameters := operation.parameters.filter (!·.isCookie)
    responses := operation.responses.filter (!isUnclassified ·) }

def PathItem.trimmed (item : PathItem) : PathItem where
  parameters := item.parameters.filter (!·.isCookie)
  operations := item.operations.map PathOperation.trimmed

def trimmedPaths (paths : List (String × PathItem)) : List (String × PathItem) :=
  paths.map fun (path, item) => (path, item.trimmed)

def Parameter.counts (parameter : Parameter) : Bool := parameter.location != .cookie

def hasClass (entry : String × Response) : Bool := (StatusClass.ofKey? entry.1).isSome

/-- The operation without cookies and responses that have no status class. -/
def Operation.used (operation : Operation) : Operation :=
  { operation with
    parameters := operation.parameters.filter Parameter.counts
    responses := operation.responses.filter hasClass }

theorem Parameter.sameKey_counts {parameter other : Parameter} (same : parameter.sameKey other = true) :
    parameter.counts = other.counts := by
  unfold sameKey at same
  rw [Bool.and_eq_true, beq_iff_eq, beq_iff_eq] at same
  rw [counts, counts, same.2]

/-- A cookie stands in the way of cookies only. -/
theorem filter_mergeParameters (own shared : List Parameter) :
    (mergeParameters own shared).filter Parameter.counts =
      mergeParameters (own.filter Parameter.counts) (shared.filter Parameter.counts) := by
  unfold mergeParameters
  induction shared generalizing own with
  | nil => rfl
  | cons parameter shared ih =>
    rw [List.foldl_cons, ih]
    cases counted : parameter.counts with
    | true =>
      -- A key with this location is no key of a cookie, so it is there with and without the cookies.
      have present : (own.filter Parameter.counts).any (·.sameKey parameter) = own.any (·.sameKey parameter) := by
        rw [List.any_filter]
        refine List.any_congr rfl fun other => ?_
        cases same : other.sameKey parameter with
        | true => rw [Parameter.sameKey_counts same, counted, Bool.and_self]
        | false => rw [Bool.and_false]
      rw [List.filter_cons_of_pos counted, List.foldl_cons, present]
      split_ifs with there
      · rfl
      · rw [List.filter_append, List.filter_cons_of_pos counted, List.filter_nil]
    | false =>
      rw [List.filter_cons_of_neg (ne_true_of_eq_false counted)]
      split_ifs with there
      · rfl
      · rw [List.filter_append, List.filter_cons_of_neg (ne_true_of_eq_false counted), List.filter_nil,
          List.append_nil]

end Spare

/-- The documents declare the same operations, spare declarations apart. -/
structure Document.SameDeclarations (left right : Document) : Prop where
  paths : trimmedPaths left.paths = trimmedPaths right.paths
  parameters : left.components.parameters = right.components.parameters
  requestBodies : left.components.requestBodies = right.components.requestBodies
  responses : left.components.responses = right.components.responses

namespace Document.SameDeclarations

variable {left right : Document} (same : left.SameDeclarations right)
include same

theorem resolveParameters {first second : List (RefOr Parameter)}
    (equal : first.filter (!·.isCookie) = second.filter (!·.isCookie)) :
    Alike (fun own other => own.filter Parameter.counts = other.filter Parameter.counts)
      (left.resolveParameters first) (right.resolveParameters second) := by
  rw [Document.resolveParameters, Document.resolveParameters, same.parameters]
  refine alike_mapM_of_filter_eq (fun parameter spare => ?_) equal
  cases parameter with
  | item parameter => exact ⟨parameter, rfl, by simpa [RefOr.isCookie, Parameter.counts] using spare⟩
  | reference target => cases spare

theorem resolveResponses {first second : List (String × RefOr Response)}
    (equal : first.filter (!isUnclassified ·) = second.filter (!isUnclassified ·)) :
    Alike (fun some other => some.filter hasClass = other.filter hasClass)
      (left.resolveResponses first) (right.resolveResponses second) := by
  rw [Document.resolveResponses, Document.resolveResponses, same.responses]
  refine alike_mapM_of_filter_eq (fun entry spare => ?_) equal
  obtain ⟨key, response⟩ := entry
  cases response with
  | item response => exact ⟨(key, response), rfl, by simpa [isUnclassified, hasClass] using spare⟩
  | reference target => cases spare

theorem resolveBody (body : Option (RefOr RequestBody)) :
    left.resolveBody body = right.resolveBody body := by
  unfold Document.resolveBody
  rw [same.requestBodies]

variable {path : String} {taken : List String}

theorem operation {shared others : List Parameter}
    (sharing : shared.filter Parameter.counts = others.filter Parameter.counts)
    {declared other : PathOperation} (equal : declared.trimmed = other.trimmed) :
    Alike (fun first second => first.used = second.used)
      (left.operation taken path shared declared) (right.operation taken path others other) := by
  obtain ⟨method, operationId, parameters, requestBody, responses⟩ := declared
  obtain ⟨_, _, more, _, further⟩ := other
  simp only [PathOperation.trimmed, PathOperation.mk.injEq] at equal
  obtain ⟨rfl, rfl, equalParameters, rfl, equalResponses⟩ := equal
  unfold Document.operation
  refine (same.resolveParameters equalParameters).bind fun own otherOwn equalOwn => ?_
  rw [← same.resolveBody]
  refine (Alike.refl (fun _ => rfl) (left.resolveBody requestBody) : Alike Eq _ _).bind ?_
  rintro body _ rfl
  refine (same.resolveResponses equalResponses).bind fun given otherGiven equalGiven => .ok ?_
  simp only [Operation.used, filter_mergeParameters, equalOwn, sharing, equalGiven]

theorem pathOperations {shared others : List Parameter}
    (sharing : shared.filter Parameter.counts = others.filter Parameter.counts)
    {operations more : List PathOperation}
    (equal : operations.map PathOperation.trimmed = more.map PathOperation.trimmed) :
    Alike (fun first second => first.1.map Operation.used = second.1.map Operation.used ∧ first.2 = second.2)
      (left.pathOperations path shared operations taken) (right.pathOperations path others more taken) := by
  induction operations generalizing more taken with
  | nil =>
    obtain rfl := List.map_eq_nil_iff.mp equal.symm
    exact .ok ⟨rfl, rfl⟩
  | cons declared operations ih =>
    obtain ⟨other, more, rfl, equalFirst, equalRest⟩ := List.map_eq_cons_iff.mp equal.symm
    rw [Document.pathOperations, Document.pathOperations]
    refine (same.operation sharing equalFirst.symm).bind fun first second equalUsed => ?_
    -- The used part has the id of the whole, so the same ids are taken for the rest.
    have ids : first.id = second.id := congrArg (·.id) equalUsed
    rw [← ids]
    refine (ih equalRest.symm).bind ?_
    rintro ⟨rest, after⟩ ⟨further, _⟩ ⟨equalUsedRest, rfl⟩
    exact .ok ⟨by rw [List.map_cons, List.map_cons, equalUsed, equalUsedRest], rfl⟩

theorem operationsOf {paths others : List (String × PathItem)}
    (equal : trimmedPaths paths = trimmedPaths others) :
    Alike (fun first second => first.map Operation.used = second.map Operation.used)
      (left.operationsOf paths taken) (right.operationsOf others taken) := by
  induction paths generalizing others taken with
  | nil =>
    obtain rfl := List.map_eq_nil_iff.mp equal.symm
    exact .ok rfl
  | cons entry paths ih =>
    obtain ⟨other, others, rfl, equalFirst, equalRest⟩ := List.map_eq_cons_iff.mp equal.symm
    obtain ⟨path, item⟩ := entry
    obtain ⟨_, otherItem⟩ := other
    obtain ⟨rfl, equalItem⟩ := Prod.mk.inj equalFirst
    obtain ⟨equalParameters, equalOperations⟩ := PathItem.mk.inj equalItem
    rw [Document.operationsOf, Document.operationsOf]
    refine (same.resolveParameters equalParameters.symm).bind fun shared others sharing => ?_
    refine (same.pathOperations sharing equalOperations.symm).bind ?_
    rintro ⟨first, after⟩ ⟨second, _⟩ ⟨equalUsed, rfl⟩
    refine (ih equalRest.symm).bind fun rest further equalUsedRest => .ok ?_
    rw [List.map_append, List.map_append, equalUsed, equalUsedRest]

/-- Two documents fail alike, or have the same operations, spare parts apart. -/
theorem operations (reserved : List String) :
    Alike (fun first second => first.map Operation.used = second.map Operation.used)
      (left.operations reserved) (right.operations reserved) :=
  same.operationsOf same.paths

end Document.SameDeclarations

end OpenApi

end TypedClient
