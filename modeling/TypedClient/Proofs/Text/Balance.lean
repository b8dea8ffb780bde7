import TypedClient.Proofs.Text.Pages

/-! Logs that close the blocks they open, and no other.

A guarded page refuses to close a block while none is open, and is no text while one is open still.
Whether a log gets past the guards depends on the number of open blocks only. That number is told of
each part of a log on its own: how many blocks the part expects to be open for it, and how many of
those and of its own it leaves open.
-/

set_option autoImplicit false

namespace TypedClient

namespace Step

def depth? : Step → Nat → Option Nat
  | .line _, depth => some depth
  | .blank, depth => some depth
  | .openBlock _, depth => some (depth + 1)
  | .closeBlock _, 0 => none
  | .closeBlock _, depth + 1 => some depth

def depthAfter? (steps : List Step) (depth : Nat) : Option Nat :=
  steps.foldlM (fun depth step => step.depth? depth) depth

/-- With `before` blocks open for it, a log leaves `after` of them, and touches no block around. -/
def Nests (before after : Nat) (steps : List Step) : Prop :=
  ∀ depth, depthAfter? steps (depth + before) = some (depth + after)

def Balanced (steps : List Step) : Prop := ∀ depth, depthAfter? steps depth = some depth

section Logs
variable {before middle after levels : Nat} {first rest steps : List Step}

theorem depthAfter?_append (first rest : List Step) (depth : Nat) :
    depthAfter? (first ++ rest) depth = (depthAfter? first depth).bind (depthAfter? rest) :=
  List.foldlM_append

theorem Nests.append (nests : Nests before middle first) (more : Nests middle after rest) :
    Nests before after (first ++ rest) := by
  intro depth
  rw [depthAfter?_append, nests depth, Option.bind_some, more depth]

/-- A balanced log may stand inside of any blocks. -/
theorem Balanced.inside (balanced : Balanced steps) : Nests levels levels steps :=
  fun depth => balanced (depth + levels)

theorem Nests.balanced (nests : Nests 0 0 steps) : Balanced steps := nests

/-- What is balanced goes on with the blocks that are open. -/
theorem Nests.then (nests : Nests before after first) (balanced : Balanced rest) :
    Nests before after (first ++ rest) :=
  nests.append balanced.inside

theorem Balanced.nil : Balanced [] := fun _ => rfl

theorem Balanced.append (balanced : Balanced first) (more : Balanced rest) :
    Balanced (first ++ rest) :=
  (balanced.inside.append more.inside).balanced

theorem Balanced.block (balanced : Balanced steps) (header suffix : String) :
    Balanced (.openBlock header :: (steps ++ [.closeBlock suffix])) := by
  have opens : Nests 0 1 [.openBlock header] := fun _ => rfl
  have closes : Nests 1 0 [.closeBlock suffix] := fun _ => rfl
  exact (opens.append (balanced.inside.append closes)).balanced

theorem Balanced.of_lines (lines : ∀ step ∈ steps, ∃ text, step = .line text) : Balanced steps := by
  induction steps with
  | nil => exact .nil
  | cons step rest ih =>
    obtain ⟨⟨text, rfl⟩, others⟩ := List.forall_mem_cons.mp lines
    exact ih others

theorem balanced_map_line {α : Type} (text : α → String) (values : List α) :
    Balanced (values.map fun value => .line (text value)) := by
  refine .of_lines fun step member => ?_
  obtain ⟨value, -, rfl⟩ := List.mem_map.mp member
  exact ⟨text value, rfl⟩

theorem Balanced.flatMap {α : Type} {log : α → List Step} {values : List α}
    (each : ∀ value ∈ values, Balanced (log value)) : Balanced (values.flatMap log) := by
  induction values with
  | nil => exact .nil
  | cons value rest ih =>
    obtain ⟨first, others⟩ := List.forall_mem_cons.mp each
    exact first.append (ih others)

end Logs

end Step

namespace Page
variable {style : Style} {steps : List Step}

/-- One step, unless it closes a block while none is open. -/
def guardedStep? (style : Style) (page : Page) : Step → Option Page
  | .closeBlock suffix => if page.depth = 0 then none else some (page.closeBlock style suffix)
  | step => some (page.step style step)

def guardedRun? (style : Style) (steps : List Step) (page : Page) : Option Page :=
  steps.foldlM (guardedStep? style) page

/-- The text that the steps write, if no guard refuses one and no block stays open. -/
def guardedText? (style : Style) (steps : List Step) : Option String := do
  let page ← guardedRun? style steps empty
  if page.depth = 0 then some page.text else none

/-- A guard stands where the count of open blocks ends. -/
theorem guardedStep?_of_depth? {page : Page} {step : Step} {depth : Nat}
    (counted : step.depth? page.depth = some depth) :
    guardedStep? style page step = some (page.step style step) ∧ (page.step style step).depth = depth := by
  cases step with
  | line text =>
    cases counted
    exact ⟨rfl, rfl⟩
  | blank =>
    cases counted
    exact ⟨rfl, page.depth_blank⟩
  | openBlock header =>
    cases counted
    exact ⟨rfl, rfl⟩
  | closeBlock suffix =>
    obtain ⟨lines, depth⟩ := page
    cases depth with
    | zero => cases counted
    | succ depth =>
      cases counted
      exact ⟨rfl, rfl⟩

theorem guardedRun?_of_depthAfter? {page : Page} {depth : Nat}
    (counted : Step.depthAfter? steps page.depth = some depth) :
    guardedRun? style steps page = some (page.run style steps) ∧
      (page.run style steps).depth = depth := by
  induction steps generalizing page with
  | nil =>
    cases counted
    exact ⟨rfl, rfl⟩
  | cons step rest ih =>
    obtain ⟨next, taken, counted⟩ := Option.bind_eq_some_iff.mp counted
    obtain ⟨passes, rfl⟩ := @guardedStep?_of_depth? style page step next taken
    obtain ⟨run, same⟩ := ih counted
    refine ⟨?_, same⟩
    unfold guardedRun? at run ⊢
    rw [List.foldlM_cons, passes]
    exact run

/-- On a balanced log, a guarded page is a page. -/
theorem guardedText?_of_balanced (style : Style) (balanced : Step.Balanced steps) :
    guardedText? style steps = some (render style steps) := by
  obtain ⟨run, closed⟩ := @guardedRun?_of_depthAfter? style steps empty 0 (balanced 0)
  unfold guardedText?
  rw [run]
  exact if_pos closed

end Page

end TypedClient
