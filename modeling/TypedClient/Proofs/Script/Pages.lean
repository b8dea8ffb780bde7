import TypedClient.Proofs.Script.Items
import TypedClient.Proofs.Text.Pages

/-! The code on a page is that of its items.

A text that is read with no bracket open is read the same in every bracket. So the lines of a page
are read one behind the other, each between the braces of the blocks that it is in. Only where the
lines end is not as in the items, because empty lines are.
-/

set_option autoImplicit false

namespace TypedClient.Script

namespace State
variable {mode : Mode} {frames : List Frame} {read tokens : List Token} {next last : State}
  {c : Char} {characters : List Char}

def under (state : State) (outer : List Frame) : State := ⟨state.mode, state.frames ++ outer⟩

theorem closeBrace?_under (closes : closeBrace? frames = some (read, next)) (outer : List Frame) :
    closeBrace? (frames ++ outer) = some (read, next.under outer) := by
  cases frames with
  | nil => cases closes
  | cons frame frames =>
    cases frame with
    | brace =>
      cases closes
      rfl
    | hole =>
      cases closes
      rfl

theorem begin?_under (begins : begin? frames c = some (read, next)) (outer : List Frame) :
    begin? (frames ++ outer) c = some (read, next.under outer) := by
  by_cases closes : c = '\x7d'
  · subst closes
    exact closeBrace?_under begins outer
  · unfold begin? at begins ⊢
    split_ifs at begins ⊢ <;>
    · cases begins
      rfl

theorem step?_under {state : State} (steps : state.step? c = some (read, next))
    (outer : List Frame) : (state.under outer).step? c = some (read, next.under outer) := by
  obtain ⟨mode, frames⟩ := state
  -- Only code looks at the frames, and a step that succeeds never gets to those further out.
  cases mode with
  | code => exact begin?_under steps outer
  | word letters =>
    simp only [step?, under] at steps ⊢
    split_ifs at steps ⊢
    · cases steps
      rfl
    · obtain ⟨⟨first, begun⟩, found, given⟩ := Option.map_eq_some_iff.mp steps
      cases given
      rw [begin?_under found outer]
      rfl
  | text delimiter letters =>
    simp only [step?, under] at steps ⊢
    split_ifs at steps ⊢ <;>
    · cases steps
      rfl
  | escape delimiter letters | templateEscape letters =>
    simp only [step?, under] at steps ⊢
    obtain ⟨plain, found, given⟩ := Option.map_eq_some_iff.mp steps
    cases given
    rw [found]
    rfl
  | template letters =>
    simp only [step?, under, inTemplate] at steps ⊢
    split_ifs at steps ⊢ <;>
    · cases steps
      rfl
  | dollar letters =>
    simp only [step?, under, inTemplate] at steps ⊢
    split_ifs at steps ⊢ <;>
    · cases steps
      rfl

theorem advance?_under {state : State} (advances : state.advance? characters = some (tokens, last))
    (outer : List Frame) :
    (state.under outer).advance? characters = some (tokens, last.under outer) := by
  induction characters generalizing state tokens with
  | nil =>
    cases advances
    rfl
  | cons c characters ih =>
    simp only [advance?, Option.bind_eq_bind, Option.bind_eq_some_iff, Prod.exists] at advances ⊢
    obtain ⟨read, middle, step, more, stopped, found, given⟩ := advances
    cases given
    exact ⟨read, _, step?_under step outer, more, _, ih found, rfl⟩

end State

section Texts
variable {text : String} {tokens : List Token}

/-- A text that is code by itself is code in every bracket. -/
theorem reads_of_tokens? (found : tokens? text = some tokens) : Reads text tokens := by
  simp only [tokens?, Option.bind_eq_bind, Option.bind_eq_some_iff, Prod.exists] at found
  obtain ⟨read, ⟨mode, frames⟩, advances, rest, finished, given⟩ := found
  cases given
  have within := State.advance?_under advances
  cases mode with
  | code =>
    cases frames with
    | cons frame frames => cases finished
    | nil =>
      cases finished
      rw [List.append_nil]
      exact .inl within
  | word letters =>
    cases frames with
    | cons frame frames => cases finished
    | nil =>
      cases finished
      exact .inr ⟨read, letters, rfl, within⟩
  | text | escape | template | templateEscape | dollar => cases finished

end Texts

def unbroken : List Token → List Token
  | [] => []
  | .lineEnd :: rest => unbroken rest
  | token :: rest => token :: unbroken rest

theorem unbroken_append (first second : List Token) :
    unbroken (first ++ second) = unbroken first ++ unbroken second := by
  induction first with
  | nil => rfl
  | cons token first ih => cases token <;> simp [unbroken, ih]

end TypedClient.Script

namespace TypedClient

open Script

section Lines
variable {text : String}

theorem oneLine_of_usable (usable : Text.Usable text.toList) : OneLine text := by
  intro inside
  exact absurd (usable '\n' inside) (by decide)

theorem oneLine_literal (value : String) : OneLine (Factory.literal value) :=
  oneLine_quote .single value

end Lines

/-- The items have these tokens, and none of their texts is broken over lines. -/
structure Item.Spells (items : List Item) (tokens : List Token) : Prop where
  found : Item.tokensOf? items = some tokens
  single : ∀ text ∈ Item.textsOf items, OneLine text

/-- What the items add to a page has these tokens, but for the ends of lines. -/
def Item.Prints (items : List Item) (tokens : List Token) : Prop :=
  ∀ page : Page, ∃ text,
    (page.run Style.standard (Item.stepsOf items)).text.toList = page.text.toList ++ text ∧
      (page.run Style.standard (Item.stepsOf items)).depth = page.depth ∧
      ∃ read, unbroken read = unbroken tokens ∧
        ∀ frames, (State.mk .code frames).advance? text = some (read, ⟨.code, frames⟩)

namespace Item

variable {items others body : List Item} {tokens more inside begun ended : List Token}
  {text header suffix : String} {characters : List Char} {frames : List Frame} {last : State}

theorem advance?_blanks (count : Nat) (characters : List Char) (frames : List Frame) :
    (State.mk .code frames).advance? (List.replicate count ' ' ++ characters) =
      (State.mk .code frames).advance? characters := by
  induction count with
  | zero => rfl
  | succ count ih =>
    have step : (State.mk .code frames).step? ' ' = some ([], ⟨.code, frames⟩) := rfl
    rw [List.replicate_succ, List.cons_append, State.advance?, step]
    simp [ih]

theorem Prints.nil : Prints [] [] :=
  fun _ => ⟨[], (List.append_nil _).symm, rfl, [], rfl, fun _ => rfl⟩

theorem Prints.append (prints : Prints items tokens) (further : Prints others more) :
    Prints (items ++ others) (tokens ++ more) := by
  intro page
  obtain ⟨text, added, same, read, found, reads⟩ := prints page
  obtain ⟨text', added', same', read', found', reads'⟩ :=
    further (page.run Style.standard (Item.stepsOf items))
  refine ⟨text ++ text', ?_, ?_, read ++ read', ?_, ?_⟩
  · rw [stepsOf_append, Page.run_append, added', added, List.append_assoc]
  · rw [stepsOf_append, Page.run_append, same', same]
  · rw [unbroken_append, unbroken_append, found, found']
  · exact fun frames => State.advance?_append (reads frames) (reads' frames)

theorem Prints.blank : Prints [.blank] [] := by
  intro page
  obtain added | added := page.text_blank
  · exact ⟨[], added.trans (List.append_nil _).symm, page.depth_blank, [], rfl, fun _ => rfl⟩
  · exact ⟨['\n'], added, page.depth_blank, [.lineEnd], rfl, fun _ => rfl⟩

/-- What is read up to the end of its line. -/
theorem advance?_line (reads : Reads text tokens) (frames : List Frame) :
    (State.mk .code frames).advance? (text.toList ++ ['\n']) =
      some (tokens ++ [.lineEnd], ⟨.code, frames⟩) := by
  have feed : Whole "\n" [.lineEnd] := fun _ => rfl
  have whole := reads.append_whole feed rfl frames
  rw [String.toList_append] at whole
  exact whole

theorem Prints.line (reads : Reads text tokens) (single : OneLine text) :
    Prints [.line text] (tokens ++ [.lineEnd]) := by
  intro page
  have added := @Page.text_line .standard text page
  rw [Text.splitAt_of_stays fun c inside => by simpa using ne_of_mem_of_not_mem inside single,
    List.flatMap_singleton, Page.ruledLine] at added
  refine ⟨_, added, rfl, tokens ++ [.lineEnd], rfl, fun frames => ?_⟩
  -- An empty line is not indented.
  have line := advance?_line reads frames
  split_ifs with empty
  · rw [List.isEmpty_iff.mp empty] at line
    exact line
  · rw [List.append_assoc, advance?_blanks, line]

theorem advance?_opening {space : String} (begins : Reads header begun)
    (isSpace : space = "" ∨ space = " ") (count : Nat) (frames : List Frame) :
    (State.mk .code frames).advance?
        (List.replicate count ' ' ++ ((header ++ (space ++ "\x7b")).toList ++ ['\n'])) =
      some (begun ++ [.mark '\x7b', .lineEnd], ⟨.code, .brace :: frames⟩) := by
  have brace : (State.mk .code frames).advance? (space ++ "\x7b" ++ "\n").toList =
      some ([.mark '\x7b', .lineEnd], ⟨.code, .brace :: frames⟩) := by
    rcases isSpace with rfl | rfl <;> rfl
  have stops : apart (space ++ "\x7b" ++ "\n") = true := by
    rcases isSpace with rfl | rfl <;> rfl
  have line := begins.advance?_append stops brace
  rw [← String.append_assoc, String.toList_append] at line
  rw [advance?_blanks]
  exact line

theorem advance?_closing (ends : Reads suffix ended) (count : Nat) (frames : List Frame) :
    (State.mk .code (.brace :: frames)).advance?
        (List.replicate count ' ' ++ (("\x7d" ++ suffix).toList ++ ['\n'])) =
      some (.mark '\x7d' :: (ended ++ [.lineEnd]), ⟨.code, frames⟩) := by
  have brace : (State.mk .code (.brace :: frames)).step? '\x7d' =
      some ([.mark '\x7d'], ⟨.code, frames⟩) := rfl
  rw [advance?_blanks, String.toList_append, List.append_assoc]
  exact State.advance?_cons brace (advance?_line ends frames)

theorem Prints.block (begins : Reads header begun) (prints : Prints body inside)
    (ends : Reads suffix ended) :
    Prints [.block header body suffix] (blockTokens begun inside ended) := by
  intro page
  obtain ⟨space, isSpace, opened⟩ := @Page.text_openBlock .standard header page
  obtain ⟨text, added, deeper, read, found, reads⟩ := prints (page.openBlock Style.standard header)
  have closed := @Page.text_closeBlock .standard suffix
    ((page.openBlock Style.standard header).run Style.standard (Item.stepsOf body))
  rw [added, opened, List.append_assoc, List.append_assoc] at closed
  have steps : page.run Style.standard (stepsOf [.block header body suffix]) =
      ((page.openBlock Style.standard header).run Style.standard (stepsOf body)).closeBlock
        Style.standard suffix := by
    simp only [stepsOf, Item.steps, List.append_nil, Page.run_cons, Page.run_append, Page.run_nil,
      Page.step]
  rw [steps]
  refine ⟨_, closed, ?_, begun ++ [.mark '\x7b', .lineEnd] ++
    (read ++ .mark '\x7d' :: (ended ++ [.lineEnd])), ?_, fun frames => ?_⟩
  · change ((page.openBlock Style.standard header).run Style.standard (stepsOf body)).depth - 1 = _
    rw [deeper]
    rfl
  · rw [unbroken_append _ (read ++ _), unbroken_append read, found, ← unbroken_append,
      ← unbroken_append, List.append_assoc]
    rfl
  · -- The body is read with one more brace open, which is why every number of them is allowed.
    exact State.advance?_append (advance?_opening begins isSpace _ frames)
      (State.advance?_append (reads _) (advance?_closing ends _ frames))

/-- What the items are read as is what they add to a page. -/
theorem prints_of_tokensOf? {items : List Item} {tokens : List Token}
    (found : tokensOf? items = some tokens) (single : ∀ text ∈ textsOf items, OneLine text) :
    Prints items tokens := by
  induction items using forest_induction generalizing tokens with
  | nil =>
    cases found
    exact .nil
  | line text rest ih =>
    simp only [tokensOf?, Item.tokens?, Option.bind_eq_bind, Option.bind_eq_some_iff] at found
    obtain ⟨_, ⟨own, read, ⟨⟩⟩, behind, remaining, ⟨⟩⟩ := found
    have others := ih remaining fun other member => single other (.tail _ member)
    exact (Prints.line (reads_of_tokens? read) (single text (.head _))).append others
  | blank rest ih =>
    simp only [tokensOf?, Item.tokens?, Option.bind_eq_bind, Option.bind_eq_some_iff] at found
    obtain ⟨_, ⟨⟩, behind, remaining, ⟨⟩⟩ := found
    exact Prints.blank.append (ih remaining single)
  | block header body suffix rest inner ih =>
    simp only [tokensOf?, Item.tokens?, Option.bind_eq_bind, Option.bind_eq_some_iff] at found
    obtain ⟨_, ⟨begun, begins, inside, within, ended, ends, ⟨⟩⟩, behind, remaining, ⟨⟩⟩ := found
    have deeper := inner within fun text member =>
      single text (List.mem_append_left _ (.tail _ (.tail _ member)))
    have others := ih remaining fun text member => single text (List.mem_append_right _ member)
    exact (Prints.block (reads_of_tokens? begins) deeper (reads_of_tokens? ends)).append others

namespace Spells

theorem textsOf_append : textsOf (items ++ others) = textsOf items ++ textsOf others := by
  induction items with
  | nil => rfl
  | cons item items ih => rw [List.cons_append, textsOf, textsOf, ih, List.append_assoc]

theorem append (spells : Spells items tokens) (further : Spells others more) :
    Spells (items ++ others) (tokens ++ more) where
  found := tokensOf?_append spells.found further.found
  single := by
    rw [textsOf_append]
    exact List.forall_mem_append.mpr ⟨spells.single, further.single⟩

theorem blank (spells : Spells items tokens) : Spells (.blank :: items) tokens :=
  ⟨tokensOf?_blank spells.found, spells.single⟩

theorem line (reads : Reads text tokens) (single : OneLine text) :
    Spells [.line text] (tokens ++ [.lineEnd]) :=
  ⟨tokensOf?_line reads, List.forall_mem_singleton.mpr single⟩

theorem block (begins : Reads header begun) (oneHeader : OneLine header)
    (spells : Spells body inside) (ends : Reads suffix ended) (oneSuffix : OneLine suffix) :
    Spells [.block header body suffix] (blockTokens begun inside ended) where
  found := tokensOf?_block begins spells.found ends
  single := by
    have texts : textsOf [.block header body suffix] = header :: suffix :: textsOf body :=
      List.append_nil _
    rw [texts]
    exact List.forall_mem_cons.mpr ⟨oneHeader, List.forall_mem_cons.mpr ⟨oneSuffix, spells.single⟩⟩

/-- A page is read as the items that are on it. -/
theorem tokens?_render (spells : Spells items tokens) :
    ∃ read, Script.tokens? (render Style.standard items) = some read ∧
      unbroken read = unbroken tokens := by
  obtain ⟨text, added, _, read, same, reads⟩ :=
    prints_of_tokensOf? spells.found spells.single Page.empty
  refine ⟨read, ?_, same⟩
  have spelled : (render Style.standard items).toList = text := added
  unfold Script.tokens? State.start
  rw [spelled, reads []]
  exact congrArg some (List.append_nil read)

end Spells

/-- A page begins with the line that is first on it. -/
theorem exists_toList_render (single : OneLine text) (rest : List Item) :
    ∃ more, (render Style.standard (.line text :: rest)).toList = text.toList ++ '\n' :: more := by
  have first := @Page.text_line .standard text Page.empty
  rw [Text.splitAt_of_stays fun c inside => by simpa using ne_of_mem_of_not_mem inside single,
    List.flatMap_singleton] at first
  have ruled : Page.ruledLine (Style.standard.indentWidth * Page.empty.depth) text.toList =
      text.toList ++ ['\n'] := by
    unfold Page.ruledLine
    split_ifs with empty
    · rw [List.isEmpty_iff.mp empty]
    · rfl
  rw [ruled] at first
  obtain ⟨more, added⟩ := Page.exists_text_run (stepsOf rest) (Page.empty.line Style.standard text)
  refine ⟨more, Eq.trans added ?_⟩
  rw [first, List.append_assoc, List.append_assoc]
  rfl

end Item

end TypedClient
