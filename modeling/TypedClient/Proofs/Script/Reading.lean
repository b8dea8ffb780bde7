import TypedClient.Factory
import TypedClient.Proofs.Script.Scanner
import TypedClient.Proofs.Text.Identifiers

/-! How texts that are put together are read.

A text is read the same in every bracket. One that ends between two tokens can be followed by any
other; one that ends in a word can be followed by what does not go on with the word.
-/

set_option autoImplicit false

namespace TypedClient.Script

open Text (isIdentifierChar Usable)

variable {text first second : String} {tokens more : List Token}

namespace State
variable {state next last : State} {characters rest : List Char}

theorem advance?_append (begun : state.advance? characters = some (tokens, next))
    (others : next.advance? rest = some (more, last)) :
    state.advance? (characters ++ rest) = some (tokens ++ more, last) := by
  induction characters generalizing state tokens with
  | nil =>
    obtain ⟨rfl, rfl⟩ : [] = tokens ∧ state = next := by simpa [advance?] using begun
    exact others
  | cons c characters ih =>
    simp only [advance?, Option.bind_eq_bind, Option.bind_eq_some_iff, Prod.exists] at begun
    obtain ⟨read, middle, step, remaining, stopped, found, result⟩ := begun
    cases result
    have further := ih found
    simp only [List.cons_append, advance?, step, further, Option.bind_eq_bind, Option.bind_some,
      List.append_assoc]
    rfl

theorem advance?_cons {c : Char} (step : state.step? c = some (tokens, next))
    (others : next.advance? rest = some (more, last)) :
    state.advance? (c :: rest) = some (tokens ++ more, last) := by
  simp [advance?, step, others]

end State

def Whole (text : String) (tokens : List Token) : Prop :=
  ∀ frames, (State.mk .code frames).advance? text.toList = some (tokens, ⟨.code, frames⟩)

def Reads (text : String) (tokens : List Token) : Prop :=
  Whole text tokens ∨ ∃ front read, tokens = front ++ [.word (String.ofList read)] ∧
    ∀ frames, (State.mk .code frames).advance? text.toList = some (front, ⟨.word read, frames⟩)

/-- The text does not go on with a word before it. -/
def apart (text : String) : Bool := text.toList.head?.any fun c => !isIdentifierChar c

section Joining

theorem apart_append (begins : apart first = true) (second : String) :
    apart (first ++ second) = true := by
  unfold apart at begins ⊢
  rw [String.toList_append, List.head?_append]
  cases found : first.toList.head? with
  | none =>
    rw [found] at begins
    cases begins
  | some c =>
    rw [found] at begins
    exact begins

/-- A word ends before a character that is not part of words. -/
theorem advance?_word_of_apart {read : List Char} {frames : List Frame} {last : State}
    (begins : apart text = true)
    (found : (State.mk .code frames).advance? text.toList = some (tokens, last)) :
    (State.mk (.word read) frames).advance? text.toList =
      some (.word (String.ofList read) :: tokens, last) := by
  unfold apart at begins
  cases spelled : text.toList with
  | nil =>
    rw [spelled] at begins
    cases begins
  | cons c rest =>
    rw [spelled] at begins found
    have other : isIdentifierChar c = false := by simpa using begins
    simp only [State.advance?, State.step?, other, Bool.false_eq_true, if_false,
      Option.bind_eq_bind, Option.bind_eq_some_iff, Prod.exists] at found ⊢
    obtain ⟨read, middle, step, remaining, stopped, further, result⟩ := found
    cases result
    exact ⟨_, middle, by rw [step]; rfl, remaining, last, further, rfl⟩

theorem Whole.append (whole : Whole first tokens) (others : Whole second more) :
    Whole (first ++ second) (tokens ++ more) := by
  intro frames
  rw [String.toList_append]
  exact State.advance?_append (whole frames) (others frames)

theorem Whole.append_reads (whole : Whole first tokens) (others : Reads second more) :
    Reads (first ++ second) (tokens ++ more) := by
  obtain others | ⟨front, read, rfl, others⟩ := others
  · exact .inl (whole.append others)
  · refine .inr ⟨tokens ++ front, read, (List.append_assoc _ _ _).symm, ?_⟩
    intro frames
    rw [String.toList_append]
    exact State.advance?_append (whole frames) (others frames)

theorem Reads.advance?_append {frames : List Frame} {last : State} (reads : Reads first tokens)
    (begins : apart second = true)
    (found : (State.mk .code frames).advance? second.toList = some (more, last)) :
    (State.mk .code frames).advance? (first ++ second).toList = some (tokens ++ more, last) := by
  rw [String.toList_append]
  obtain whole | ⟨front, read, rfl, begun⟩ := reads
  · exact State.advance?_append (whole frames) found
  · rw [List.append_assoc]
    exact State.advance?_append (begun frames) (advance?_word_of_apart begins found)

theorem Reads.append_whole (reads : Reads first tokens) (others : Whole second more)
    (begins : apart second = true) : Whole (first ++ second) (tokens ++ more) :=
  fun frames => reads.advance?_append begins (others frames)

theorem Reads.append (reads : Reads first tokens) (others : Reads second more)
    (begins : apart second = true) : Reads (first ++ second) (tokens ++ more) := by
  obtain others | ⟨back, read, rfl, others⟩ := others
  · exact .inl (reads.append_whole others begins)
  · obtain whole | ⟨front, word, rfl, begun⟩ := reads
    · exact whole.append_reads (.inr ⟨back, read, rfl, others⟩)
    · refine .inr ⟨front ++ .word (String.ofList word) :: back, read, by simp, ?_⟩
      intro frames
      rw [String.toList_append]
      exact State.advance?_append (begun frames) (advance?_word_of_apart begins (others frames))

theorem tokens?_of_reads (reads : Reads text tokens) : tokens? text = some tokens := by
  unfold tokens? State.start
  obtain whole | ⟨front, read, rfl, begun⟩ := reads
  · rw [whole []]
    change some (tokens ++ []) = some tokens
    rw [List.append_nil]
  · rw [begun []]
    rfl

end Joining

section Words

theorem advance?_usable {characters read : List Char} (frames : List Frame)
    (usable : Usable characters) : (State.mk (.word read) frames).advance? characters =
      some ([], ⟨.word (read ++ characters), frames⟩) := by
  induction characters generalizing read with
  | nil => simp [State.advance?]
  | cons c rest ih =>
    obtain ⟨begins, others⟩ := Text.usable_cons.mp usable
    have step : (State.mk (.word read) frames).step? c =
        some ([], ⟨.word (read ++ [c]), frames⟩) := by
      simp [State.step?, begins]
    simpa using State.advance?_cons step (ih others)

theorem begin?_identifierChar {c : Char} (frames : List Frame) (usable : isIdentifierChar c = true) :
    State.begin? frames c = some ([], ⟨.word [c], frames⟩) := by
  have plain : c ≠ '\n' ∧ TypeScript.isBlank c = false ∧ c ≠ '\x7b' ∧ c ≠ '\x7d' ∧ c ≠ '\x60' ∧ c ≠ '\'' ∧
      c ≠ '"' :=
    Text.identifierChar_cases
      (motive := fun c => c ≠ '\n' ∧ TypeScript.isBlank c = false ∧ c ≠ '\x7b' ∧ c ≠ '\x7d' ∧ c ≠ '\x60' ∧
        c ≠ '\'' ∧ c ≠ '"')
      (by decide) usable
  simp [State.begin?, plain, usable]

theorem reads_word (nonempty : text ≠ "") (usable : Usable text.toList) :
    Reads text [.word text] := by
  cases spelled : text.toList with
  | nil => exact absurd (String.toList_eq_nil_iff.mp spelled) nonempty
  | cons c rest =>
    rw [spelled] at usable
    obtain ⟨begins, others⟩ := Text.usable_cons.mp usable
    refine .inr ⟨[], c :: rest, ?_, ?_⟩
    · rw [← spelled, String.ofList_toList]
      rfl
    · intro frames
      rw [spelled]
      have step : (State.mk .code frames).step? c = some ([], ⟨.word [c], frames⟩) :=
        begin?_identifierChar frames begins
      exact State.advance?_cons step (advance?_usable frames others)

theorem reads_identifier (legal : Text.isIdentifier text = true) : Reads text [.word text] := by
  apply reads_word
  · rintro rfl
    cases legal
  · exact Text.usable_of_isIdentifierList legal

end Words

section Literals

theorem advance?_escapeChar (c : Char) (read : List Char) (frames : List Frame) :
    (State.mk (.text '\'' read) frames).advance? (Text.escapeChar .single c) =
      some ([], ⟨.text '\'' (read ++ [c]), frames⟩) := by
  unfold Text.escapeChar
  split_ifs with backslash feed carriage delimiter
  · rw [backslash]
    rfl
  · rw [feed]
    rfl
  · rw [carriage]
    rfl
  · rw [delimiter]
    rfl
  · have other : ¬ c = '\'' := delimiter
    simp [State.advance?, State.step?, backslash, feed, carriage, other]

theorem advance?_escapeChars (characters read : List Char) (frames : List Frame) :
    (State.mk (.text '\'' read) frames).advance? (Text.escapeChars .single characters) =
      some ([], ⟨.text '\'' (read ++ characters), frames⟩) := by
  induction characters generalizing read with
  | nil => simp [State.advance?]
  | cons c rest ih =>
    rw [Text.escapeChars_cons]
    simpa using State.advance?_append (advance?_escapeChar c read frames) (ih (read ++ [c]))

/-- A literal is read back, whatever is in it. -/
theorem whole_literal (value : String) : Whole (Factory.literal value) [.text value] := by
  intro frames
  have opens : (State.mk .code frames).step? '\'' = some ([], ⟨.text '\'' [], frames⟩) := rfl
  have closes : (State.mk (.text '\'' value.toList) frames).advance? ['\''] =
      some ([.text value], ⟨.code, frames⟩) := by
    simp [State.advance?, State.step?]
  have spelled : (Factory.literal value).toList =
      '\'' :: (Text.escapeChars .single value.toList ++ ['\'']) := Text.toList_quote .single value
  rw [spelled]
  exact State.advance?_cons opens
    (State.advance?_append (advance?_escapeChars value.toList [] frames) closes)

end Literals

section Templates

/-- In a template the text is read to its end. What has been read of the current chunk grows from
`begun` to `left`. -/
def Fills (begun : List Char) (text : String) (tokens : List Token) (left : List Char) : Prop :=
  ∀ frames, (State.mk (.template begun) frames).advance? text.toList =
    some (tokens, ⟨.template left, frames⟩)

variable {begun middle left : List Char}

theorem Fills.append (fills : Fills begun first tokens middle) (others : Fills middle second more left) :
    Fills begun (first ++ second) (tokens ++ more) left := by
  intro frames
  rw [String.toList_append]
  exact State.advance?_append (fills frames) (others frames)

theorem Reads.hole (reads : Reads text tokens) (begun : List Char) :
    Fills begun ("$\x7b" ++ text ++ "\x7d")
      (.chunk (String.ofList begun) :: .openHole :: (tokens ++ [.closeHole])) [] := by
  intro frames
  have dollar : (State.mk (.template begun) frames).step? '$' =
      some ([], ⟨.dollar begun, frames⟩) := rfl
  have opens : (State.mk (.dollar begun) frames).step? '\x7b' =
      some ([.chunk (String.ofList begun), .openHole], ⟨.code, .hole :: frames⟩) := rfl
  have closes : (State.mk .code (.hole :: frames)).advance? "\x7d".toList =
      some ([.closeHole], ⟨.template [], frames⟩) := rfl
  rw [String.append_assoc, String.toList_append]
  exact State.advance?_cons dollar
    (State.advance?_cons opens (reads.advance?_append rfl closes))

theorem Fills.template (fills : Fills [] text tokens left) :
    Whole ("\x60" ++ text ++ "\x60") (tokens ++ [.chunk (String.ofList left), .endTemplate]) := by
  intro frames
  have opens : (State.mk .code frames).advance? "\x60".toList =
      some ([], ⟨.template [], frames⟩) := rfl
  have closes : (State.mk (.template left) frames).advance? "\x60".toList =
      some ([.chunk (String.ofList left), .endTemplate], ⟨.code, frames⟩) := rfl
  have found := State.advance?_append opens (State.advance?_append (fills frames) closes)
  rw [List.nil_append, ← String.toList_append, ← String.toList_append, ← String.append_assoc] at found
  exact found

end Templates

section Brackets

/-- What is in braces is read as it is outside of them. -/
theorem Reads.braces (reads : Reads text tokens) :
    Whole ("\x7b" ++ text ++ "\x7d") (.mark '\x7b' :: (tokens ++ [.mark '\x7d'])) := by
  intro frames
  have opens : (State.mk .code frames).step? '\x7b' =
      some ([.mark '\x7b'], ⟨.code, .brace :: frames⟩) := rfl
  have closes : (State.mk .code (.brace :: frames)).advance? "\x7d".toList =
      some ([.mark '\x7d'], ⟨.code, frames⟩) := rfl
  rw [String.append_assoc, String.toList_append]
  exact State.advance?_cons opens (reads.advance?_append rfl closes)

end Brackets

end TypedClient.Script
