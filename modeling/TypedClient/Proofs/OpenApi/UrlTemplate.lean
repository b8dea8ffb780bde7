import TypedClient.OpenApi.FetchClient.Access
import TypedClient.Proofs.Script.Accesses

/-! How the reads of an argument, and the template of a url, are read.

A template is read into what its parts say: texts become the characters between holes, whatever is
in them, and a parameter becomes a hole that reads the argument.
-/

set_option autoImplicit false

namespace TypedClient.OpenApi.FetchClient

open Script

section Access

def memberTokens (name : String) : List Token :=
  if Text.isIdentifier name then [.mark '?', .mark '.', .word name]
  else [.mark '?', .mark '.', .mark '[', .text name, .mark ']']

def Access.tokens (access : Access) : List Token :=
  .word "request" :: access.members.flatMap memberTokens

variable {subject : String} {tokens : List Token}

theorem reads_memberText (reads : Reads subject tokens) (name : String) :
    Reads (memberText subject name) (tokens ++ memberTokens name) := by
  unfold memberText memberTokens
  split
  case isTrue bare =>
    have link : Whole "?." [.mark '?', .mark '.'] := fun _ => rfl
    have found := (reads.append_whole link rfl).append_reads (reads_identifier bare)
    rw [List.append_assoc] at found
    exact found
  case isFalse =>
    have opens : Whole "?.[" [.mark '?', .mark '.', .mark '['] := fun _ => rfl
    have closes : Whole "]" [.mark ']'] := fun _ => rfl
    have found := ((reads.append_whole opens rfl).append (whole_literal name)).append closes
    rw [List.append_assoc, List.append_assoc] at found
    exact .inl found

theorem Access.reads_text (access : Access) : Reads access.text access.tokens := by
  unfold Access.text Access.tokens
  rw [← List.singleton_append]
  have reads : Reads "request" [.word "request"] := reads_identifier (by decide)
  generalize "request" = subject at reads ⊢
  revert reads
  generalize [Token.word subject] = tokens
  induction access.members generalizing subject tokens with
  | nil => 
    intro reads
    simpa using reads
  | cons name rest ih =>
    intro reads
    rw [List.foldl_cons, List.flatMap_cons, ← List.append_assoc]
    exact ih _ _ (reads_memberText reads name)

theorem chain_memberTokens (name : String) (rest : List Token) :
    chain (memberTokens name ++ rest) = name :: chain rest := by
  unfold memberTokens
  split <;> simp [chain]

theorem accesses_memberTokens (name : String) (rest : List Token) :
    accesses subject (memberTokens name ++ rest) = accesses subject rest := by
  unfold memberTokens
  split <;> simp [accesses]

/-- An access goes on with what is behind it. -/
theorem accesses_access (access : Access) (rest : List Token) :
    accesses subject (access.tokens ++ rest) =
      if "request" = subject then (access.members ++ chain rest) :: accesses subject rest
      else accesses subject rest := by
  have members : ∀ names : List String,
      chain (names.flatMap memberTokens ++ rest) = names ++ chain rest ∧
        accesses subject (names.flatMap memberTokens ++ rest) = accesses subject rest := by
    intro names
    induction names with
    | nil => exact ⟨rfl, rfl⟩
    | cons name names ih =>
      rw [List.flatMap_cons, List.append_assoc, chain_memberTokens, accesses_memberTokens, ih.1, ih.2]
      exact ⟨rfl, rfl⟩
  rw [Access.tokens, List.cons_append, accesses, (members _).1, (members _).2]

end Access

section Template

def valueTokens (access : Access) : List Token :=
  [.word "encodeURIComponent", .mark '(', .word "String", .mark '('] ++ access.tokens ++
    [.mark ')', .mark ')']

def queryTokens : List Token :=
  [.word "query", .mark '?', .chunk "?", .openHole, .word "query", .closeHole, .chunk "", .endTemplate,
    .mark ':', .text ""]

/-- The rest of a template, in whose current chunk some characters have been read. -/
def partTokens (fullRequest : Bool) : List Char → List UrlPart → List Token
  | begun, [] => [.chunk (String.ofList begun), .endTemplate]
  | begun, .text content :: rest => partTokens fullRequest (begun ++ content.toList) rest
  | begun, .parameter name :: rest =>
    .chunk (String.ofList begun) :: .openHole ::
      (valueTokens (parameterAccess fullRequest .path name) ++
        .closeHole :: partTokens fullRequest [] rest)
  | begun, .query :: rest =>
    .chunk (String.ofList begun) :: .openHole ::
      (queryTokens ++ .closeHole :: partTokens fullRequest [] rest)

def urlTokens (fullRequest : Bool) (path : String) (withQuery : Bool) : List Token :=
  [.chunk "", .openHole, .word "url", .closeHole] ++
    partTokens fullRequest [] (urlParts path withQuery)

theorem fills_escapeTemplateChar (c : Char) (begun : List Char) (frames : List Frame) :
    (State.mk (.template begun) frames).advance? (escapeTemplateChar c) =
      some ([], ⟨.template (begun ++ [c]), frames⟩) := by
  unfold escapeTemplateChar
  split
  case isTrue special =>
    rcases special with rfl | rfl | rfl <;> rfl
  case isFalse plain =>
    simp only [not_or] at plain
    simp [State.advance?, State.step?, State.inTemplate, plain]

/-- A text is read back in a template, whatever is in it. -/
theorem fills_content (content : String) (begun : List Char) :
    Fills begun (Text.replaceChars escapeTemplateChar content) [] (begun ++ content.toList) := by
  intro frames
  unfold Text.replaceChars
  rw [String.toList_ofList]
  induction content.toList generalizing begun with
  | nil => simp [State.advance?]
  | cons c rest ih =>
    simpa using State.advance?_append (fills_escapeTemplateChar c begun frames) (ih (begun ++ [c]))

theorem reads_value (access : Access) :
    Reads ("encodeURIComponent(String(" ++ access.text ++ "))") (valueTokens access) := by
  have opens : Whole "encodeURIComponent(String("
      [.word "encodeURIComponent", .mark '(', .word "String", .mark '('] := fun _ => rfl
  have closes : Whole "))" [.mark ')', .mark ')'] := fun _ => rfl
  exact .inl ((opens.append_reads access.reads_text).append_whole closes rfl)

theorem reads_query :
    Reads ("query ? `?$\x7bquery\x7d` : " ++ Factory.literal "") queryTokens := by
  have opens : Whole "query ? `?$\x7bquery\x7d` : " [.word "query", .mark '?', .chunk "?", .openHole,
      .word "query", .closeHole, .chunk "", .endTemplate, .mark ':'] := fun _ => rfl
  exact .inl (opens.append (whole_literal ""))

theorem join_empty_cons (first : String) (rest : List String) :
    Text.join "" (first :: rest) = first ++ Text.join "" rest := by
  cases rest with
  | nil => simp
  | cons second rest => simp [Text.join_cons_cons]

theorem fills_parameter (fullRequest : Bool) (name : String) (begun : List Char) :
    Fills begun ((UrlPart.parameter name).template fullRequest)
      (.chunk (String.ofList begun) :: .openHole ::
        (valueTokens (parameterAccess fullRequest .path name) ++ [.closeHole])) [] := by
  have opens : "$\x7bencodeURIComponent(String(" = "$\x7b" ++ "encodeURIComponent(String(" := rfl
  have closes : "))\x7d" = "))" ++ "\x7d" := rfl
  have hole := (reads_value (parameterAccess fullRequest .path name)).hole begun
  unfold UrlPart.template
  rw [opens, closes]
  simpa only [String.append_assoc] using hole

theorem fills_query (fullRequest : Bool) (begun : List Char) :
    Fills begun (UrlPart.query.template fullRequest)
      (.chunk (String.ofList begun) :: .openHole :: (queryTokens ++ [.closeHole])) [] := by
  have opens : "$\x7bquery ? `?$\x7bquery\x7d` : " = "$\x7b" ++ "query ? `?$\x7bquery\x7d` : " := rfl
  have hole := reads_query.hole begun
  unfold UrlPart.template
  rw [opens]
  simpa only [String.append_assoc] using hole

theorem fills_parts (fullRequest : Bool) (parts : List UrlPart) (begun : List Char) :
    ∃ tokens left,
      Fills begun (Text.join "" (parts.map (UrlPart.template fullRequest))) tokens left ∧
        partTokens fullRequest begun parts =
          tokens ++ [.chunk (String.ofList left), .endTemplate] := by
  induction parts generalizing begun with
  | nil => exact ⟨[], begun, fun _ => rfl, rfl⟩
  | cons part rest ih =>
    rw [List.map_cons, join_empty_cons]
    cases part with
    | text content =>
      obtain ⟨tokens, left, fills, same⟩ := ih (begun ++ content.toList)
      exact ⟨tokens, left, (fills_content content begun).append fills, same⟩
    | parameter name =>
      obtain ⟨tokens, left, fills, same⟩ := ih []
      refine ⟨_, left, (fills_parameter fullRequest name begun).append fills, ?_⟩
      simp [partTokens, same]
    | query =>
      obtain ⟨tokens, left, fills, same⟩ := ih []
      refine ⟨_, left, (fills_query fullRequest begun).append fills, ?_⟩
      simp [partTokens, same]

theorem whole_urlTemplate (fullRequest : Bool) (path : String) (withQuery : Bool) :
    Whole (urlTemplate fullRequest path withQuery) (urlTokens fullRequest path withQuery) := by
  obtain ⟨tokens, left, fills, same⟩ := fills_parts fullRequest (urlParts path withQuery) []
  have address : Fills [] "$\x7burl\x7d" [.chunk "", .openHole, .word "url", .closeHole] [] :=
    fun _ => rfl
  have whole := (address.append fills).template
  have opens : "`$\x7burl\x7d" = "\x60" ++ "$\x7burl\x7d" := rfl
  rw [List.append_assoc, ← same, ← String.append_assoc, ← opens] at whole
  exact whole

end Template

end TypedClient.OpenApi.FetchClient
