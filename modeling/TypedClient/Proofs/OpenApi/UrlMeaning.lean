import TypedClient.Proofs.OpenApi.FetchTrees
import TypedClient.Proofs.OpenApi.UrlTemplate
import TypedClient.Proofs.Script.Templates
import TypedClient.Proofs.Text.Pages

/-! What the url of a request means.

The template of a url is read back: its holes are for the address, for parameters and for the query, and
between them are characters. This is what the path says that it is cut from.
-/

set_option autoImplicit false

namespace TypedClient.OpenApi.FetchClient

open Factory (literal)
open Script

section Meaning

inductive UrlMeaning where
  | characters (content : String)
  | address
  /-- What is reached through the members of the argument, as a text and encoded. -/
  | value (members : List String)
  | query
  deriving DecidableEq, Repr

/-- The members of a chain, each of which may be missing, with the ends of two calls behind it. -/
def encodedMembers? : List Token → Option (List String)
  | [.mark ')', .mark ')'] => some []
  | .mark '?' :: .mark '.' :: .word name :: rest => (encodedMembers? rest).map (name :: ·)
  | .mark '?' :: .mark '.' :: .mark '[' :: .text name :: .mark ']' :: rest =>
    (encodedMembers? rest).map (name :: ·)
  | _ => none

def meaning? : TemplatePart → Option UrlMeaning
  | .chunk value => some (.characters value)
  | .hole [.word "url"] => some .address
  | .hole (.word "encodeURIComponent" :: .mark '(' :: .word "String" :: .mark '(' :: .word "request" ::
      rest) => (encodedMembers? rest).map .value
  -- The query has a template in its hole; no other code belongs to a url.
  | .hole code => if code = queryTokens then some .query else none

def readUrl? (text : String) : Option (List UrlMeaning) := do
  (← templateParts? text).mapM meaning?

def UrlMeaning.part : UrlMeaning → TemplatePart
  | characters content => .chunk content
  | address => .hole [.word "url"]
  | value members => .hole (valueTokens ⟨members⟩)
  | query => .hole queryTokens

theorem encodedMembers?_append (name : String) (rest : List Token) :
    encodedMembers? (memberTokens name ++ rest) = (encodedMembers? rest).map (name :: ·) := by
  unfold memberTokens
  split <;> rfl

theorem meaning?_part (meaning : UrlMeaning) : meaning? meaning.part = some meaning := by
  cases meaning with
  | characters | address | query => rfl
  | value members =>
    have chain : encodedMembers? (members.flatMap memberTokens ++ [.mark ')', .mark ')']) =
        some members := by
      induction members with
      | nil => rfl
      | cons name rest ih => rw [List.flatMap_cons, List.append_assoc, encodedMembers?_append, ih]; rfl
    change (encodedMembers? (members.flatMap memberTokens ++ [.mark ')', .mark ')'])).map _ = _
    rw [chain]
    rfl

theorem mapM_meaning?_part (meanings : List UrlMeaning) :
    (meanings.map UrlMeaning.part).mapM meaning? = some meanings := by
  induction meanings with
  | nil => rfl
  | cons meaning rest ih => simp [meaning?_part, ih]

end Meaning

section Cuts
variable {path more rest before name : List Char} {pieces : List UrlPart}

/-- The pieces of a path. A parameter is named from a brace up to the next one that closes. What stands
outside, and also a brace without a closing one with all that follows it, is text. -/
inductive Cuts : List Char → List UrlPart → Prop where
  | plain {text : List Char} : '{' ∉ text → Cuts text [.text (String.ofList text)]
  | unmatched {before behind : List Char} : '{' ∉ before → '}' ∉ behind →
      Cuts (before ++ '{' :: behind) [.text (String.ofList (before ++ '{' :: behind))]
  | hole {before name rest : List Char} {pieces : List UrlPart} : '{' ∉ before → '}' ∉ name →
      Cuts rest pieces → Cuts (before ++ '{' :: (name ++ '}' :: rest))
        (.text (String.ofList before) :: .parameter (String.ofList name) :: pieces)

/-- Every path has its pieces: a hole leaves a shorter rest. -/
theorem exists_cuts (path : List Char) : ∃ pieces, Cuts path pieces := by
  induction hlength : path.length using Nat.strongRecOn generalizing path with
  | ind length ih =>
    by_cases opens : '{' ∈ path
    · obtain ⟨before, behind, rfl, first⟩ := List.eq_append_cons_of_mem opens
      -- Without a closing brace the scan is over, else it goes on behind the hole.
      by_cases closes : '}' ∈ behind
      · obtain ⟨name, rest, rfl, next⟩ := List.eq_append_cons_of_mem closes
        have shorter : rest.length < length := by
          simp only [List.length_append, List.length_cons] at hlength
          omega
        obtain ⟨pieces, cuts⟩ := ih _ shorter rest rfl
        exact ⟨_, .hole first next cuts⟩
      · exact ⟨_, .unmatched first closes⟩
    · exact ⟨_, .plain opens⟩

theorem cutPath_append (plain : '{' ∉ more) (before rest : List Char) :
    cutPath before none (more ++ rest) = cutPath (more.reverse ++ before) none rest := by
  induction more generalizing before with
  | nil => rfl
  | cons c more ih =>
    obtain ⟨other, others⟩ := List.ne_and_not_mem_of_not_mem_cons plain
    rw [List.cons_append, cutPath, if_neg (Ne.symm other), ih others, List.reverse_cons, List.append_assoc]
    rfl

theorem cutPath_append_some (inside : '}' ∉ more) (before name rest : List Char) :
    cutPath before (some name) (more ++ rest) = cutPath before (some (more.reverse ++ name)) rest := by
  induction more generalizing name with
  | nil => rfl
  | cons c more ih =>
    obtain ⟨other, others⟩ := List.ne_and_not_mem_of_not_mem_cons inside
    rw [List.cons_append, cutPath, if_neg (Ne.symm other), ih others, List.reverse_cons, List.append_assoc]
    rfl

theorem cutPath_of_cuts (cuts : Cuts path pieces) : cutPath [] none path = pieces := by
  induction cuts with
  | plain absent =>
    have through := cutPath_append absent [] []
    rw [List.append_nil] at through
    rw [through]
    simp [cutPath]
  | @unmatched before _ first inside =>
    have through := cutPath_append_some inside (before.reverse ++ []) [] []
    rw [cutPath_append first, cutPath, if_pos rfl]
    simpa [cutPath] using through
  | hole first next _ ih =>
    rw [cutPath_append first, cutPath, if_pos rfl, cutPath_append_some next, cutPath, if_pos rfl, ih]
    simp

/-- Cutting a path gives its pieces, and there is no other way to cut it. -/
theorem cuts_iff : Cuts path pieces ↔ pieces = cutPath [] none path := by
  constructor
  · exact fun cuts => (cutPath_of_cuts cuts).symm
  · rintro rfl
    obtain ⟨others, cuts⟩ := exists_cuts path
    rwa [cutPath_of_cuts cuts]

def UrlPart.taken : UrlPart → List Char
  | text content => content.toList
  | parameter name => name.toList
  | query => []

theorem taken_subset_of_cuts (cuts : Cuts path pieces) : ∀ piece ∈ pieces, piece.taken ⊆ path := by
  induction cuts with
  | plain | unmatched =>
    intro piece listed
    obtain rfl := List.mem_singleton.mp listed
    rw [UrlPart.taken, String.toList_ofList]
    exact List.Subset.refl _
  | @hole before name rest pieces _ _ _ ih =>
    intro piece listed
    rcases listed with _ | ⟨_, _ | ⟨_, later⟩⟩
    · rw [UrlPart.taken, String.toList_ofList]
      exact List.subset_append_left _ _
    · rw [UrlPart.taken, String.toList_ofList]
      intro c inside
      simp [inside]
    · intro c inside
      have behind := ih piece later inside
      simp [behind]

end Cuts

section Breaks
variable {text first second name subject path : String} {pieces : List UrlPart}

/-- No line break of the text is spelled with a carriage return. -/
def PlainBreaks (text : String) : Prop := '\r' ∉ text.toList

instance (text : String) : Decidable (PlainBreaks text) := inferInstanceAs (Decidable (¬ _))

theorem PlainBreaks.append (plain : PlainBreaks first) (others : PlainBreaks second) :
    PlainBreaks (first ++ second) := by
  unfold PlainBreaks
  rw [String.toList_append, List.mem_append]
  exact not_or.mpr ⟨plain, others⟩

theorem PlainBreaks.memberText (plain : PlainBreaks subject) (plainName : PlainBreaks name) :
    PlainBreaks (memberText subject name) := by
  have link : PlainBreaks "?." := by decide
  have opens : PlainBreaks "?.[" := by decide
  have closes : PlainBreaks "]" := by decide
  unfold FetchClient.memberText
  split_ifs
  · exact (plain.append link).append plainName
  · exact ((plain.append opens).append (not_mem_quote (.inr rfl) .single name)).append closes

theorem PlainBreaks.parameterAccess (plain : PlainBreaks name) (fullRequest : Bool) :
    PlainBreaks (parameterAccess fullRequest .path name).text := by
  have argument : PlainBreaks "request" := by decide
  have group : PlainBreaks "path" := by decide
  cases fullRequest
  · exact argument.memberText plain
  · exact (argument.memberText group).memberText plain

theorem plainBreaks_replaceChars (plain : PlainBreaks text) :
    PlainBreaks (Text.replaceChars escapeTemplateChar text) := by
  unfold PlainBreaks Text.replaceChars
  rw [String.toList_ofList]
  intro inside
  obtain ⟨c, listed, escaped⟩ := List.mem_flatMap.mp inside
  unfold escapeTemplateChar at escaped
  split_ifs at escaped with special
  · simp only [List.mem_cons, List.not_mem_nil, or_false] at escaped
    rcases escaped with backslash | rfl
    · exact absurd backslash (by decide)
    · exact plain listed
  · rw [List.mem_singleton] at escaped
    exact plain (escaped ▸ listed)

theorem plainBreaks_template (fullRequest : Bool) {piece : UrlPart} (plain : '\r' ∉ piece.taken) :
    PlainBreaks (piece.template fullRequest) := by
  cases piece with
  | text content => exact plainBreaks_replaceChars plain
  | parameter name =>
    have opens : PlainBreaks "$\x7bencodeURIComponent(String(" := by decide
    have closes : PlainBreaks "))\x7d" := by decide
    exact (opens.append (PlainBreaks.parameterAccess plain fullRequest)).append closes
  | query =>
    -- The query is the same for both kinds of requests.
    have written : PlainBreaks ("$\x7bquery ? `?$\x7bquery\x7d` : " ++ literal "" ++ "\x7d") := by decide
    exact written

theorem plainBreaks_join {texts : List String} (plain : ∀ text ∈ texts, PlainBreaks text) :
    PlainBreaks (Text.join "" texts) := by
  induction texts with
  | nil => exact List.not_mem_nil
  | cons text rest ih =>
    rw [join_empty_cons]
    exact (plain text List.mem_cons_self).append (ih fun other listed => plain other (.tail _ listed))

/-- What is written for a path has only the line breaks of the path. -/
theorem PlainBreaks.urlTemplate (plain : PlainBreaks path) (fullRequest withQuery : Bool) :
    PlainBreaks (urlTemplate fullRequest path withQuery) := by
  have opens : PlainBreaks "`$\x7burl\x7d" := by decide
  have closes : PlainBreaks "`" := by decide
  refine (opens.append (plainBreaks_join fun text listed => ?_)).append closes
  obtain ⟨piece, inside, rfl⟩ := List.mem_map.mp listed
  apply plainBreaks_template
  rcases List.mem_append.mp inside with taken | query
  · exact fun inside => plain (taken_subset_of_cuts (cuts_iff.mpr rfl) piece taken inside)
  · cases withQuery with
    | false => cases query
    | true =>
      obtain rfl := List.mem_singleton.mp query
      exact List.not_mem_nil

end Breaks

section Template
variable {path : List Char} {pieces : List UrlPart}

def UrlPart.meaning (fullRequest : Bool) : UrlPart → UrlMeaning
  | text content => .characters content
  | parameter name => .value (if fullRequest then ["path", name] else [name])
  | query => .query

def queryMeanings (withQuery : Bool) : List UrlMeaning :=
  if withQuery then [.query, .characters ""] else []

theorem shut_memberTokens (name : String) : Shut (memberTokens name) := by
  apply shut_of_inert
  unfold memberTokens
  split <;> simp [Token.inert]

theorem shut_valueTokens (access : Access) : Shut (valueTokens access) := by
  have before : Shut [.word "encodeURIComponent", .mark '(', .word "String", .mark '('] :=
    shut_of_inert (by decide)
  have argument : Shut [.word "request"] := shut_of_inert (by decide)
  have behind : Shut [.mark ')', .mark ')'] := shut_of_inert (by decide)
  have links : Shut (access.members.flatMap memberTokens) := by
    induction access.members with
    | nil => exact .nil
    | cons name rest ih => exact (shut_memberTokens name).append ih
  exact (before.append (argument.append links)).append behind

theorem shut_queryTokens : Shut queryTokens := by
  have before : Shut [.word "query", .mark '?', .chunk "?"] := shut_of_inert (by decide)
  have inside : Shut [.word "query"] := shut_of_inert (by decide)
  have behind : Shut [.chunk "", .endTemplate, .mark ':', .text ""] := shut_of_inert (by decide)
  exact (before.append inside.hole).append behind

/-- The tokens behind the address are those of the pieces, one part for each. -/
theorem partsFrom?_partTokens (cuts : Cuts path pieces) (fullRequest withQuery : Bool) :
    partsFrom? none (partTokens fullRequest [] (pieces ++ if withQuery then [.query] else [])) =
      some ((pieces.map (UrlPart.meaning fullRequest) ++ queryMeanings withQuery).map
        UrlMeaning.part) := by
  -- What follows the last hole of the path is a text, and then the query if there is one.
  have last (content : String) : partsFrom? none (partTokens fullRequest content.toList
      (if withQuery then [.query] else [])) =
        some (.chunk content :: (queryMeanings withQuery).map UrlMeaning.part) := by
    cases withQuery with
    | false => simp [partTokens, partsFrom?, queryMeanings]
    | true =>
      have written : partTokens fullRequest content.toList [.query] = .chunk content :: .openHole ::
          (queryTokens ++ .closeHole :: [.chunk "", .endTemplate]) := by
        simp [partTokens]
      rw [if_pos rfl, written, shut_queryTokens.partsFrom?]
      rfl
  induction cuts with
  | plain | unmatched => exact last _
  | @hole before name rest pieces _ _ _ ih =>
    -- The text and the hole are read off, and the rest of the path begins a new chunk.
    have access : parameterAccess fullRequest .path (String.ofList name) =
        ⟨if fullRequest then ["path", String.ofList name] else [String.ofList name]⟩ := by
      cases fullRequest <;> rfl
    have written : partTokens fullRequest [] (.text (String.ofList before) ::
        .parameter (String.ofList name) :: (pieces ++ if withQuery then [.query] else [])) =
        .chunk (String.ofList before) :: .openHole ::
          (valueTokens (parameterAccess fullRequest .path (String.ofList name)) ++
            .closeHole :: partTokens fullRequest [] (pieces ++ if withQuery then [.query] else [])) := by
      simp [partTokens]
    rw [List.cons_append, List.cons_append, written, (shut_valueTokens _).partsFrom?, ih, access]
    rfl

theorem readUrl?_urlTemplate {path : String} (plain : PlainBreaks path)
    (cuts : Cuts path.toList pieces) (fullRequest withQuery : Bool) :
    readUrl? (urlTemplate fullRequest path withQuery) = some (.characters "" :: .address ::
      (pieces.map (UrlPart.meaning fullRequest) ++ queryMeanings withQuery)) := by
  -- The template is read as it is written, since its line breaks are those of the path.
  have breaks : plainBreaks (urlTemplate fullRequest path withQuery).toList =
      (urlTemplate fullRequest path withQuery).toList :=
    plainBreaks_of_not_mem (plain.urlTemplate fullRequest withQuery)
  have tokens := tokens?_of_reads (.inl (whole_urlTemplate fullRequest path withQuery))
  have address : Shut [.word "url"] := shut_of_inert (by decide)
  have written : urlTokens fullRequest path withQuery = .chunk "" :: .openHole :: ([.word "url"] ++
      .closeHole :: partTokens fullRequest [] (pieces ++ if withQuery then [.query] else [])) := by
    rw [cuts_iff.mp cuts]
    rfl
  have parts : partsFrom? none (urlTokens fullRequest path withQuery) =
      some (List.map UrlMeaning.part (.characters "" :: .address ::
        (pieces.map (UrlPart.meaning fullRequest) ++ queryMeanings withQuery))) := by
    rw [written, address.partsFrom?, partsFrom?_partTokens cuts]
    rfl
  unfold readUrl? templateParts?
  rw [breaks, String.ofList_toList, tokens]
  change (partsFrom? none _).bind _ = _
  rw [parts]
  exact mapM_meaning?_part _

/-- The request of an operation goes to a url that means its path: at the address stand the pieces of the
path, with the parameters of their names, and behind them the query if there are parameters for it. -/
theorem url_means_path (dialect : Dialect) (model : OperationModel)
    (plain : PlainBreaks model.operation.path) : ∃ url options pieces,
      .block ("const response = await globalThis.fetch(" ++ url ++ ", ") options ")" ∈
        operationBody dialect model ∧
      (∀ others, Cuts model.operation.path.toList others ↔ others = pieces) ∧
      readUrl? url = some (.characters "" :: .address ::
        (pieces.map (UrlPart.meaning dialect.fullRequest) ++
          if ∃ parameter ∈ model.operation.parameters, parameter.location = .query then
            [.query, .characters ""]
          else [])) := by
  have parameters : (!(model.operation.parametersIn .query).isEmpty) =
      decide (∃ parameter ∈ model.operation.parameters, parameter.location = .query) := by
    rw [Bool.eq_iff_iff]
    simp [Operation.parametersIn]
  refine ⟨urlTemplate dialect.fullRequest model.operation.path
    (!(model.operation.parametersIn .query).isEmpty), commaLines (fetchOptions dialect model),
    cutPath [] none model.operation.path.toList, ?_, fun others => cuts_iff, ?_⟩
  · simp [operationBody]
  · rw [readUrl?_urlTemplate plain (cuts_iff.mpr rfl), parameters, queryMeanings]
    simp only [decide_eq_true_eq]

/-- A path with the characters that a template escapes, an opening brace in a name, a closing one outside of
names, and an opening one that none closes. -/
def bracedOperation : OperationModel where
  operation := ⟨"/a`$\\/\x7bid\x7d\x7d\x7bx\x7b'y\x7d$\x7bz", .get, "getBraced",
    [⟨"id", .path, true, none⟩, ⟨"page", .query, false, none⟩], none, []⟩
  request := ⟨.unknown, true, none⟩
  alternatives := []

theorem bracedOperation_means_path : PlainBreaks bracedOperation.operation.path ∧ ∃ url options,
    .block ("const response = await globalThis.fetch(" ++ url ++ ", ") options ")" ∈
      operationBody ⟨false, true, false, false⟩ bracedOperation ∧
    readUrl? url = some [.characters "", .address, .characters "/a`$\\/", .value ["path", "id"],
      .characters "\x7d", .value ["path", "x\x7b'y"], .characters "$\x7bz", .query, .characters ""] := by
  have plain : PlainBreaks bracedOperation.operation.path := by decide
  have cuts : Cuts bracedOperation.operation.path.toList [.text "/a`$\\/", .parameter "id", .text "\x7d",
      .parameter "x\x7b'y", .text "$\x7bz"] :=
    @Cuts.hole ['/', 'a', '\x60', '$', '\\', '/'] ['i', 'd'] _ _ (by decide) (by decide)
      (@Cuts.hole ['}'] ['x', '{', '\'', 'y'] _ _ (by decide) (by decide)
        (@Cuts.unmatched ['$'] ['z'] (by decide) (by decide)))
  obtain ⟨url, options, pieces, listed, only, read⟩ :=
    url_means_path ⟨false, true, false, false⟩ bracedOperation plain
  obtain rfl := (only _).mp cuts
  exact ⟨plain, url, options, listed, read⟩

end Template

end TypedClient.OpenApi.FetchClient
