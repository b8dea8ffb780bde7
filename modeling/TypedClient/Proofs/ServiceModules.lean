import TypedClient.Proofs.ClientTrees
import TypedClient.Proofs.Script.Pages

/-! The modules of clients on the service package, as code.

Such a module imports a builder, and exports a function that passes options to it. One of them is
the path of a file that stands beside the module.
-/

set_option autoImplicit false

namespace TypedClient

open Script

namespace Script

/-- The files that a module names behind its own folder, in lists of arguments. -/
def siblingFiles : List Token → List String
  | .mark '(' :: .word "__dirname" :: .mark ',' :: .text file :: .mark ')' :: rest =>
    file :: siblingFiles rest
  | .mark '(' :: .word "import" :: .mark '.' :: .word "meta" :: .mark '.' :: .word "dirname" ::
      .mark ',' :: .text file :: .mark ')' :: rest => file :: siblingFiles rest
  | _ :: rest => siblingFiles rest
  | [] => []

def siblingFiles? (text : String) : Option (List String) :=
  (tokens? text).map fun tokens => siblingFiles (unbroken tokens)

theorem siblingFiles?_render {items : List Item} {tokens : List Token}
    (spells : Item.Spells items tokens) :
    siblingFiles? (Item.render Style.standard items) = some (siblingFiles (unbroken tokens)) := by
  obtain ⟨read, reads, same⟩ := spells.tokens?_render
  rw [siblingFiles?, reads, Option.map_some, same]

end Script

theorem ClientName.reads_factory (text : String) :
    Reads (ofText text).factory [.word (ofText text).factory] := by
  apply reads_word _ (usable_factory text)
  intro empty
  have begins : (ofText text).factory = "generate" ++ ((ofText text).interface ++ "Client") :=
    String.append_assoc
  rw [begins, String.append_eq_empty_iff] at empty
  exact absurd empty.1 (by decide)

namespace Factory
variable {format : ModuleFormat} {body : List Item} {inside : List Token}

section Options

def pathTokens (format : ModuleFormat) (file : String) : List Token :=
  match format with
  | .esm => [.word "join", .mark '(', .word "import", .mark '.', .word "meta", .mark '.',
      .word "dirname", .mark ',', .text file, .mark ')']
  | .cjs => [.word "join", .mark '(', .word "__dirname", .mark ',', .text file, .mark ')']

theorem whole_siblingPath (format : ModuleFormat) (file : String) :
    Whole (siblingPath format file) (pathTokens format file) := by
  have closes : Whole ")" [.mark ')'] := fun _ => rfl
  cases format with
  | esm =>
    have opens : Whole ("join(" ++ "import.meta.dirname" ++ ", ")
        [.word "join", .mark '(', .word "import", .mark '.', .word "meta", .mark '.',
          .word "dirname", .mark ','] := fun _ => rfl
    exact (opens.append (whole_literal file)).append closes
  | cjs =>
    have opens : Whole ("join(" ++ "__dirname" ++ ", ")
        [.word "join", .mark '(', .word "__dirname", .mark ','] := fun _ => rfl
    exact (opens.append (whole_literal file)).append closes

theorem oneLine_siblingPath (format : ModuleFormat) (file : String) :
    OneLine (siblingPath format file) := by
  have literals := oneLine_literal file
  cases format <;> exact oneLine_append.mpr ⟨oneLine_append.mpr ⟨by decide, literals⟩, by decide⟩

def optionTokens (key : String) (value : List Token) : List Token :=
  .word key :: .mark ':' :: (value ++ [.mark ',', .lineEnd])

/-- An option whose value does not end in a word. -/
theorem spells_option {key value : String} {tokens : List Token}
    (begins : Whole (key ++ ": ") [.word key, .mark ':']) (oneKey : OneLine (key ++ ": "))
    (whole : Whole value tokens) (oneValue : OneLine value) :
    Item.Spells [.line (key ++ ": " ++ value ++ ",")] (optionTokens key tokens) := by
  have comma : Whole "," [.mark ','] := fun _ => rfl
  have same : optionTokens key tokens =
      [.word key, .mark ':'] ++ tokens ++ [.mark ','] ++ [.lineEnd] := by
    simp [optionTokens]
  rw [same]
  exact .line (.inl ((begins.append whole).append comma))
    (oneLine_append.mpr ⟨oneLine_append.mpr ⟨oneKey, oneValue⟩, by decide⟩)

/-- Every factory gives the builder a name and the path of a file. -/
theorem spells_options (format : ModuleFormat) (identifier file : String) :
    Item.Spells [.line ("name: " ++ literal identifier ++ ","),
        .line ("path: " ++ siblingPath format file ++ ",")]
      (optionTokens "name" [.text identifier] ++ optionTokens "path" (pathTokens format file)) :=
  (@spells_option "name" _ _ (fun _ => rfl) (by decide) (whole_literal identifier)
    (oneLine_literal identifier)).append
    (@spells_option "path" _ _ (fun _ => rfl) (by decide) (whole_siblingPath format file)
      (oneLine_siblingPath format file))

end Options

section Modules

def importTokens (format : ModuleFormat) (builder : String) : List Token :=
  let bring (name source : String) := match format with
    | .esm => [.word "import", .mark '\x7b', .word name, .mark '\x7d', .word "from", .text source,
        .lineEnd]
    | .cjs => [.word "const", .mark '\x7b', .word name, .mark '\x7d', .mark '=', .word "require",
        .mark '(', .text source, .mark ')', .lineEnd]
  bring builder package ++ bring "join" "node:path"

def builders : List String := ["buildOpenAPIClient", "buildGraphQLClient"]

theorem spells_imports : ∀ builder ∈ builders,
    Item.Spells (imports format builder) (importTokens format builder) := by
  have closed : ∀ builder ∈ builders,
      Item.tokensOf? (imports format builder) = some (importTokens format builder) ∧
        ∀ text ∈ Item.textsOf (imports format builder), OneLine text := by
    cases format <;> decide +kernel
  exact fun builder known => ⟨(closed builder known).1, (closed builder known).2⟩

def openingTokens (format : ModuleFormat) (factory : String) : List Token :=
  match format with
  | .esm => [.word "export", .word "async", .word "function", .word factory, .mark '(',
      .word "opts", .mark ')']
  | .cjs => [.word "async", .word "function", .word factory, .mark '(', .word "opts", .mark ')']

def exportTokens (format : ModuleFormat) (factory : String) : List Token :=
  match format with
  | .esm => [.word "export", .word "default", .word factory, .lineEnd]
  | .cjs =>
    [.word "module", .mark '.', .word "exports", .mark '=', .word factory, .lineEnd,
     .word "module", .mark '.', .word "exports", .mark '.', .word "default", .mark '=',
     .word factory, .lineEnd,
     .word "module", .mark '.', .word "exports", .mark '.', .word factory, .mark '=',
     .word factory, .lineEnd]

variable (text : String)

theorem spells_function (spells : Item.Spells body inside) :
    Item.Spells [function format (.ofText text) body]
      (blockTokens (openingTokens format (ClientName.ofText text).factory) inside []) := by
  have reads := ClientName.reads_factory text
  have single := oneLine_of_usable (ClientName.usable_factory text)
  have opts : Whole " (opts)" [.mark '(', .word "opts", .mark ')'] := fun _ => rfl
  have nothing : Whole "" [] := fun _ => rfl
  cases format with
  | esm =>
    have lead : Whole ("export " ++ "async function ") [.word "export", .word "async",
      .word "function"] := fun _ => rfl
    exact .block (.inl ((lead.append_reads reads).append_whole opts rfl))
      (oneLine_append.mpr ⟨oneLine_append.mpr ⟨by decide, single⟩, by decide⟩) spells
      (.inl nothing) (by decide)
  | cjs =>
    have lead : Whole ("" ++ "async function ") [.word "async", .word "function"] := fun _ => rfl
    exact .block (.inl ((lead.append_reads reads).append_whole opts rfl))
      (oneLine_append.mpr ⟨oneLine_append.mpr ⟨by decide, single⟩, by decide⟩) spells
      (.inl nothing) (by decide)

theorem spells_exports : Item.Spells (exports format (.ofText text))
    (exportTokens format (ClientName.ofText text).factory) := by
  have reads := ClientName.reads_factory text
  have single := oneLine_of_usable (ClientName.usable_factory text)
  have ends : ∀ {lead : String} {tokens : List Token}, Whole lead tokens → OneLine lead →
      Item.Spells [.line (lead ++ (ClientName.ofText text).factory)]
        (tokens ++ [.word (ClientName.ofText text).factory] ++ [.lineEnd]) :=
    fun whole oneLead => .line (whole.append_reads reads) (oneLine_append.mpr ⟨oneLead, single⟩)
  cases format with
  | esm =>
    have lead : Whole "export default " [.word "export", .word "default"] := fun _ => rfl
    exact .blank (ends lead (by decide))
  | cjs =>
    have whole : Whole "module.exports = " [.word "module", .mark '.', .word "exports",
      .mark '='] := fun _ => rfl
    have standard : Whole "module.exports.default = " [.word "module", .mark '.', .word "exports",
      .mark '.', .word "default", .mark '='] := fun _ => rfl
    have own : Whole "module.exports." [.word "module", .mark '.', .word "exports", .mark '.'] :=
      fun _ => rfl
    have equals : Whole " = " [.mark '='] := fun _ => rfl
    have named := ends ((own.append_reads reads).append_whole equals rfl)
      (oneLine_append.mpr ⟨oneLine_append.mpr ⟨by decide, single⟩, by decide⟩)
    exact .blank (((ends whole (by decide)).append (ends standard (by decide))).append named)

def moduleTokens (format : ModuleFormat) (builder factory : String) (inside : List Token) :
    List Token :=
  importTokens format builder ++ blockTokens (openingTokens format factory) inside [] ++
    exportTokens format factory

theorem spells_module (format : ModuleFormat) {builder : String} (known : builder ∈ builders)
    (spells : Item.Spells body inside) :
    Item.Spells (imports format builder ++ [function format (.ofText text) body] ++
        exports format (.ofText text))
      (moduleTokens format builder (ClientName.ofText text).factory inside) :=
  ((spells_imports builder known).append (spells_function text spells)).append (spells_exports text)

end Modules

end Factory

section Clients
open Factory

variable (settings : Settings) (text : String)

theorem OpenApi.ServiceClient.siblingFiles?_implementation :
    siblingFiles? (Page.render Style.standard (implementationSteps settings (.ofText text))) =
      some [documentFile text] := by
  rw [← stepsOf_implementationItems]
  have type : Item.Spells [.line ("type: " ++ literal "openapi" ++ ",")]
      [.word "type", .mark ':', .text "openapi", .mark ',', .lineEnd] :=
    ⟨by decide +kernel, by decide +kernel⟩
  have given : Item.Spells [.line "url: opts.url,", .line "serviceId: opts.serviceId,",
      .line "throwOnError: opts.throwOnError,"]
      [.word "url", .mark ':', .word "opts", .mark '.', .word "url", .mark ',', .lineEnd,
       .word "serviceId", .mark ':', .word "opts", .mark '.', .word "serviceId", .mark ',', .lineEnd,
       .word "throwOnError", .mark ':', .word "opts", .mark '.', .word "throwOnError", .mark ',',
       .lineEnd] :=
    ⟨by decide +kernel, by decide +kernel⟩
  have flags : ∀ key ∈ ["fullResponse", "fullRequest", "validateResponse"], ∀ value : Bool,
      Item.Spells [.line (key ++ ": " ++ boolText value ++ ",")]
        [.word key, .mark ':', .word (boolText value), .mark ',', .lineEnd] := by
    have closed : ∀ key ∈ ["fullResponse", "fullRequest", "validateResponse"], ∀ value : Bool,
        Item.tokensOf? [.line (key ++ ": " ++ boolText value ++ ",")] =
            some [.word key, .mark ':', .word (boolText value), .mark ',', .lineEnd] ∧
          OneLine (key ++ ": " ++ boolText value ++ ",") := by
      decide +kernel
    exact fun key known value =>
      ⟨(closed key known value).1, List.forall_mem_singleton.mpr (closed key known value).2⟩
  have headers : Item.Spells [.line "getHeaders: opts.getHeaders"] [.word "getHeaders", .mark ':',
      .word "opts", .mark '.', .word "getHeaders", .lineEnd] :=
    ⟨by decide +kernel, by decide +kernel⟩
  have opens : Whole "return buildOpenAPIClient(" [.word "return", .word "buildOpenAPIClient",
    .mark '('] := fun _ => rfl
  have closes : Whole ")" [.mark ')'] := fun _ => rfl
  have options := spells_options settings.moduleFormat (ClientName.ofText text).identifier
    (documentFile text)
  have body := type.append (options.append (given.append
    ((flags "fullResponse" (by decide) settings.fullResponse).append
      ((flags "fullRequest" (by decide) settings.fullRequest).append
        ((flags "validateResponse" (by decide) settings.validateResponse).append headers)))))
  have call := Item.Spells.block (.inl opens) (by decide) body (.inl closes) (by decide)
  -- What is left is to look for paths in the tokens of the module, where both names are opaque.
  refine (siblingFiles?_render (spells_module text settings.moduleFormat (by decide) call)).trans ?_
  cases settings.moduleFormat <;> rfl

theorem GraphQl.ServiceClient.siblingFiles?_implementation (path : String) :
    siblingFiles? (Page.render Style.standard (implementationSteps settings (.ofText text) path)) =
      some [documentFile text] := by
  rw [← stepsOf_implementationItems]
  have url : Item.Spells [.line "const url = new URL(opts.url)"] [.word "const", .word "url",
      .mark '=', .word "new", .word "URL", .mark '(', .word "opts", .mark '.', .word "url",
      .mark ')', .lineEnd] :=
    ⟨by decide +kernel, by decide +kernel⟩
  have assigns : Whole "url.pathname = " [.word "url", .mark '.', .word "pathname", .mark '='] :=
    fun _ => rfl
  have pathname := Item.Spells.line (.inl (assigns.append (whole_literal path)))
    (oneLine_append.mpr ⟨by decide, oneLine_literal path⟩)
  have type : Item.Spells [.line ("type: " ++ literal "graphql" ++ ",")]
      [.word "type", .mark ':', .text "graphql", .mark ',', .lineEnd] :=
    ⟨by decide +kernel, by decide +kernel⟩
  have others : Item.Spells [.line "serviceId: opts.serviceId,", .line "url: url.toString()"]
      [.word "serviceId", .mark ':', .word "opts", .mark '.', .word "serviceId", .mark ',',
        .lineEnd, .word "url", .mark ':', .word "url", .mark '.', .word "toString", .mark '(',
        .mark ')', .lineEnd] :=
    ⟨by decide +kernel, by decide +kernel⟩
  have opens : Whole "return buildGraphQLClient(" [.word "return", .word "buildGraphQLClient",
    .mark '('] := fun _ => rfl
  have closes : Whole ")" [.mark ')'] := fun _ => rfl
  have options := spells_options settings.moduleFormat (ClientName.ofText text).identifier
    (documentFile text)
  have call := Item.Spells.block (.inl opens) (by decide) (type.append (options.append others))
    (.inl closes) (by decide)
  have body := url.append (pathname.append call)
  refine (siblingFiles?_render (spells_module text settings.moduleFormat (by decide) body)).trans ?_
  cases settings.moduleFormat <;> rfl

end Clients

end TypedClient
