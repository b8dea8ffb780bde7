import TypedClient.Proofs.TypeScript.Symbols

/-! Declarations over several lines say what they say on one.

What items add to a page is made of the symbols of their texts, whatever the indentation. The members of
an object type have the same symbols line by line as one behind the other, but for the last semicolon,
which a brace follows.
-/

set_option autoImplicit false

namespace TypedClient.TypeScript

open Text (QuoteStyle)

section Texts
variable {type : TypeExpr} (quotes : QuoteStyle)

theorem closed_digits {text : String}
    (digits : ∀ c ∈ text.toList, c.isDigit = true ∨ c = '-' ∨ c = '.') : Closed text := by
  refine closed_of_plain fun c member => ?_
  rcases digits c member with digit | rfl | rfl
  · have usable : Text.isIdentifierChar c = true := by
      simp [Text.isIdentifierChar, Char.isAlphanum, digit]
    exact Text.identifierChar_cases (motive := fun c => isQuote c = false ∧ c ≠ '\n') (by decide) usable
  · decide
  · decide

theorem closed_literal (value : Literal) : Closed (value.text quotes) := by
  cases value with
  | string value => exact closed_quote quotes value
  | integer value =>
    refine closed_digits fun c member => ?_
    rw [Literal.text, Text.toList_intToString, List.mem_append] at member
    rcases member with sign | digits
    · split at sign
      · exact .inr (.inl (List.mem_singleton.mp sign))
      · cases sign
    · exact .inl (Text.isDigit_of_mem_toDigits digits)
  -- Digits, a sign and a point; none of them opens a literal.
  | number value =>
    obtain ⟨whole, fraction, written, text⟩ := Decimal.exists_digits value
    refine closed_digits fun c member => ?_
    change c ∈ ((Decimal.Layout.plain .up).render value).toList at member
    rw [text, Decimal.pointed, List.mem_append, List.mem_append] at member
    rcases member with sign | digits | point
    · split at sign
      · exact .inr (.inl (List.mem_singleton.mp sign))
      · cases sign
    · exact .inl (written.wholeDigits c digits)
    · split at point
      · cases point
      · rcases List.mem_cons.mp point with rfl | digits
        · exact .inr (.inr rfl)
        · exact .inl (written.fractionDigits c digits)
  | infinity negative =>
    have word : Closed (if negative then "-inf" else "inf") := by cases negative <;> decide
    exact word
  | notANumber =>
    have word : Closed "NaN" := by decide
    exact word
  | boolean value =>
    have word : Closed (if value then "true" else "false") := by cases value <;> decide
    exact word
  | null =>
    have word : Closed "null" := by decide
    exact word

theorem closed_key (name : String) (optional : Bool) : Closed (memberKey quotes name optional) := by
  have mark : Closed (if optional then "?" else "") := by cases optional <;> decide
  exact (closed_quote quotes name).append mark

theorem closed_fieldText {field : Field} (closed : Closed (field.type.text quotes)) :
    Closed (TypeExpr.fieldText quotes field) :=
  ((closed_key quotes field.name field.optional).append (by decide)).append closed

/-- A type in which all names are identifiers ends outside of literals. -/
theorem closed_text (legal : ∀ name, type.Mentions name → Text.isIdentifier name = true) :
    Closed (type.text quotes) := by
  induction type using TypeExpr.induction with
  | scalar kind =>
    have word : Closed kind.text := by cases kind <;> decide
    exact word
  | array item ih =>
    have inside := ih fun name mentions => legal name (.item mentions)
    exact (Closed.append (by decide) inside).append (by decide)
  | object fields ih =>
    cases fields with
    | nil =>
      have braces : Closed "\x7b\x7d" := by decide
      exact braces
    | cons field rest =>
      rw [TypeExpr.text, TypeExpr.fieldTexts_eq_map]
      refine (Closed.append (by decide) (Closed.join (by decide) ?_)).append (by decide)
      intro text member
      obtain ⟨inside, listed, rfl⟩ := List.mem_map.mp member
      exact closed_fieldText quotes (ih inside listed fun name mentions =>
        legal name (.field listed mentions))
  | reference name => exact closed_of_isIdentifier (legal name .reference)
  | union members ih =>
    rw [TypeExpr.text, TypeExpr.texts_eq_map]
    refine Closed.join (by decide) fun text member => ?_
    obtain ⟨inside, listed, rfl⟩ := List.mem_map.mp member
    exact ih inside listed fun name mentions => legal name (.alternative listed mentions)
  | intersection members ih =>
    rw [TypeExpr.text, TypeExpr.operandTexts_eq_map]
    refine Closed.join (by decide) fun text member => ?_
    obtain ⟨inside, listed, rfl⟩ := List.mem_map.mp member
    have closed := ih inside listed fun name mentions => legal name (.part listed mentions)
    unfold TypeExpr.operandText
    split
    · exact (Closed.append (by decide) closed).append (by decide)
    · exact closed
  | literal value => exact closed_literal quotes value
  | record values ih =>
    have inside := ih fun name mentions => legal name (.values mentions)
    exact (Closed.append (by decide) inside).append (by decide)
  | generic name arguments ih =>
    rw [TypeExpr.text, TypeExpr.texts_eq_map]
    have head := closed_of_isIdentifier (legal name .generic)
    refine ((head.append (by decide)).append (Closed.join (by decide) ?_)).append (by decide)
    intro text member
    obtain ⟨inside, listed, rfl⟩ := List.mem_map.mp member
    exact ih inside listed fun name mentions => legal name (.argument listed mentions)

end Texts

end TypedClient.TypeScript

namespace TypedClient

open TypeScript

mutual

def Item.symbols : Item → List Symbol
  | .line text => textSymbols text
  | .blank => []
  | .block header body suffix =>
    textSymbols header ++ .code '\x7b' ::
      (Item.symbolsOf body ++ .code '\x7d' :: textSymbols suffix)

def Item.symbolsOf : List Item → List Symbol
  | [] => []
  | item :: rest => item.symbols ++ Item.symbolsOf rest

end

/-- Whatever page the items are put on, they add these symbols to it. -/
def Item.Adds (style : Style) (items : List Item) (added : List Symbol) : Prop :=
  ∀ page : Page, ∃ text,
    (page.run style (Item.stepsOf items)).text.toList = page.text.toList ++ text ∧
      (page.run style (Item.stepsOf items)).depth = page.depth ∧ HasSymbols text added

namespace Item

variable {style : Style} {items others body : List Item} {first second : List Symbol}
  {header suffix text : String}

theorem Adds.nil : Adds style [] [] := fun _ => ⟨[], (List.append_nil _).symm, rfl, rfl, rfl⟩

theorem Adds.append (adds : Adds style items first) (further : Adds style others second) :
    Adds style (items ++ others) (first ++ second) := by
  intro page
  obtain ⟨text, added, same, has⟩ := adds page
  obtain ⟨text', added', same', has'⟩ := further (page.run style (stepsOf items))
  refine ⟨text ++ text', ?_, ?_, has.append has'⟩
  · rw [stepsOf_append, Page.run_append, added', added, List.append_assoc]
  · rw [stepsOf_append, Page.run_append, same', same]

theorem Adds.blank : Adds style [.blank] [] := by
  intro page
  obtain added | added := page.text_blank
  · exact ⟨[], added.trans (List.append_nil _).symm, page.depth_blank, rfl, rfl⟩
  · exact ⟨['\n'], added, page.depth_blank, rfl, rfl⟩

/-- A text behind an indentation and before the end of its line. -/
theorem hasSymbols_indented (count : Nat) (closed : Closed text) :
    HasSymbols (List.replicate count ' ' ++ (text.toList ++ ['\n'])) (textSymbols text) := by
  have feed : HasSymbols ['\n'] [] := ⟨rfl, rfl⟩
  simpa using (hasSymbols_blanks count).append (closed.hasSymbols.append feed)

theorem Adds.line (closed : Closed text) : Adds style [.line text] (textSymbols text) := by
  intro page
  have added := @Page.text_line style text page
  rw [Text.splitAt_of_stays fun c inside => by simpa using ne_of_mem_of_not_mem inside closed.2,
    List.flatMap_singleton, Page.ruledLine] at added
  refine ⟨_, added, rfl, ?_⟩
  -- An empty line is not indented.
  split_ifs with empty
  · have nothing := hasSymbols_indented 0 closed
    rw [List.isEmpty_iff.mp empty] at nothing
    exact nothing
  · rw [List.append_assoc]
    exact hasSymbols_indented _ closed

/-- What opens a block behind its header, whether or not there is a space in it. -/
theorem hasSymbols_opening {space : String} (isSpace : space = "" ∨ space = " ") :
    HasSymbols ((space ++ "\x7b").toList ++ ['\n']) [.code '\x7b'] := by
  rcases isSpace with rfl | rfl <;> exact ⟨rfl, rfl⟩

/-- A block whose header may be any text, which nothing is read from. -/
theorem exists_block (header : String) (adds : Adds style body first) (closes : Closed suffix)
    (page : Page) : ∃ rest,
    (page.run style (stepsOf [.block header body suffix])).text.toList = page.text.toList ++
        (List.replicate (style.indentWidth * page.depth) ' ' ++ (header.toList ++ rest)) ∧
      (page.run style (stepsOf [.block header body suffix])).depth = page.depth ∧
      HasSymbols rest (.code '\x7b' :: (first ++ .code '\x7d' :: textSymbols suffix)) := by
  obtain ⟨space, isSpace, opened⟩ := @Page.text_openBlock style header page
  obtain ⟨text, added, deeper, has⟩ := adds (page.openBlock style header)
  have closed := @Page.text_closeBlock style suffix
    ((page.openBlock style header).run style (stepsOf body))
  rw [added, opened, String.toList_append] at closed
  simp only [List.append_assoc] at closed
  have steps : page.run style (stepsOf [.block header body suffix]) =
      ((page.openBlock style header).run style (stepsOf body)).closeBlock style suffix := by
    simp only [stepsOf, Item.steps, List.append_nil, Page.run_cons, Page.run_append, Page.run_nil,
      Page.step]
  have brace : Closed "\x7d" := by decide
  have ending := hasSymbols_indented
    (style.indentWidth * (((page.openBlock style header).run style (stepsOf body)).depth - 1))
    (brace.append closes)
  rw [brace.textSymbols_append] at ending
  rw [steps]
  refine ⟨_, closed, ?_, ?_⟩
  · change ((page.openBlock style header).run style (stepsOf body)).depth - 1 = _
    rw [deeper]
    rfl
  · have whole := (hasSymbols_opening isSpace).append (has.append ending)
    rwa [List.append_assoc] at whole

theorem Adds.block (opens : Closed header) (adds : Adds style body first) (closes : Closed suffix) :
    Adds style [.block header body suffix]
      (textSymbols header ++ .code '\x7b' :: (first ++ .code '\x7d' :: textSymbols suffix)) := by
  intro page
  obtain ⟨rest, added, same, has⟩ := exists_block header adds closes page
  exact ⟨_, added, same, (hasSymbols_blanks _).append (opens.hasSymbols.append has)⟩

mutual

theorem adds_symbols (item : Item) (closed : ∀ text ∈ item.texts, Closed text) :
    Adds style [item] item.symbols := by
  cases item with
  | line text => exact .line (closed text (.head _))
  | blank => exact .blank
  | block header body suffix =>
    have inside := adds_symbolsOf body fun text member => closed text (.tail _ (.tail _ member))
    exact .block (closed header (.head _)) inside (closed suffix (.tail _ (.head _)))

/-- What items add to a page has the symbols of their texts in every style. -/
theorem adds_symbolsOf (items : List Item) (closed : ∀ text ∈ textsOf items, Closed text) :
    Adds style items (symbolsOf items) := by
  cases items with
  | nil => exact .nil
  | cons item rest =>
    have own := adds_symbols item fun text member => closed text (List.mem_append_left _ member)
    have others := adds_symbolsOf rest fun text member => closed text (List.mem_append_right _ member)
    exact own.append others

end

end Item

end TypedClient

namespace TypedClient.TypeScript

open Text (QuoteStyle)

/-- Equal once they are settled, whatever stands behind them. -/
def Alike (first second : List Symbol) : Prop :=
  ∀ rest, first.foldr settle rest = second.foldr settle rest

section Alike
variable {first second more others : List Symbol}

theorem Alike.refl (symbols : List Symbol) : Alike symbols symbols := fun _ => rfl

theorem Alike.append (alike : Alike first second) (behind : Alike more others) :
    Alike (first ++ more) (second ++ others) := by
  intro rest
  rw [List.foldr_append, List.foldr_append, behind, alike]

theorem Alike.trans (alike : Alike first second) (further : Alike second more) : Alike first more :=
  fun rest => (alike rest).trans (further rest)

theorem alike_semicolon : Alike [.code ';', .code '\x7d'] [.code '\x7d'] := fun _ => rfl

end Alike

/-- The item is the text with a semicolon behind it, perhaps over several lines. -/
structure LaysOut (item : Item) (text : String) : Prop where
  closed : Closed text
  closedParts : ∀ part ∈ item.texts, Closed part
  alike : Alike item.symbols (textSymbols text ++ [.code ';'])

section Members
variable {quotes : QuoteStyle} {key text : String} {items : List Item} {fields : List Field}
  {type : TypeExpr}

theorem laysOut_line (closed : Closed text) : LaysOut (.line (text ++ ";")) text where
  closed := closed
  closedParts := List.forall_mem_singleton.mpr (closed.append (by decide))
  alike := by
    rw [Item.symbols, closed.textSymbols_append]
    exact .refl _

theorem laysOut_typeLine (closedKey : Closed key)
    (legal : ∀ name, type.Mentions name → Text.isIdentifier name = true) :
    LaysOut (.line (key ++ ": " ++ type.text quotes ++ ";")) (key ++ ": " ++ type.text quotes) :=
  laysOut_line ((closedKey.append (by decide)).append (closed_text quotes legal))

/-- A block in the place of an object type on one line. -/
theorem laysOut_block (closedKey : Closed key) (closed : Closed text)
    (closedItems : ∀ part ∈ Item.textsOf items, Closed part)
    (alike : Alike (.code '\x7b' :: (Item.symbolsOf items ++ [.code '\x7d'])) (textSymbols text)) :
    LaysOut (.block (key ++ ":") items ";") (key ++ ": " ++ text) where
  closed := (closedKey.append (by decide)).append closed
  closedParts := List.forall_mem_cons.mpr ⟨closedKey.append (by decide),
    List.forall_mem_cons.mpr ⟨by decide, closedItems⟩⟩
  alike := by
    have colon : Closed ": " := by decide
    have inline : textSymbols (key ++ ": " ++ text) ++ [.code ';'] =
        (textSymbols key ++ [.code ':']) ++ (textSymbols text ++ [.code ';']) := by
      rw [(closedKey.append colon).textSymbols_append, closedKey.textSymbols_append,
        List.append_assoc _ (textSymbols text)]
      rfl
    have block : (Item.block (key ++ ":") items ";").symbols = (textSymbols key ++ [.code ':']) ++
        ((.code '\x7b' :: (Item.symbolsOf items ++ [.code '\x7d'])) ++ [.code ';']) := by
      have mark : textSymbols ":" = [.code ':'] := rfl
      have ending : textSymbols ";" = [.code ';'] := rfl
      simp only [Item.symbols, closedKey.textSymbols_append, mark, ending, List.append_assoc,
        List.cons_append, List.nil_append]
    rw [inline, block]
    exact (Alike.refl _).append (alike.append (.refl _))

theorem fieldItems_cons (field : Field) (rest : List Field) : fieldItems quotes (field :: rest) =
    memberItem quotes (memberKey quotes field.name field.optional) field.type ::
      fieldItems quotes rest := by
  cases field
  rw [fieldItems]

/-- Members in lines of their own, before a brace, are the members one behind the other. -/
theorem alike_fieldItems (laid : ∀ field ∈ fields,
      LaysOut (memberItem quotes (memberKey quotes field.name field.optional) field.type)
        (TypeExpr.fieldText quotes field)) :
    (∀ part ∈ Item.textsOf (fieldItems quotes fields), Closed part) ∧
      Alike (Item.symbolsOf (fieldItems quotes fields) ++ [.code '\x7d'])
        (textSymbols (Text.join "; " (fields.map (TypeExpr.fieldText quotes))) ++
          [.code '\x7d']) := by
  induction fields with
  | nil => exact ⟨List.forall_mem_nil _, .refl _⟩
  | cons field rest ih =>
    obtain ⟨own, others⟩ := List.forall_mem_cons.mp laid
    obtain ⟨closedRest, alike⟩ := ih others
    rw [fieldItems_cons]
    refine ⟨List.forall_mem_append.mpr ⟨own.closedParts, closedRest⟩, ?_⟩
    rw [Item.symbolsOf, List.append_assoc]
    refine (own.alike.append alike).trans ?_
    rw [List.append_assoc]
    cases rest with
    | nil => exact (Alike.refl _).append alike_semicolon
    | cons next rest =>
      -- The semicolon that ends a member on its line is the one in front of the next.
      have separator : Closed "; " := by decide
      have apart : textSymbols "; " = [.code ';'] := rfl
      simp only [List.map_cons, Text.join_cons_cons, String.append_assoc]
      rw [own.closed.textSymbols_append, separator.textSymbols_append, apart, List.append_assoc,
        List.append_assoc]
      exact .refl _

/-- An object type over several lines, without what stands in front of it. -/
theorem alike_object (laid : ∀ field ∈ fields,
      LaysOut (memberItem quotes (memberKey quotes field.name field.optional) field.type)
        (TypeExpr.fieldText quotes field)) :
    (∀ part ∈ Item.textsOf (fieldItems quotes fields), Closed part) ∧
      Alike (.code '\x7b' :: (Item.symbolsOf (fieldItems quotes fields) ++ [.code '\x7d']))
        (textSymbols ((TypeExpr.object fields).text quotes)) := by
  obtain ⟨closedItems, alike⟩ := alike_fieldItems laid
  refine ⟨closedItems, ?_⟩
  cases fields with
  | nil =>
    rw [fieldItems, TypeExpr.text]
    exact .refl _
  | cons field rest =>
    have opening : Closed "\x7b " := by decide
    have closed : Closed (Text.join "; " ((field :: rest).map (TypeExpr.fieldText quotes))) :=
      Closed.join (by decide) (List.forall_mem_map.mpr fun field' listed => (laid field' listed).closed)
    rw [TypeExpr.text, TypeExpr.fieldTexts_eq_map, String.append_assoc, opening.textSymbols_append,
      closed.textSymbols_append]
    exact (Alike.refl [.code '\x7b']).append alike

/-- A member on its line, or in its block, is the member in an object type on one line. -/
theorem laysOut_memberItem (closedKey : Closed key)
    (legal : ∀ name, type.Mentions name → Text.isIdentifier name = true) :
    LaysOut (memberItem quotes key type) (key ++ ": " ++ type.text quotes) := by
  induction type using TypeExpr.induction generalizing key with
  | object fields ih =>
    cases fields with
    | nil =>
      have written : key ++ ": \x7b\x7d;" =
          key ++ ": " ++ (TypeExpr.object []).text quotes ++ ";" := by
        rw [String.append_assoc, String.append_assoc]
        rfl
      rw [memberItem, List.isEmpty_nil, if_pos rfl, written]
      exact laysOut_typeLine closedKey legal
    | cons field rest =>
      obtain ⟨closedItems, alike⟩ := alike_object fun field' listed =>
        ih field' listed (closed_key quotes field'.name field'.optional) fun name mentions =>
          legal name (.field listed mentions)
      rw [memberItem, List.isEmpty_cons, if_neg Bool.false_ne_true]
      exact laysOut_block closedKey (closed_text quotes legal) closedItems alike
  | scalar => exact laysOut_typeLine closedKey legal
  | array => exact laysOut_typeLine closedKey legal
  | reference => exact laysOut_typeLine closedKey legal
  | union => exact laysOut_typeLine closedKey legal
  | intersection => exact laysOut_typeLine closedKey legal
  | literal => exact laysOut_typeLine closedKey legal
  | record => exact laysOut_typeLine closedKey legal
  | generic => exact laysOut_typeLine closedKey legal

end Members

def Declaration.lead (declaration : Declaration) : String :=
  match declaration.body with
  | .interface _ => "export interface " ++ declaration.name
  | .alias _ => "export type " ++ declaration.name ++ " ="

theorem SameCode.append {text rest other : List Char} (same : SameCode rest other)
    (outside : Place.code.after text = .code) : SameCode (text ++ rest) (text ++ other) := by
  unfold SameCode
  rw [symbols_append, symbols_append, outside, List.foldr_append, List.foldr_append]
  exact congrArg (fun below => List.foldr settle below (symbols .code text)) same

section Declarations
variable {style : Style} {page : Page} (outermost : page.depth = 0)
include outermost

/-- A block is the object type of its members. -/
theorem exists_added_block {fields : List Field} (header : String)
    (legal : ∀ name, (TypeExpr.object fields).Mentions name → Text.isIdentifier name = true) :
    ∃ rest, (page.run style (Item.stepsOf
        [.block header (fieldItems style.quotes fields) ""])).text.toList =
          page.text.toList ++ (header.toList ++ rest) ∧
      SameCode rest ((TypeExpr.object fields).text style.quotes).toList := by
  have laid : ∀ field ∈ fields,
      LaysOut (memberItem style.quotes (memberKey style.quotes field.name field.optional) field.type)
        (TypeExpr.fieldText style.quotes field) :=
    fun field listed => laysOut_memberItem (closed_key _ field.name field.optional)
      fun name mentions => legal name (.field listed mentions)
  obtain ⟨closed, alike⟩ := alike_object laid
  have body : Item.Adds style _ _ := Item.adds_symbolsOf (fieldItems style.quotes fields) closed
  obtain ⟨rest, added, _, has⟩ := Item.exists_block header body (by decide : Closed "") page
  rw [outermost] at added
  refine ⟨rest, added, ?_⟩
  unfold SameCode
  rw [has.2]
  exact alike []

/-- Nothing is indented outside of blocks, on however many lines the text is. -/
theorem text_outermost_line (text : String) :
    (page.line style text).text.toList = page.text.toList ++ (text.toList ++ ['\n']) := by
  have flush : Page.ruledLine (style.indentWidth * 0) = (· ++ ['\n']) := by
    funext line
    cases line <;> rfl
  rw [Page.text_line, outermost, flush, Page.flatMap_splitAt]

/-- A line is its type, but for the semicolon that ends it. -/
theorem exists_added_aliasLine {type : TypeExpr} (name : String)
    (legal : ∀ name, type.Mentions name → Text.isIdentifier name = true) :
    ∃ rest, (page.run style (Item.stepsOf [aliasLine style.quotes name type])).text.toList =
        page.text.toList ++ (("export type " ++ name ++ " =").toList ++ rest) ∧
      SameCode rest (type.text style.quotes).toList := by
  have closed : Closed (type.text style.quotes) := closed_text style.quotes legal
  have ending : HasSymbols [';', '\n'] [.code ';'] := ⟨rfl, rfl⟩
  have has := (hasSymbols_blanks 1).append (closed.hasSymbols.append ending)
  refine ⟨[' '] ++ ((type.text style.quotes).toList ++ [';', '\n']), ?_, ?_⟩
  · refine (text_outermost_line outermost _).trans ?_
    simp only [aliasText, String.toList_append, List.append_assoc]
    rfl
  · unfold SameCode
    refine (congrArg (List.foldr settle []) has.2).trans ?_
    rw [List.nil_append, List.foldr_append]
    rfl

end Declarations

/-- A declaration over several lines is the one on a single line, but for its layout. Nothing is asked
of its own name, which both begin with. -/
theorem declaration_layout (style : Style) (declaration : Declaration)
    (legal : ∀ name, declaration.Mentions name → Text.isIdentifier name = true)
    {page : Page} (outermost : page.depth = 0) :
    ∃ written, (page.run style (declaration.steps style.quotes)).text.toList =
        page.text.toList ++ written ∧
      (∃ rest, written = declaration.lead.toList ++ rest ∧
        SameCode rest (declaration.body.type.text style.quotes).toList) ∧
      (Place.code.after declaration.lead.toList = .code → SameCode written
        (declaration.lead ++ " " ++ declaration.body.type.text style.quotes).toList) := by
  have layout : ∃ rest,
      (page.run style (declaration.steps style.quotes)).text.toList =
        page.text.toList ++ (declaration.lead.toList ++ rest) ∧
      SameCode rest (declaration.body.type.text style.quotes).toList := by
    rw [← Declaration.steps_item, ← List.append_nil (declaration.item style.quotes).steps]
    obtain ⟨name, fields | type⟩ := declaration
    · exact exists_added_block outermost ("export interface " ++ name) legal
    -- Only object types with members become blocks.
    · cases type with
      | object fields =>
        cases fields with
        | nil => exact exists_added_aliasLine outermost name legal
        | cons field fields => exact exists_added_block outermost ("export type " ++ name ++ " =") legal
      | _ => exact exists_added_aliasLine outermost name legal
  obtain ⟨rest, added, same⟩ := layout
  refine ⟨_, added, ⟨rest, rfl, same⟩, fun outside => ?_⟩
  rw [String.toList_append, String.toList_append, List.append_assoc]
  exact SameCode.append same outside

def shelf : Declaration := ⟨"Shelf", .interface [
  ⟨"it's", .object [⟨"at", .string, false⟩, ⟨"on", .reference "Shelf", true⟩], false⟩,
  ⟨"; \x7d", .array (.object [⟨"id", .number, false⟩]), true⟩]⟩

theorem shelf_layout :
    (∀ name, shelf.Mentions name → Text.isIdentifier name = true) ∧
    Page.render ⟨4, .single⟩ (shelf.steps .single) =
      "export interface Shelf \x7b\n    'it\\'s': \x7b\n        'at': string;\n" ++
        "        'on'?: Shelf;\n    \x7d;\n    '; \x7d'?: Array<\x7b 'id': number \x7d>;\n\x7d\n" ∧
    SameCode (Page.render ⟨4, .single⟩ (shelf.steps .single)).toList
      ("export interface Shelf \x7b 'it\\'s': \x7b 'at': string; 'on'?: Shelf \x7d; " ++
        "'; \x7d'?: Array<\x7b 'id': number \x7d> \x7d").toList := by
  have legal : ∀ name, shelf.Mentions name → Text.isIdentifier name = true := by
    intro name mentions
    cases mentions with
    | field inside mentions =>
      rcases List.mem_pair.mp inside with rfl | rfl
      · cases mentions with
        | field inside mentions =>
          rcases List.mem_pair.mp inside with rfl | rfl <;> cases mentions
          decide
      · cases mentions with
        | item mentions =>
          cases mentions with
          | field inside mentions =>
            rw [List.mem_singleton.mp inside] at mentions
            cases mentions
  have inline : shelf.lead ++ " " ++ shelf.body.type.text .single =
      "export interface Shelf \x7b 'it\\'s': \x7b 'at': string; 'on'?: Shelf \x7d; " ++
        "'; \x7d'?: Array<\x7b 'id': number \x7d> \x7d" := by decide +kernel
  refine ⟨legal, by decide +kernel, ?_⟩
  obtain ⟨written, added, -, same⟩ :=
    declaration_layout ⟨4, .single⟩ shelf legal (rfl : Page.empty.depth = 0)
  rw [Page.render, added, ← inline]
  exact same (by decide)

end TypedClient.TypeScript
