/-!
String literals of the generated code: a text between two quote characters,
with backslash escapes for what may not stand for itself.
-/

set_option autoImplicit false

namespace TypedClient.Text

inductive QuoteStyle where
  | single
  | double
  deriving DecidableEq, Repr

def QuoteStyle.delimiter : QuoteStyle → Char
  | .single => '\''
  | .double => '"'

def escapeChar (style : QuoteStyle) (c : Char) : List Char :=
  if c = '\\' then ['\\', '\\']
  else if c = '\n' then ['\\', 'n']
  else if c = '\r' then ['\\', 'r']
  else if c = style.delimiter then ['\\', c]
  else [c]

def escapeChars (style : QuoteStyle) (text : List Char) : List Char :=
  text.flatMap (escapeChar style)

@[simp] theorem escapeChars_nil (style : QuoteStyle) : escapeChars style [] = [] := rfl

@[simp] theorem escapeChars_cons (style : QuoteStyle) (c : Char) (rest : List Char) :
    escapeChars style (c :: rest) = escapeChar style c ++ escapeChars style rest := rfl

def escape (style : QuoteStyle) (text : String) : String :=
  String.ofList (escapeChars style text.toList)

def quote (style : QuoteStyle) (text : String) : String :=
  String.ofList (style.delimiter :: escapeChars style text.toList ++ [style.delimiter])

theorem toList_quote (style : QuoteStyle) (text : String) :
    (quote style text).toList =
      style.delimiter :: escapeChars style text.toList ++ [style.delimiter] := by
  simp [quote]

end TypedClient.Text
