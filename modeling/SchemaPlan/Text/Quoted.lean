/-!
# Quoted names and literals

Names stand between backticks, with a backtick inside written twice. String literals stand between
single quotes; a backslash inside is written twice, and a quote either twice or behind a backslash,
as the dialect prefers. `literalValue` reads the inside of a literal that a server reports.
-/
namespace SchemaPlan.Text

def quoteName (name : String) : String :=
  let body := name.toList.flatMap fun c => if c = '`' then ['`', '`'] else [c]
  String.ofList ('`' :: body ++ ['`'])

def quoteNames (names : List String) : String :=
  ", ".intercalate (names.map quoteName)

/-- How a literal writes a single quote that belongs to its text. -/
inductive QuoteStyle where
  | doubled
  | backslashed
  deriving DecidableEq

def QuoteStyle.written : QuoteStyle → List Char
  | .doubled => ['\'', '\'']
  | .backslashed => ['\\', '\'']

def literalBody (style : QuoteStyle) (text : List Char) : List Char :=
  text.flatMap fun c =>
    if c = '\\' then ['\\', '\\'] else if c = '\'' then style.written else [c]

def quoteLiteral (style : QuoteStyle) (text : String) : String :=
  String.ofList ('\'' :: literalBody style text.toList ++ ['\''])

/-- The character that a backslash and a letter stand for. -/
def escapedChar (c : Char) : Char :=
  if c = 'n' then '\n'
  else if c = 't' then '\t'
  else if c = 'r' then '\r'
  else if c = '0' then Char.ofNat 0
  else c

/-- The text that the inside of a literal stands for. -/
def literalValue : List Char → List Char
  | [] => []
  | ['\\'] => ['\\']
  | '\\' :: c :: rest => escapedChar c :: literalValue rest
  | '\'' :: '\'' :: rest => '\'' :: literalValue rest
  | c :: rest => c :: literalValue rest

example : quoteName "a`b" = "`a``b`" := by decide
example : quoteLiteral .doubled "it's" = "'it''s'" := by decide
example : literalValue "a\\n''b".toList = "a\n'b".toList := by decide

end SchemaPlan.Text
