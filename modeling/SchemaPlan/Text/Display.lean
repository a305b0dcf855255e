import SchemaPlan.Text.LetterCase
import SchemaPlan.Text.PrintTable

/-!
# Displayed texts

A text as a message shows it: between double quotes, with quotes, backslashes and line controls
behind a backslash and every other character without a printed form as its code.
-/
namespace SchemaPlan.Text

/-- The code of a character between braces, in lower-case hexadecimal. -/
def codeEscape (c : Char) : List Char :=
  "\\u\x7b".toList ++ Nat.toDigits 16 c.toNat ++ "\x7d".toList

/-- A character as it stands in a displayed text. -/
def displayedChar (c : Char) : List Char :=
  if c = '"' || c = '\\' then ['\\', c]
  else if c = '\n' then ['\\', 'n']
  else if c = '\r' then ['\\', 'r']
  else if c = '\t' then ['\\', 't']
  else if c.toNat = 0 then ['\\', '0']
  else if c.toNat < 0x20 || c.toNat = 0x7F then codeEscape c
  else if c.toNat < 0x80 then [c]
  else if inRanges unprintableRanges c.toNat then codeEscape c
  else [c]

/-- A text as a message shows it. -/
def displayed (text : String) : String :=
  String.ofList ('"' :: text.toList.flatMap displayedChar ++ ['"'])

example : displayed "a\"\n" = "\"a\\\"\\n\"" := by decide
example : displayed "🫨\u0301" = "\"🫨\\u\x7b301\x7d\"" := by decide +kernel

end SchemaPlan.Text
