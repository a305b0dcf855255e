import SchemaPlan.MySql.Default

/-!
# String literals are read back

A literal writes a backslash twice and a quote in the style of its dialect, so nothing inside it is
taken for its end, and no backslash for the start of another character. What stands inside is the
text again, whether it is read up to its end (`literalValue`) or the end is still to be found
(`scanLiteral`).

* `literalValue_literalBody`: the inside of a literal stands for its text.
* `scanLiteral_quoteLiteral`: a literal is read back, and the reader stops at its end.
* `reportedDefault?_quoteLiteral`: a default that is reported as the literal of a text is this text.
-/
namespace SchemaPlan.Text

theorem literalBody_cons (style : QuoteStyle) (c : Char) (text : List Char) :
    literalBody style (c :: text) =
      (if c = '\\' then ['\\', '\\'] else if c = '\'' then style.written else [c]) ++
        literalBody style text :=
  List.flatMap_cons

theorem literalValue_written (style : QuoteStyle) (rest : List Char) :
    literalValue (style.written ++ rest) = '\'' :: literalValue rest := by
  cases style <;> simp [QuoteStyle.written, literalValue, escapedChar]

theorem literalValue_literalBody (style : QuoteStyle) (text : List Char) :
    literalValue (literalBody style text) = text := by
  induction text with
  | nil => rfl
  | cons c text ih =>
    rw [literalBody_cons]
    by_cases hbackslash : c = '\\'
    · rw [if_pos hbackslash, hbackslash, List.cons_append, List.cons_append, List.nil_append,
        literalValue, ih]
      rfl
    rw [if_neg hbackslash]
    by_cases hquote : c = '\''
    · rw [if_pos hquote, literalValue_written, ih, hquote]
    · rw [if_neg hquote, List.singleton_append, literalValue, ih]
      · exact fun h => absurd h hbackslash
      · exact fun _ _ h => absurd h hbackslash
      · exact fun _ h => absurd h hquote

/-! ## Readers that look for the end -/

/-- Reads the inside of a literal up to the quote that ends it. A quote behind a backslash belongs
to the text, and so does a doubled one where quotes are doubled. -/
def scanLiteralBody : QuoteStyle → List Char → Option (List Char × List Char)
  | _, [] => none
  | style, '\\' :: c :: rest =>
    (scanLiteralBody style rest).map fun (text, behind) => (escapedChar c :: text, behind)
  | .doubled, '\'' :: '\'' :: rest =>
    (scanLiteralBody .doubled rest).map fun (text, behind) => ('\'' :: text, behind)
  | _, '\'' :: rest => some ([], rest)
  | style, c :: rest =>
    (scanLiteralBody style rest).map fun (text, behind) => (c :: text, behind)

def scanLiteral (style : QuoteStyle) : List Char → Option (String × List Char)
  | '\'' :: rest =>
    (scanLiteralBody style rest).map fun (text, behind) => (String.ofList text, behind)
  | _ => none

theorem scanLiteralBody_end (style : QuoteStyle) {rest : List Char} (h : rest.head? ≠ some '\'') :
    scanLiteralBody style ('\'' :: rest) = some ([], rest) := by
  rw [scanLiteralBody]
  rintro text rfl rfl
  exact h rfl

theorem scanLiteralBody_written (style : QuoteStyle) (rest : List Char) :
    scanLiteralBody style (style.written ++ rest) =
      (scanLiteralBody style rest).map fun (text, behind) => ('\'' :: text, behind) := by
  cases style <;> simp [QuoteStyle.written, scanLiteralBody, escapedChar]

theorem scanLiteralBody_literalBody (style : QuoteStyle) {rest : List Char}
    (h : rest.head? ≠ some '\'') (text : List Char) :
    scanLiteralBody style (literalBody style text ++ '\'' :: rest) = some (text, rest) := by
  induction text with
  | nil => exact scanLiteralBody_end style h
  | cons c text ih =>
    rw [literalBody_cons, List.append_assoc]
    by_cases hbackslash : c = '\\'
    · rw [if_pos hbackslash, hbackslash, List.cons_append, List.cons_append, List.nil_append,
        scanLiteralBody, ih]
      rfl
    rw [if_neg hbackslash]
    by_cases hquote : c = '\''
    · rw [if_pos hquote, scanLiteralBody_written, ih, hquote]
      rfl
    · rw [if_neg hquote, List.singleton_append, scanLiteralBody, ih]
      · rfl
      · exact fun _ _ he => absurd he hbackslash
      · exact hquote
      · exact fun _ _ he => absurd he hquote

theorem head?_quoteLiteral (style : QuoteStyle) (text : String) :
    (quoteLiteral style text).toList.head? = some '\'' := by
  rw [quoteLiteral, String.toList_ofList]
  rfl

/-- A literal is read back, and the reader stops at its end. -/
theorem scanLiteral_quoteLiteral (style : QuoteStyle) {rest : List Char}
    (h : rest.head? ≠ some '\'') (text : String) :
    scanLiteral style ((quoteLiteral style text).toList ++ rest) = some (text, rest) := by
  have hbody := scanLiteralBody_literalBody style h text.toList
  rw [quoteLiteral, String.toList_ofList, List.cons_append, List.cons_append, List.append_assoc,
    scanLiteral, List.singleton_append, hbody]
  exact congrArg (fun text => some (text, rest)) String.ofList_toList

end SchemaPlan.Text

namespace SchemaPlan.MySql

open Text

/-- A server that reports defaults as literals reports every text, the word `NULL` among them, so
that it is found again. -/
theorem reportedDefault?_quoteLiteral {version : Version} (h : version.reportsLiterals = true)
    (text : String) : reportedDefault? version (some (quoteLiteral text)) = some text := by
  have hliteral : (quoteLiteral text).toList =
      '\'' :: (literalBody .doubled text.toList ++ ['\'']) := String.toList_ofList
  have hnull : sameLetters (quoteLiteral text).toList "NULL".toList = false := by
    rw [hliteral]
    simp [sameLetters, lowerAscii]
  rw [reportedDefault?, Option.bind_some, h]
  dsimp only
  rw [hnull, hliteral]
  simp [literalValue_literalBody]

/-- A text in which a backslash stands in front of a letter and behind a quote. -/
theorem reportedDefault?_quoteLiteral_marks :
    (⟨.mariadb, 10, 6, 0⟩ : Version).reportsLiterals = true ∧
      reportedDefault? ⟨.mariadb, 10, 6, 0⟩ (some (quoteLiteral "null'\\n'")) =
        some "null'\\n'" :=
  ⟨by decide, reportedDefault?_quoteLiteral (by decide) "null'\\n'"⟩

example : quoteLiteral "null'\\n'" = "'null''\\\\n'''" := by decide

end SchemaPlan.MySql
