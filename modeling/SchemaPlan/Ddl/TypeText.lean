import SchemaPlan.Text.Blank
import SchemaPlan.Text.Pieces
import SchemaPlan.Text.LetterCase
import SchemaPlan.Decimal.Digits

/-!
# DDL type texts

The normal form in which column types are compared: upper case outside of quoted parts, one blank
between words and none next to brackets and commas. `baseType` leaves out the first argument list,
`typeArguments` reads it.
-/
namespace SchemaPlan.Ddl

open Text

/-- Whether blanks between two written characters count: not at the start of the text, not behind an
opening bracket or a comma, and not in front of any bracket or comma. -/
def keepsGap (last : Option Char) (next : Char) : Bool :=
  match last with
  | none => false
  | some c =>
    !(c = '(' || c = ',' || c = '<') &&
      !(next = '(' || next = ')' || next = ',' || next = '<' || next = '>')

/-- Walks through a type text. `last` is the character written last, `gap` says whether blanks have
been passed since, and `quoted` whether the walk is inside a quoted part, which is kept as it is. -/
def normalizeFrom (last : Option Char) (gap quoted : Bool) : List Char → List Char
  | [] => []
  | c :: rest =>
    if quoted then c :: normalizeFrom (some c) false (c != '\'') rest
    else if isBlank c then normalizeFrom last true false rest
    else
      let image := upper c
      let space := if gap && keepsGap last c then [' '] else []
      space ++ image ++ normalizeFrom (image.getLast?.or last) false (c == '\'') rest

/-- The normal form of a type text, on characters. -/
def normalizeChars (cs : List Char) : List Char :=
  normalizeFrom none false false (trim cs)

def normalize (ddl : String) : String :=
  String.ofList (normalizeChars ddl.toList)

/-- A type text around its first argument list: what stands before the brackets, between them and
behind them. There is none if a bracket closes before the first one opens. -/
def argumentList? (ddl : List Char) : Option (List Char × List Char × List Char) :=
  (cutAt '(' ddl).bind fun (before, after) =>
    if before.contains ')' then none
    else (cutAt ')' after).map fun (inside, behind) => (before, inside, behind)

/-- The normal form of a type text without its first argument list, on characters. Types with angle
brackets keep it. -/
def baseTypeChars (cs : List Char) : List Char :=
  let ddl := normalizeChars cs
  if ddl.contains '<' then ddl
  else
    match argumentList? ddl with
    | some (before, _, behind) => normalizeChars (before ++ ' ' :: behind)
    | none => ddl

def baseType (ddl : String) : String :=
  String.ofList (baseTypeChars ddl.toList)

/-- The numbers in the first argument list. -/
def typeArguments (ddl : String) : List Nat :=
  match argumentList? ddl.toList with
  | none => []
  | some (_, inside, _) =>
    (pieces (· == ',') inside).filterMap fun piece =>
      Decimal.readBelow? Decimal.bound64 (trim piece)

/-- The part of a type text before its first blank or bracket. -/
def firstWord (ddl : String) : String :=
  String.ofList (ddl.toList.takeWhile fun c => !(c = ' ' || c = '('))

example : normalize " decimal ( 10 , 2 ) " = "DECIMAL(10,2)" := by decide +kernel
example : normalize "enum('a b',  'c')  not" = "ENUM('a b','c') NOT" := by decide +kernel
example : baseType "bigint(20) unsigned" = "BIGINT UNSIGNED" := by decide +kernel
example : typeArguments "DECIMAL(12, 2)" = [12, 2] := by decide +kernel

end SchemaPlan.Ddl
