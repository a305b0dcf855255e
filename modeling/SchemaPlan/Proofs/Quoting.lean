import SchemaPlan.Proofs.TextPieces
import SchemaPlan.Text.Quoted

/-!
# Quoted names are read back

A reader of quoted names takes a doubled backtick for one character and stops at a single one. On a
name that `quoteName` has written it gives the name and stops exactly at its end, provided that the
text goes on with something other than a backtick.

* `scanName_quoteName`: the quoted name is read back.
-/
namespace SchemaPlan.Text

/-- Reads the inside of a quoted name up to the backtick that ends it. -/
def scanNameBody : List Char → Option (List Char × List Char)
  | [] => none
  | '`' :: '`' :: rest => (scanNameBody rest).map fun (name, behind) => ('`' :: name, behind)
  | '`' :: rest => some ([], rest)
  | c :: rest => (scanNameBody rest).map fun (name, behind) => (c :: name, behind)

def scanName : List Char → Option (String × List Char)
  | '`' :: rest => (scanNameBody rest).map fun (name, behind) => (String.ofList name, behind)
  | _ => none

theorem scanNameBody_end {rest : List Char} (h : rest.head? ≠ some '`') :
    scanNameBody ('`' :: rest) = some ([], rest) := by
  cases rest with
  | nil => rfl
  | cons c rest =>
    have hc : c ≠ '`' := fun he => h (congrArg some he)
    rw [scanNameBody]
    exact fun _ he => hc (List.cons.inj he).1

theorem scanNameBody_quoted {rest : List Char} (h : rest.head? ≠ some '`') (name : List Char) :
    scanNameBody ((name.flatMap fun c => if c = '`' then ['`', '`'] else [c]) ++ '`' :: rest) =
      some (name, rest) := by
  induction name with
  | nil => exact scanNameBody_end h
  | cons c name ih =>
    rw [List.flatMap_cons, List.append_assoc]
    by_cases hc : c = '`'
    · rw [if_pos hc, hc, List.cons_append, List.cons_append, List.nil_append, scanNameBody, ih]
      rfl
    · rw [if_neg hc, List.singleton_append, scanNameBody, ih]
      · rfl
      · exact fun _ he => absurd he hc
      · exact hc

/-- A quoted name is read back, and the reader stops at its end. -/
theorem scanName_quoteName {rest : List Char} (h : rest.head? ≠ some '`') (name : String) :
    scanName ((quoteName name).toList ++ rest) = some (name, rest) := by
  have hbody := scanNameBody_quoted h name.toList
  rw [quoteName, String.toList_ofList, List.cons_append, List.cons_append, List.append_assoc,
    scanName, List.singleton_append, hbody]
  exact congrArg (fun name => some (name, rest)) String.ofList_toList

end SchemaPlan.Text
