import SchemaPlan.Text.Blank
import SchemaPlan.Text.LetterCase
import SchemaPlan.Text.Pieces
import SchemaPlan.Decimal.Digits

/-!
# Server versions

The family and version of a MySQL-compatible server, read from the text that it reports, and the one
difference between servers that matters to schemas: newer MariaDB servers report column defaults as
SQL literals.
-/
namespace SchemaPlan.MySql

open Text Decimal

/-- The family of a server. -/
inductive Flavor where
  | mysql
  | mariadb
  deriving DecidableEq

/-- The family and version of a server. -/
structure Version where
  flavor : Flavor := .mysql
  major : Nat := 8
  minor : Nat := 0
  patch : Nat := 0
  deriving DecidableEq

/-- Reads a version such as `8.0.36`, `10.6.12-MariaDB-log` or `5.5.5-10.3.39-MariaDB`, where
`5.5.5-` says nothing. Only the first number has to be there. -/
def Version.read? (text : String) : Option Version :=
  let cs := text.toList
  let flavor : Flavor :=
    if occursIn "mariadb".toList (lowerAscii cs) then .mariadb else .mysql
  let version := (afterWord? "5.5.5-".toList (trim cs)).getD (trim cs)
  let numbers := pieces (· == '.') (version.takeWhile fun c => c.isDigit || c == '.')
  let number (i : Nat) : Option Nat := (numbers[i]?).bind (readBelow? bound32)
  (number 0).map fun major =>
    { flavor, major, minor := (number 1).getD 0, patch := (number 2).getD 0 }

/-- Whether one version number, part by part, is at least another. -/
def Version.atLeast (v : Version) (major minor patch : Nat) : Bool :=
  major < v.major ||
    (major == v.major && (minor < v.minor || (minor == v.minor && decide (patch ≤ v.patch))))

/-- Whether the server reports a column's default as an SQL literal, with quotes around strings and
`NULL` for no default. -/
def Version.reportsLiterals (v : Version) : Bool :=
  v.flavor == .mariadb && v.atLeast 10 2 7

example : Version.read? " 5.5.5-10.3.39-MariaDB" = some ⟨.mariadb, 10, 3, 39⟩ := by decide +kernel
example : Version.read? "8" = some ⟨.mysql, 8, 0, 0⟩ := by decide +kernel
example : Version.read? "v8.0" = none := by decide +kernel

end SchemaPlan.MySql
