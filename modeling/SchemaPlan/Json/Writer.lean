import SchemaPlan.Json.Basic

/-!
# Written JSON

The compact text of a JSON value: no blanks, members in their order. Quotes, backslashes and
control characters are escaped, everything else stands for itself. `canonical` is the same text of a
value whose objects are maps: members in key order, the last of several with one key, and numbers as
binary arithmetic holds them.
-/
namespace SchemaPlan.Json

/-- Four hexadecimal digits of a code below `2 ^ 16`. -/
def hexFour (n : Nat) : List Char :=
  let found := Nat.toDigits 16 n
  List.replicate (4 - found.length) '0' ++ found

/-- A character as it stands in a JSON string. -/
def writtenChar (c : Char) : List Char :=
  if c = '"' || c = '\\' then ['\\', c]
  else if c = '\n' then ['\\', 'n']
  else if c = '\r' then ['\\', 'r']
  else if c = '\t' then ['\\', 't']
  else if c.toNat = 8 then ['\\', 'b']
  else if c.toNat = 12 then ['\\', 'f']
  else if c.toNat < 0x20 then '\\' :: 'u' :: hexFour c.toNat
  else [c]

def writtenText (s : String) : List Char :=
  '"' :: s.toList.flatMap writtenChar ++ ['"']

def withCommas : List (List Char) → List Char
  | [] => []
  | [only] => only
  | first :: rest => first ++ ',' :: withCommas rest

mutual

def write : Json → List Char
  | .null => "null".toList
  | .bool true => "true".toList
  | .bool false => "false".toList
  | .number n => n.spelling
  | .text s => writtenText s
  | .list items => '[' :: withCommas (writeItems items) ++ [']']
  | .object members => '\x7b' :: withCommas (writeMembers members) ++ ['\x7d']

def writeItems : List Json → List (List Char)
  | [] => []
  | item :: rest => write item :: writeItems rest

def writeMembers : List (String × Json) → List (List Char)
  | [] => []
  | (key, value) :: rest => (writtenText key ++ ':' :: write value) :: writeMembers rest

end

/-- A JSON value as a compact string. -/
def compact (value : Json) : String :=
  String.ofList (write value)

mutual

/-- The text of a value whose objects are maps. -/
def canonicalText : Json → List Char
  | .null => "null".toList
  | .bool true => "true".toList
  | .bool false => "false".toList
  | .number n => n.canonical
  | .text s => writtenText s
  | .list items => '[' :: withCommas (canonicalItems items) ++ [']']
  | .object members =>
    let texts := (NameMap.ofList (canonicalMembers members)).entries.map fun (key, value) =>
      writtenText key ++ ':' :: value
    '\x7b' :: withCommas texts ++ ['\x7d']

def canonicalItems : List Json → List (List Char)
  | [] => []
  | item :: rest => canonicalText item :: canonicalItems rest

/-- The canonical texts of the members of an object, with their keys. -/
def canonicalMembers : List (String × Json) → List (String × List Char)
  | [] => []
  | (key, value) :: rest => (key, canonicalText value) :: canonicalMembers rest

end

/-- A JSON value as a compact string, objects in key order. -/
def canonical (value : Json) : String :=
  String.ofList (canonicalText value)

example : compact (.object [("a", .list [.null, natural 10]), ("b", .text "\"")]) =
    "\x7b\"a\":[null,10],\"b\":\"\\\"\"\x7d" := by decide +kernel

end SchemaPlan.Json
